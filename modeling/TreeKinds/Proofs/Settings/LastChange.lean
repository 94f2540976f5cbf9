import Mathlib.Data.List.DropRight
import TreeKinds.Proofs.Files.Path
import TreeKinds.Settings.Config

/-! What a series of changes comes to. A reset, or a configuration that can be read, replaces the
settings as a whole; any other change sets one field or nothing. Proved: since the last replacement
each field is as it was set last, whatever became of the other. -/
namespace TreeKinds.Settings

/-! ### One change -/

namespace Change

/-- What a change replaces the settings with, if it replaces them. -/
def replacement? : Change → Option Output
  | reset => some .default
  | config text =>
    match Config.ofText text with
    | .ok c => some ⟨c.output.getD Output.default.path,
        c.removePartialOutput.getD Output.default.removeOnFailure⟩
    | .error _ => none
  | _ => none

def path? : Change → Option String
  | path value => some value
  | _ => none

def removeOnFailure? : Change → Option Bool
  | removeOnFailure value => some value
  | _ => none

theorem run_config_of_error {o : Output} {text : String} {f : ConfigFault}
    (h : Config.ofText text = .error f) : (config text).run o = o := by
  rw [run, apply, h]
  rfl

theorem run_eq (o : Output) (change : Change) : change.run o = change.replacement?.getD
    ⟨change.path?.getD o.path, change.removeOnFailure?.getD o.removeOnFailure⟩ := by
  cases change with
  | path value => rfl
  | removeOnFailure value => rfl
  | reset => rfl
  | config text =>
    cases h : Config.ofText text with
    | ok c =>
      rw [run, apply, replacement?, h]
      rfl
    | error f =>
      rw [run_config_of_error h, replacement?, h]
      rfl

end Change

/-! ### All the changes -/

/-- What the changes replaced the settings with last, the default if nothing did. -/
def base (changes : List Change) : Output :=
  (changes.filterMap Change.replacement?).getLastD .default

/-- The changes behind the last one that replaced the settings. -/
def sinceBase (changes : List Change) : List Change :=
  changes.rtakeWhile fun change => change.replacement? = none

/-- The value set last, or what it was before. -/
theorem getLastD_filterMap_concat {α β : Type} (f : α → Option β) (l : List α) (a : α) (b : β) :
    ((l ++ [a]).filterMap f).getLastD b = (f a).getD ((l.filterMap f).getLastD b) := by
  cases h : f a <;> simp [h]

theorem base_concat (changes : List Change) (change : Change) :
    base (changes ++ [change]) = change.replacement?.getD (base changes) :=
  getLastD_filterMap_concat _ _ _ _

theorem sinceBase_concat (changes : List Change) (change : Change) :
    sinceBase (changes ++ [change]) =
      if change.replacement? = none then sinceBase changes ++ [change] else [] := by
  simp only [sinceBase, List.rtakeWhile_concat, decide_eq_true_eq]

theorem run_default (changes : List Change) : run .default changes =
    ⟨((sinceBase changes).filterMap Change.path?).getLastD (base changes).path,
      ((sinceBase changes).filterMap Change.removeOnFailure?).getLastD
        (base changes).removeOnFailure⟩ := by
  induction changes using List.reverseRecOn with
  | nil => rfl
  | append_singleton changes change ih =>
    rw [run_append, run_cons, run_nil, Change.run_eq, ih, base_concat, sinceBase_concat]
    cases h : change.replacement? with
    | none =>
      rw [if_pos rfl, getLastD_filterMap_concat, getLastD_filterMap_concat]
      rfl
    | some o =>
      -- nothing stands behind a replacement yet
      rw [if_neg nofun]
      rfl

/-- A configuration takes the path back along with the removal that it sets. -/
example : run .default [.path "a", .config "remove_partial_output = false", .config "x"] =
    ⟨"tree.def", false⟩ := by
  decide +kernel

/-- A configuration that cannot be read might as well not be there. -/
theorem run_append_config_of_error {text : String} {f : ConfigFault}
    (h : Config.ofText text = .error f) (o : Output) (before after : List Change) :
    run o (before ++ .config text :: after) = run o (before ++ after) := by
  rw [run_append, run_append, run_cons, Change.run_config_of_error h]

/-! ### The default -/

theorem Output.isDefault_iff (o : Output) : o.isDefault = true ↔
    o.removeOnFailure = true ∧ ∃ ends : List String, (∀ e ∈ ends, e = "/" ∨ e = "/.") ∧
      o.path = "tree.def" ++ String.join ends := by
  have hdefault : Files.Shape.ofPath "tree.def" = ⟨false, false, ["tree.def"]⟩ := by decide
  rw [← Files.Shape.ofPath_eq_name_iff (by decide) (by decide) (by decide), ← hdefault, isDefault,
    agrees, Bool.and_eq_true, decide_eq_true_eq, decide_eq_true_eq]
  rfl

/-- From the default on, each field is as it was set last since the last replacement, and otherwise
as that left it; a configuration that cannot be read might as well not be there. The settings are as
by default when unfinished files are removed and the path is that of the one name. -/
theorem last_change_wins (changes : List Change) :
    (∀ before text after f, changes = before ++ .config text :: after →
      Config.ofText text = .error f → run .default changes = run .default (before ++ after)) ∧
    (run .default changes).path =
      ((sinceBase changes).filterMap Change.path?).getLastD (base changes).path ∧
    (run .default changes).removeOnFailure =
      ((sinceBase changes).filterMap Change.removeOnFailure?).getLastD
        (base changes).removeOnFailure ∧
    ((run .default changes).isDefault = true ↔ (run .default changes).removeOnFailure = true ∧
      ∃ ends : List String, (∀ e ∈ ends, e = "/" ∨ e = "/.") ∧
        (run .default changes).path = "tree.def" ++ String.join ends) := by
  refine ⟨?_, ?_, ?_, Output.isDefault_iff _⟩
  · rintro before text after f rfl h
    exact run_append_config_of_error h _ before after
  · rw [run_default]
  · rw [run_default]

end TreeKinds.Settings
