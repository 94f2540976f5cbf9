import TreeKinds.Proofs.Description.Validity
import TreeKinds.Proofs.Log.Emission
import TreeKinds.Session

/-! The course of a session. Every action ends in one of a few ways, each of which changes one part
of the session and leaves the others as they are. Proved: after any actions the registry is that of
the last load that succeeded, on the file as it was then, or empty if there was none; so it is
always valid. -/
namespace TreeKinds

theorem Description.valid_of_loadBytes {bytes : Bytes} {kinds : Registry}
    (h : loadBytes bytes = .ok kinds) : kinds.Valid := by
  rw [loadBytes] at h
  split at h
  · exact valid_of_load h
  · cases h

namespace Session

open Files (FileTree WriteFailure)

variable {s : Session} {action : Action} {actions : List Action} {kinds : Registry}

/-! ### Running -/

/-- The session after a series of actions. -/
def run (s : Session) (actions : List Action) : Session := actions.foldl (fun s a => (s.act a).2) s

@[simp] theorem run_nil (s : Session) : s.run [] = s := rfl

@[simp] theorem run_cons (s : Session) (action : Action) (actions : List Action) :
    s.run (action :: actions) = (s.act action).2.run actions := rfl

theorem run_append (s : Session) (before after : List Action) :
    s.run (before ++ after) = (s.run before).run after := List.foldl_append

theorem replies_append (s : Session) (before after : List Action) :
    s.replies (before ++ after) = s.replies before ++ (s.run before).replies after := by
  induction before generalizing s with
  | nil => rfl
  | cons action before ih => simp [replies, ih]

/-! ### One action -/

/-- The file under the path has a description of the registry. -/
def Loads (s : Session) (path : String) (kinds : Registry) : Prop :=
  ∃ bytes, s.tree.read path = .ok bytes ∧ Description.loadBytes bytes = .ok kinds

/-- The file under the path has the configuration. -/
def Configures (s : Session) (path : String) (c : Settings.Config) : Prop :=
  ∃ bytes text, s.tree.read path = .ok bytes ∧ Utf8.text? bytes = some text ∧
    Settings.Config.ofText text = .ok c

/-- The ways in which an action can end. -/
inductive Steps (s : Session) : Action → Reply → Session → Prop
  | loaded {path : String} {kinds : Registry} : s.Loads path kinds →
      Steps s (.load path) (.loaded path (.ok kinds)) { s with kinds := kinds }
  | unloaded {path : String} {e : Description.LoadError} : (∀ kinds, ¬s.Loads path kinds) →
      Steps s (.load path) (.loaded path (.error e)) s
  | configured {path : String} {c : Settings.Config} : s.Configures path c →
      Steps s (.config path) (.configured path (.ok c)) { s with output := c.outputSettings }
  | unconfigured {path : String} {e : Settings.ConfigError} : (∀ c, ¬s.Configures path c) →
      Steps s (.config path) (.configured path (.error e)) s
  | pathSet (value : String) : Steps s (.setPath value) (.set { s.output with path := value })
      { s with output := { s.output with path := value } }
  | removalSet (value : Bool) :
      Steps s (.setRemoveOnFailure value) (.set { s.output with removeOnFailure := value })
        { s with output := { s.output with removeOnFailure := value } }
  | written {limit : Option Nat} {result : Except WriteFailure Unit} {tree : FileTree} :
      (Definitions.writeFile (FileTree.disk limit) s.kinds s.output).run s.tree = (result, tree) →
      Steps s (.write limit) (.written s.output.path result tree) { s with tree := tree }

theorem loads_iff {path : String} :
    s.Loads path kinds ↔ Description.ofReading (s.tree.read path) = .ok kinds :=
  Description.ofReading_eq_ok_iff.symm

theorem configures_iff {path : String} {c : Settings.Config} :
    s.Configures path c ↔ Settings.Config.ofReading (s.tree.read path) = .ok c :=
  Settings.Config.ofReading_eq_ok_iff.symm

theorem onTree_loadFile (s : Session) (path : String) :
    s.onTree none (fun host => Description.loadFile host path) =
      (Description.ofReading (s.tree.read path), s.tree) := by
  cases h : Description.ofReading (s.tree.read path) with
  | error e => exact (Description.logs_loadFile_of_error h none).silent
  | ok kinds => exact (Description.logs_loadFile_of_ok h none).silent

theorem act_load (s : Session) (path : String) : s.act (.load path) =
    (.loaded path (Description.ofReading (s.tree.read path)),
      { s with
        kinds := (Description.ofReading (s.tree.read path)).toOption.getD s.kinds }) := by
  rw [act, onTree_loadFile]

theorem act_config (s : Session) (path : String) : s.act (.config path) =
    (.configured path (Settings.Config.ofReading (s.tree.read path)),
      { s with
        output := ((Settings.Config.ofReading (s.tree.read path)).toOption.map
          Settings.Config.outputSettings).getD s.output }) := rfl

theorem steps_act (s : Session) (action : Action) :
    s.Steps action (s.act action).1 (s.act action).2 := by
  cases action with
  | load path =>
    rw [act_load]
    cases h : Description.ofReading (s.tree.read path) with
    | ok kinds => exact .loaded (loads_iff.2 h)
    | error e =>
      refine .unloaded fun kinds hk => ?_
      rw [loads_iff, h] at hk
      cases hk
  | config path =>
    rw [act_config]
    cases h : Settings.Config.ofReading (s.tree.read path) with
    | ok c => exact .configured (configures_iff.2 h)
    | error e =>
      refine .unconfigured fun c hc => ?_
      rw [configures_iff, h] at hc
      cases hc
  | setPath value => exact .pathSet value
  | setRemoveOnFailure value => exact .removalSet value
  | write limit => exact .written rfl

/-! ### The last load -/

/-- None of the actions is a load that succeeds when its turn comes. -/
def LoadsNothing (s : Session) (actions : List Action) : Prop :=
  ∀ before path after, actions = before ++ .load path :: after →
    ∀ kinds, ¬(s.run before).Loads path kinds

/-- The last load among the actions that succeeds gives the registry. -/
def LastLoad (s : Session) (actions : List Action) (kinds : Registry) : Prop :=
  ∃ before path after, actions = before ++ .load path :: after ∧
    (s.run before).Loads path kinds ∧ (s.run (before ++ [.load path])).LoadsNothing after

theorem loadsNothing_nil (s : Session) : s.LoadsNothing [] := by
  intro before path after h
  simp at h

theorem LoadsNothing.cons (hfirst : ∀ path, action = .load path → ∀ kinds, ¬s.Loads path kinds)
    (h : (s.act action).2.LoadsNothing actions) : s.LoadsNothing (action :: actions) := by
  intro before path after heq
  cases before with
  | nil =>
    rw [List.nil_append, List.cons.injEq] at heq
    exact hfirst path heq.1
  | cons first before =>
    rw [List.cons_append, List.cons.injEq] at heq
    obtain ⟨rfl, heq⟩ := heq
    exact h before path after heq

theorem LastLoad.cons (h : (s.act action).2.LastLoad actions kinds) :
    s.LastLoad (action :: actions) kinds := by
  obtain ⟨before, path, after, rfl, hload, hafter⟩ := h
  exact ⟨action :: before, path, after, rfl, hload, hafter⟩

/-- One action keeps the registry, or it is a load that succeeds and gives it. -/
theorem Steps.registry {reply : Reply} {s' : Session} (h : s.Steps action reply s') :
    (s'.kinds = s.kinds ∧ ∀ path, action = .load path → ∀ kinds, ¬s.Loads path kinds) ∨
      ∃ path, action = .load path ∧ s.Loads path s'.kinds := by
  cases h with
  | loaded hk => exact .inr ⟨_, rfl, hk⟩
  | unloaded hn =>
    refine .inl ⟨rfl, fun path heq => ?_⟩
    cases heq
    exact hn
  | configured | unconfigured | pathSet | removalSet | written => exact .inl ⟨rfl, nofun⟩

theorem kinds_run (s : Session) (actions : List Action) :
    (s.LoadsNothing actions ∧ (s.run actions).kinds = s.kinds) ∨
      s.LastLoad actions (s.run actions).kinds := by
  induction actions generalizing s with
  | nil => exact .inl ⟨loadsNothing_nil s, rfl⟩
  | cons action actions ih =>
    rw [run_cons]
    -- the first action counts only if no later one loads anything
    obtain ⟨hnothing, hkinds⟩ | hlast := ih (s.act action).2
    · rw [hkinds]
      obtain ⟨hsame, hfirst⟩ | ⟨path, rfl, hload⟩ := (steps_act s action).registry
      · exact .inl ⟨.cons hfirst hnothing, hsame⟩
      · exact .inr ⟨[], path, actions, rfl, hload, hnothing⟩
    · exact .inr hlast.cons

/-- A load that fails leaves the registry of the one before. -/
example : ((start (FileTree.ofList [(["d"], .file (Utf8.encode "A \"a\"".toList))])).run
    [.load "d", .setPath "d", .load "e"]).kinds = [⟨"A", "a", 1⟩] := by
  decide +kernel

theorem LastLoad.valid (h : s.LastLoad actions kinds) : kinds.Valid := by
  obtain ⟨-, -, -, -, ⟨bytes, -, hload⟩, -⟩ := h
  exact Description.valid_of_loadBytes hload

/-- Whatever the actions were, the registry is valid and comes from the last load that succeeded, on
the file as it was then; and whatever action is next, it ends in one of the known ways. -/
theorem run_start (tree : FileTree) (actions : List Action) :
    (((start tree).LoadsNothing actions ∧ ((start tree).run actions).kinds = []) ∨
      (start tree).LastLoad actions ((start tree).run actions).kinds) ∧
    ((start tree).run actions).kinds.Valid ∧
    ∀ action, ∃ reply,
      (start tree).replies (actions ++ [action]) = (start tree).replies actions ++ [reply] ∧
      ((start tree).run actions).Steps action reply ((start tree).run (actions ++ [action])) := by
  have hkinds := kinds_run (start tree) actions
  refine ⟨hkinds, ?_, fun action => ?_⟩
  · obtain ⟨-, hnil⟩ | hlast := hkinds
    · rw [hnil]
      exact Registry.valid_nil
    · exact hlast.valid
  · have hstep := steps_act ((start tree).run actions) action
    refine ⟨_, replies_append _ _ _, ?_⟩
    rw [run_append]
    exact hstep

end Session
end TreeKinds
