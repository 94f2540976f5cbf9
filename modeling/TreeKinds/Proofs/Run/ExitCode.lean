import TreeKinds.Proofs.Definitions.Cleanup

/-! The exit code of a run, told from what is wrong with its files. Several things can be wrong at
once, each told for itself; the code is that of the first in a fixed order. Proved: runs end with
this code, and a run that does not get as far as creating its output leaves the tree alone. -/
namespace TreeKinds.Run

open Files (FileTree WriteFailure)
open Log (Logs)
open CommandLine (Options)
open Settings (Config)

/-! ### What can be wrong -/

/-- A configuration file is named, and no configuration comes of it. -/
inductive Misconfigured (t : FileTree) (o : Options) : Prop
  | unread {path : String} {f : Files.ReadFailure} : o.config = some path →
      t.read path = .error f → Misconfigured t o
  | notText {path : String} {bytes : Bytes} : o.config = some path → t.read path = .ok bytes →
      Utf8.text? bytes = none → Misconfigured t o
  | faulty {path text : String} {bytes : Bytes} {fault : Settings.ConfigFault} :
      o.config = some path → t.read path = .ok bytes → Utf8.text? bytes = some text →
      Config.ofText text = .error fault → Misconfigured t o

/-- The configuration that is asked for, which is empty if no file is named. -/
inductive Configured (t : FileTree) (o : Options) : Config → Prop
  | unnamed : o.config = none → Configured t o .empty
  | named {path text : String} {bytes : Bytes} {c : Config} : o.config = some path →
      t.read path = .ok bytes → Utf8.text? bytes = some text → Config.ofText text = .ok c →
      Configured t o c

def Unopened (t : FileTree) (o : Options) : Prop :=
  ∃ f, t.read o.description = .error (.unopened f)

/-- The description cannot be read to its end, or is rejected. -/
inductive Unloaded (t : FileTree) (o : Options) : Prop
  | unread {f : Files.Failure} : t.read o.description = .error (.unread f) → Unloaded t o
  | rejected {bytes : Bytes} {r : Description.Rejection} : t.read o.description = .ok bytes →
      Description.loadBytes bytes = .error r → Unloaded t o

/-- The description is that of the registry. -/
def Describes (t : FileTree) (o : Options) (kinds : Registry) : Prop :=
  ∃ bytes, t.read o.description = .ok bytes ∧ Description.loadBytes bytes = .ok kinds

/-- There is something to write, and writing it fails. -/
def Unwritten (limit : Option Nat) (t : FileTree) (o : Options) (f : WriteFailure) : Prop :=
  ∃ c kinds, Configured t o c ∧ Describes t o kinds ∧
    (t.write limit (effective c o).path (Definitions.blocks kinds)).1 = .error f

open Classical in
/-- The code of the first thing that is wrong. -/
noncomputable def exitCode (limit : Option Nat) (t : FileTree) (words : List String) : Nat :=
  match CommandLine.read words with
  | .error (.refused _) => 1
  | .error .help => 0
  | .error .version => 0
  | .ok o =>
    if Misconfigured t o then 5
    else if Unopened t o then 2
    else if Unloaded t o then 3
    else if ∃ f, Unwritten limit t o f then 4
    else 0

/-- A run that does not get as far as creating its output. -/
inductive Idle (limit : Option Nat) (t : FileTree) (words : List String) : Prop
  | stopped {stop : CommandLine.Stop} : CommandLine.read words = .error stop → Idle limit t words
  | failed : exitCode limit t words ∈ [2, 3, 5] → Idle limit t words
  | uncreated {o : Options} {cause : Files.Failure} : CommandLine.read words = .ok o →
      Unwritten limit t o (.uncreated cause) → Idle limit t words

variable {limit : Option Nat} {t : FileTree} {o : Options} {c c' : Config} {kinds : Registry}
  {words : List String}

theorem Configured.not_misconfigured (h : Configured t o c) : ¬Misconfigured t o := by
  intro hm
  cases h with
  | unnamed hn => cases hm <;> simp_all
  | named hp hr ht hf => cases hm <;> simp_all

theorem Configured.unique (h : Configured t o c) (h' : Configured t o c') : c = c' := by
  cases h with
  | unnamed hn =>
    cases h' with
    | unnamed => rfl
    | named hp => simp [hn] at hp
  | named hp hr ht hf =>
    cases h' with
    | unnamed hn => simp [hn] at hp
    | named hp' hr' ht' hf' => simp_all

theorem Describes.unique {kinds' : Registry} (h : Describes t o kinds)
    (h' : Describes t o kinds') : kinds = kinds' := by
  obtain ⟨bytes, hr, hl⟩ := h
  obtain ⟨bytes', hr', hl'⟩ := h'
  rw [hr] at hr'
  cases hr'
  rw [hl] at hl'
  cases hl'
  rfl

theorem Describes.not_unopened (h : Describes t o kinds) : ¬Unopened t o := by
  rintro ⟨f, hf⟩
  obtain ⟨bytes, hr, -⟩ := h
  simp [hr] at hf

theorem Describes.not_unloaded (h : Describes t o kinds) : ¬Unloaded t o := by
  obtain ⟨bytes, hr, hl⟩ := h
  rintro (hf | ⟨hr', hl'⟩)
  · simp [hr] at hf
  · rw [hr] at hr'
    cases hr'
    simp [hl] at hl'

/-! ### The courses of a run -/

theorem configured_cases (t : FileTree) (o : Options) :
    (∃ c, Configured t o c ∧ configured t o = .ok c) ∨
      Misconfigured t o ∧ ∃ path e, configured t o = .error (.config path e) := by
  cases hp : o.config with
  | none => exact .inl ⟨.empty, .unnamed hp, by rw [configured, hp]⟩
  | some path =>
    have hconfigured : configured t o =
        (Config.ofReading (t.read path)).mapError (.config path) := by
      rw [configured, hp]
    rw [hconfigured]
    cases hr : t.read path with
    | error f => cases f <;> exact .inr ⟨.unread hp hr, path, _, rfl⟩
    | ok bytes =>
      rw [Config.ofReading]
      cases ht : Utf8.text? bytes with
      | none => exact .inr ⟨.notText hp hr ht, path, _, rfl⟩
      | some text =>
        dsimp only
        cases hf : Config.ofText text with
        | error fault => exact .inr ⟨.faulty hp hr ht hf, path, _, rfl⟩
        | ok c => exact .inl ⟨c, .named hp hr ht hf, rfl⟩

theorem Configured.configured_eq (h : Configured t o c) : configured t o = .ok c := by
  obtain ⟨c', hc', heq⟩ | ⟨hmis, -⟩ := configured_cases t o
  · rw [heq, h.unique hc']
  · exact absurd hmis h.not_misconfigured

/-- The courses that a run can take: the result and the tree that is left. -/
inductive Course (limit : Option Nat) (t : FileTree) (o : Options) :
    Except Failure Unit → FileTree → Prop
  | misconfigured {path : String} {e : Settings.ConfigError} : Misconfigured t o →
      Course limit t o (.error (.config path e)) t
  | unopened {c : Config} {f : Files.Failure} : Configured t o c →
      t.read o.description = .error (.unopened f) →
      Course limit t o (.error (.load o.description (.unopened f))) t
  | unloaded {c : Config} {e : Description.LoadError} : Configured t o c → ¬Unopened t o →
      Unloaded t o → (∀ f, e ≠ .unopened f) →
      Course limit t o (.error (.load o.description e)) t
  | described {c : Config} {kinds : Registry} {t' : FileTree} : Configured t o c →
      Describes t o kinds →
      (∀ cause, Unwritten limit t o (.uncreated cause) → t' = t) →
      Course limit t o
        ((t.write limit (effective c o).path (Definitions.blocks kinds)).1.mapError
          (.write (effective c o).path)) t'

theorem describes_iff :
    Describes t o kinds ↔ Description.ofReading (t.read o.description) = .ok kinds :=
  Description.ofReading_eq_ok_iff.symm

/-- Definitions that cannot be created leave the tree as it was. -/
theorem course_of_described (limit : Option Nat) (hc : Configured t o c)
    (hk : Describes t o kinds) :
    Course limit t o
      ((t.write limit (effective c o).path (Definitions.blocks kinds)).1.mapError
        (.write (effective c o).path))
      (Definitions.cleaned (effective c o)
        (t.write limit (effective c o).path (Definitions.blocks kinds))) := by
  refine .described hc hk fun cause hun => ?_
  obtain ⟨c', kinds', hc', hk', hw⟩ := hun
  cases hc.unique hc'
  cases hk.unique hk'
  have hsame := Definitions.writeFile_of_uncreated hw
  rwa [Definitions.writeFile_run] at hsame

/-- A run takes one of the courses, with the same events for its log whatever the filter is. -/
theorem exists_course (limit : Option Nat) (t : FileTree) (o : Options) :
    ∃ events result t', Logs t (perform (FileTree.disk limit) o)
        (fun filter => perform ((FileTree.disk limit).logged filter) o) events result t' ∧
      Course limit t o result t' := by
  obtain ⟨c, hc, hok⟩ | ⟨hmis, path, e, herror⟩ := configured_cases t o
  · cases hr : t.read o.description with
    | error f =>
      cases f with
      | unopened f =>
        have he : Description.ofReading (t.read o.description) = .error (.unopened f) := by
          rw [hr]
          rfl
        exact ⟨_, _, _, logs_perform_of_unloaded hok he limit, .unopened hc hr⟩
      | unread f =>
        have he : Description.ofReading (t.read o.description) = .error (.unread f) := by
          rw [hr]
          rfl
        refine ⟨_, _, _, logs_perform_of_unloaded hok he limit, ?_⟩
        exact .unloaded hc (by simp [Unopened, hr]) (.unread hr) (by simp)
    | ok bytes =>
      cases hl : Description.loadBytes bytes with
      | error r =>
        have he : Description.ofReading (t.read o.description) = .error (.rejected r) := by
          rw [hr, Description.ofReading, hl]
          rfl
        refine ⟨_, _, _, logs_perform_of_unloaded hok he limit, ?_⟩
        exact .unloaded hc (by simp [Unopened, hr]) (.rejected hr hl) (by simp)
      | ok kinds =>
        have hk : Describes t o kinds := ⟨bytes, hr, hl⟩
        exact ⟨_, _, _, logs_perform_of_loaded hok (describes_iff.1 hk) limit,
          course_of_described limit hc hk⟩
  · exact ⟨_, _, _, logs_perform_of_unconfigured herror limit, .misconfigured hmis⟩

/-! ### The code -/

def codeOf : Except Failure Unit → Nat
  | .ok () => 0
  | .error f => f.exitCode

theorem codeOf_write (path : String) (x : Except WriteFailure Unit) :
    codeOf (x.mapError (.write path)) = match x with
      | .ok () => 0
      | .error _ => 4 := by
  cases x <;> rfl

theorem Course.exitCode_eq {result : Except Failure Unit} {t' : FileTree}
    (hw : CommandLine.read words = .ok o) (h : Course limit t o result t') :
    exitCode limit t words = codeOf result := by
  rw [exitCode, hw]
  dsimp only
  cases h with
  | misconfigured hmis => exact if_pos hmis
  | unopened hc hr =>
    rw [if_neg hc.not_misconfigured, if_pos ⟨_, hr⟩]
    rfl
  | @unloaded c e hc ho hl he =>
    rw [if_neg hc.not_misconfigured, if_neg ho, if_pos hl]
    cases e with
    | unopened f => exact absurd rfl (he f)
    | unread => rfl
    | rejected => rfl
  | @described c kinds _ hc hk _ =>
    rw [if_neg hc.not_misconfigured, if_neg hk.not_unopened, if_neg hk.not_unloaded, codeOf_write]
    cases hwrite : (t.write limit (effective c o).path (Definitions.blocks kinds)).1 with
    | error f => exact if_pos ⟨f, c, kinds, hc, hk, hwrite⟩
    | ok =>
      refine if_neg ?_
      rintro ⟨f, c', kinds', hc', hk', hf⟩
      cases hc.unique hc'
      cases hk.unique hk'
      simp [hwrite] at hf

theorem Course.eq_of_idle {result : Except Failure Unit} {t' : FileTree}
    (hw : CommandLine.read words = .ok o) (h : Course limit t o result t')
    (hidle : Idle limit t words) : t' = t := by
  have hcode : exitCode limit t words = codeOf result := h.exitCode_eq hw
  cases h with
  | misconfigured => rfl
  | unopened => rfl
  | unloaded => rfl
  | @described c kinds t' _ _ huncreated =>
    obtain hstop | hfailed | ⟨hw', hun⟩ := hidle
    · simp [hw] at hstop
    · rw [hcode, codeOf_write] at hfailed
      split at hfailed
      next => simp at hfailed
      next => simp at hfailed
    · rw [hw] at hw'
      cases hw'
      exact huncreated _ hun

theorem exitCode_ofResult (toml : String → String) (log : String) (result : Except Failure Unit) :
    (Outcome.ofResult toml log result).exitCode = codeOf result := by
  cases result <;> rfl

/-- Runs end with the code of the first thing that is wrong, and idle runs leave the tree alone. -/
theorem run_exitCode (limit : Option Nat) (toml : String → String) (logging : Option String)
    (t : FileTree) (words : List String) :
    ((run (FileTree.disk limit) toml logging words).run t).1.exitCode = exitCode limit t words ∧
      (Idle limit t words → ((run (FileTree.disk limit) toml logging words).run t).2 = t) := by
  cases hw : CommandLine.read words with
  | error stop =>
    rw [run, hw]
    refine ⟨?_, fun _ => rfl⟩
    rw [exitCode, hw]
    cases stop <;> rfl
  | ok o =>
    obtain ⟨events, result, t', hlogs, hcourse⟩ := exists_course limit t o
    rw [run_of_logs hw hlogs, exitCode_ofResult, hcourse.exitCode_eq hw]
    exact ⟨rfl, hcourse.eq_of_idle hw⟩

end TreeKinds.Run
