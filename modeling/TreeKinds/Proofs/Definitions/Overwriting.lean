import Mathlib.Control.Monad.Basic
import TreeKinds.Proofs.Definitions.Cleanup

/-! Definitions written over an older file. Creating a file empties it, and a file that is removed
is one that could be created again. Proved: the file then holds what a writer with as much room
takes of the definitions, whatever was in it before, and of two files written under one path
nothing is left of the first. -/
namespace TreeKinds.Files.FileTree

variable {t u : FileTree} {path : String}

/-! ### Trees that differ in the file under a path -/

/-- The tree `u` is `t` but for the file under the path, which may have another content in it, be
new in it or be gone. -/
inductive Varies (t : FileTree) (path : String) : (u : FileTree) → Prop
  | same : Varies t path t
  | put {p : Place} (bytes : Bytes) : t.Reaches path p → Varies t path (t.put p (.file bytes))
  | erase {p : Place} : t.Reaches path p → Varies t path (t.erase p)

/-- What is written under the path does not depend on the file that was there. -/
theorem Varies.write_eq (h : t.Varies path u) (limit : Option Nat) (blocks : List Bytes) :
    u.write limit path blocks = t.write limit path blocks := by
  cases h with
  | same => rfl
  | put bytes hr => rw [(hr.put bytes).write_eq, hr.write_eq, put_put]
  | erase hr => rw [hr.erase.write_eq, hr.write_eq, put_erase]

variable {content : Bytes} {result : Except WriteFailure Unit}

theorem Writes.varies (h : t.Writes path content result u) : t.Varies path u := by
  cases h with
  | uncreated => exact .same
  | file hr => exact .put _ hr
  | special => exact .same

theorem Writes.varies_remove (h : t.Writes path content result u)
    (hc : ∀ cause, result ≠ .error (.uncreated cause)) : t.Varies path (u.remove path).2 := by
  cases h with
  | uncreated cause => exact absurd rfl (hc cause)
  | @file p taken _ hr =>
    obtain ⟨-, he⟩ | ⟨-, hk⟩ := hr.remove_put taken
    · rw [he]
      exact .erase hr
    · rw [hk]
      exact .put taken hr
  | special hr hd hs =>
    rw [(foreign_of_create_special hr hd hs).2]
    exact .same

end TreeKinds.Files.FileTree

namespace TreeKinds.Definitions

open Files (FileTree Place)
open Log (Logs)

variable {t u : FileTree} {p : Place} {path : String}

/-! ### A file and a writer -/

theorem fill_blocks_taken (limit : Option Nat) (kinds : Registry) (w : WhenFull) :
    (FileTree.fill limit (blocks kinds)).taken = (deliver kinds ⟨limit, w⟩).taken := by
  rw [FileTree.fill, deliver, Sink.deliver_taken, Sink.deliver_taken, blocks_flatten, bytes]
  rfl

theorem fill_blocks_failure (limit : Option Nat) (kinds : Registry) (w : WhenFull) :
    (FileTree.fill limit (blocks kinds)).failure = none ↔
      (deliver kinds ⟨limit, w⟩).failure = none := by
  have hfits : (Sink.mk limit .refuses).fits (bytes kinds) =
      (Sink.mk limit w).fits (bytes kinds) := rfl
  rw [FileTree.fill, deliver, Sink.deliver_failure, Sink.deliver_failure, blocks_flatten, ← bytes,
    hfits]
  simp

/-- A file that is not to be removed stays as it was written. -/
theorem writeFile_kept (t : FileTree) (limit : Option Nat) (kinds : Registry) (path : String) :
    ((writeFile (FileTree.disk limit) kinds ⟨path, false⟩).run t).2 =
      (t.write limit path (blocks kinds)).2 := by
  rw [writeFile_run]
  generalize t.write limit path (blocks kinds) = w
  match w with
  | (.ok (), _) => rfl
  | (.error (.uncreated _), _) => rfl
  | (.error (.unwritten _), _) => rfl

/-- A file takes what a writer with as much room takes, whatever it held before, and writing it
succeeds when the writer takes everything. -/
theorem writeFile_delivers (limit : Option Nat) (w : WhenFull) (kinds : Registry)
    (h : t.Reaches path p) :
    (((writeFile (FileTree.disk limit) kinds ⟨path, false⟩).run t).1 = .ok () ↔
      (deliver kinds ⟨limit, w⟩).failure = none) ∧
    ((writeFile (FileTree.disk limit) kinds ⟨path, false⟩).run t).2 =
      t.put p (.file (deliver kinds ⟨limit, w⟩).taken) := by
  have hwrite := h.write_eq limit (blocks kinds)
  constructor
  · rw [writeFile_run, hwrite, FileTree.outcome_eq_ok_iff]
    exact fill_blocks_failure limit kinds w
  · rw [writeFile_kept, hwrite, fill_blocks_taken limit kinds w]

/-- Four bytes of the definitions, past a link, where there were six of something else. -/
theorem writeFile_delivers_past_link : ∃ t kinds,
    t = FileTree.ofList [(["a"], .link "b"), (["b"], .file [1, 2, 3, 4, 5, 6])] ∧
    kinds = [⟨"Module", "module", 1⟩] ∧ t.Reaches "a" (.inside ["b"]) ∧
    (((writeFile (FileTree.disk (some 4)) kinds ⟨"a", false⟩).run t).1 = .ok () ↔
      (deliver kinds ⟨some 4, .takesNothing⟩).failure = none) ∧
    ((writeFile (FileTree.disk (some 4)) kinds ⟨"a", false⟩).run t).2 =
      t.put (.inside ["b"]) (.file (deliver kinds ⟨some 4, .takesNothing⟩).taken) := by
  have h : (FileTree.ofList [(["a"], .link "b"), (["b"], .file [1, 2, 3, 4, 5, 6])]).Reaches
      "a" (.inside ["b"]) :=
    ⟨by decide +kernel, rfl, rfl, .inr ⟨[1, 2, 3, 4, 5, 6], by decide +kernel⟩⟩
  exact ⟨_, _, rfl, rfl, h, writeFile_delivers (some 4) .takesNothing _ h⟩

/-! ### One file after another -/

/-- Whatever becomes of the file, the tree is left as it was but for this file. -/
theorem varies_writeFile (t : FileTree) (limit : Option Nat) (kinds : Registry)
    (o : Settings.Output) :
    t.Varies o.path ((writeFile (FileTree.disk limit) kinds o).run t).2 := by
  have hw := t.writes_write limit o.path (blocks kinds)
  rw [writeFile_run]
  generalize t.write limit o.path (blocks kinds) = w at hw ⊢
  obtain ⟨result, t'⟩ := w
  match result, hw with
  | .ok (), hw => exact hw.varies
  | .error (.uncreated cause), hw => exact hw.varies
  | .error (.unwritten cause), hw =>
    rw [cleaned]
    split
    · exact hw.varies_remove (by simp)
    · exact hw.varies

/-- What becomes of definitions does not depend on the file that was under their path. -/
theorem logs_writeFile_of_varies {o : Settings.Output} (h : t.Varies o.path u) (limit : Option Nat)
    (kinds : Registry) : Logs u (writeFile (FileTree.disk limit) kinds o)
      (fun filter => writeFile ((FileTree.disk limit).logged filter) kinds o)
      (writeEvents kinds o (t.write limit o.path (blocks kinds)))
      (t.write limit o.path (blocks kinds)).1
      (cleaned o (t.write limit o.path (blocks kinds))) := by
  rw [← h.write_eq]
  exact logs_writeFile u limit kinds o

/-- The last write wins: what was written under the path before makes no difference, nor whether
this succeeded. Nor does it make a difference to the log. -/
theorem writeFile_writeFile (t : FileTree) (path : String) (limit limit' : Option Nat)
    (kinds kinds' : Registry) (remove remove' : Bool) :
    (writeFile (FileTree.disk limit') kinds' ⟨path, remove'⟩).run
        ((writeFile (FileTree.disk limit) kinds ⟨path, remove⟩).run t).2 =
      (writeFile (FileTree.disk limit') kinds' ⟨path, remove'⟩).run t ∧
    ∀ filter log,
      ((writeFile ((FileTree.disk limit').logged filter) kinds' ⟨path, remove'⟩).run log).run
          ((writeFile (FileTree.disk limit) kinds ⟨path, remove⟩).run t).2 =
        ((writeFile ((FileTree.disk limit').logged filter) kinds' ⟨path, remove'⟩).run log).run
          t := by
  have h : t.Varies path ((writeFile (FileTree.disk limit) kinds ⟨path, remove⟩).run t).2 :=
    varies_writeFile t limit kinds ⟨path, remove⟩
  have hfirst := logs_writeFile t limit' kinds' ⟨path, remove'⟩
  have hagain := logs_writeFile_of_varies (o := ⟨path, remove'⟩) h limit' kinds'
  refine ⟨hagain.silent.trans hfirst.silent.symm, fun filter log => ?_⟩
  exact (hagain.logged filter log).trans (hfirst.logged filter log).symm

end TreeKinds.Definitions
