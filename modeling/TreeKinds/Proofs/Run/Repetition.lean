import TreeKinds.Proofs.Definitions.Overwriting
import TreeKinds.Proofs.Run.ExitCode

/-! Running again. A run changes the tree in the file under the path of its output at most, and does
not look at what is in this file. Proved: a run that reads other files than the one it writes ends
the second time as it did the first, and leaves the tree as it found it. -/
namespace TreeKinds.Files.FileTree

variable {t u : FileTree} {path other : String} {bytes : Bytes} {q : Place}

/-! ### Reading another file -/

theorem Varies.surroundings_eq (h : t.Varies path u) : u.surroundings = t.surroundings := by
  cases h <;> simp

/-- Paths lead to the same places whatever became of the file. -/
theorem Varies.resolve_eq_ok_iff {purpose : Purpose} (h : t.Varies path u) :
    u.resolve purpose other = .ok q ↔ t.resolve purpose other = .ok q := by
  cases h with
  | same => rfl
  | put bytes hr => exact (fills_put hr.takes bytes).resolve_eq_ok_iff.symm
  | erase hr => exact (fills_erase hr.takes).resolve_eq_ok_iff

theorem Varies.node?_eq (h : t.Varies path u) (hq : t.resolve .create path ≠ .ok q) :
    u.node? q = t.node? q := by
  have hne {p : Place} (hr : t.Reaches path p) : p ≠ q := by
    rintro rfl
    exact hq hr.resolves
  cases h with
  | same => rfl
  | put bytes hr => rw [node?_put, if_neg (hne hr)]
  | erase hr => rw [node?_erase, if_neg (hne hr)]

/-- What was read from another file is read again. -/
theorem Varies.read_eq (h : t.Varies path u)
    (hne : ∀ q, t.resolve .create path = .ok q → t.resolve .reach other ≠ .ok q)
    (hr : t.read other = .ok bytes) : u.read other = .ok bytes := by
  cases ht : t.resolve .reach other with
  | error f =>
    rw [read, ht] at hr
    cases hr
  | ok q =>
    have hu : u.resolve .reach other = .ok q := h.resolve_eq_ok_iff.2 ht
    have hnode : u.node? q = t.node? q := h.node?_eq fun hc => hne q hc ht
    have hform : u.form? q = t.form? q := form?_congr h.surroundings_eq hnode
    have hspecial : u.special? q = t.special? q := special?_congr h.surroundings_eq q
    rw [← hr, read, read, ht, hu]
    simp only [hform, hspecial, hnode]

end TreeKinds.Files.FileTree

namespace TreeKinds.Run

open Files (FileTree)
open CommandLine (Options)
open Log (Logs)
open Settings (Config)

variable {limit : Option Nat} {t u : FileTree} {o : Options} {c : Config} {kinds : Registry}

/-! ### The same files -/

/-- The file that the output is written to is neither the description nor the configuration. -/
def Apart (t : FileTree) (o : Options) : Prop :=
  ∀ c p, Configured t o c → t.resolve .create (effective c o).path = .ok p →
    t.resolve .reach o.description ≠ .ok p ∧
      ∀ path, o.config = some path → t.resolve .reach path ≠ .ok p

theorem Configured.of_varies (hc : Configured t o c) (ha : Apart t o)
    (h : t.Varies (effective c o).path u) : Configured u o c := by
  have hc' := hc
  cases hc with
  | unnamed hn => exact .unnamed hn
  | named hp hr ht hf =>
    have hread := h.read_eq (fun q hq => (ha _ q hc' hq).2 _ hp) hr
    exact .named hp hread ht hf

theorem Describes.of_varies (hd : Describes t o kinds) (hc : Configured t o c) (ha : Apart t o)
    (h : t.Varies (effective c o).path u) : Describes u o kinds := by
  obtain ⟨bytes, hr, hl⟩ := hd
  exact ⟨bytes, h.read_eq (fun q hq => (ha c q hc hq).1) hr, hl⟩

/-! ### The same run -/

/-- A run that leaves the tree other than it was has found its settings and its description. -/
theorem Course.eq_or_described {result : Except Failure Unit} (h : Course limit t o result u) :
    u = t ∨ ∃ c kinds, Configured t o c ∧ Describes t o kinds := by
  cases h with
  | misconfigured => exact .inl rfl
  | unopened => exact .inl rfl
  | unloaded => exact .inl rfl
  | described hc hd => exact .inr ⟨_, _, hc, hd⟩

/-- A run that is made again logs the same events and comes to the same. -/
theorem logs_perform_again (h : Apart t o) (limit : Option Nat) :
    ∃ events result u, Logs t (perform (FileTree.disk limit) o)
        (fun filter => perform ((FileTree.disk limit).logged filter) o) events result u ∧
      Logs u (perform (FileTree.disk limit) o)
        (fun filter => perform ((FileTree.disk limit).logged filter) o) events result u := by
  obtain ⟨events, result, u, hlogs, hcourse⟩ := exists_course limit t o
  obtain hsame | ⟨c, kinds, hc, hd⟩ := hcourse.eq_or_described
  · rw [hsame] at hlogs
    exact ⟨events, result, t, hlogs, hlogs⟩
  · have hv := Definitions.varies_writeFile t limit kinds (effective c o)
    rw [Definitions.writeFile_run] at hv
    -- in the tree that is left the same is read, and so the same is written again
    have hc' := (hc.of_varies h hv).configured_eq
    have hd' := describes_iff.1 (hd.of_varies hc h hv)
    have hagain := logs_perform_of_loaded hc' hd' limit
    rw [hv.write_eq] at hagain
    exact ⟨_, _, _, logs_perform_of_loaded hc.configured_eq (describes_iff.1 hd) limit, hagain⟩

/-- A run that is made again ends as it did before, with the same words, and changes nothing. -/
theorem run_run (limit : Option Nat) (toml : String → String) (logging : Option String)
    {words : List String} (h : ∀ o, CommandLine.read words = .ok o → Apart t o) :
    (run (FileTree.disk limit) toml logging words).run
        ((run (FileTree.disk limit) toml logging words).run t).2 =
      (run (FileTree.disk limit) toml logging words).run t := by
  cases hw : CommandLine.read words with
  | error stop =>
    rw [run, hw]
    rfl
  | ok o =>
    obtain ⟨events, result, u, hfirst, hagain⟩ := logs_perform_again (h o hw) limit
    rw [run_of_logs hw hfirst, run_of_logs hw hagain]

/-- The output is cut short past a link that led nowhere before. -/
theorem run_run_cut_short : ∃ t words,
    t = FileTree.ofList [(["c"], .file (Utf8.encode "output = \"l\"\n".toList)),
      (["d"], .file (Utf8.encode "A \"a\"\n".toList)), (["l"], .link "new")] ∧
    words = ["-c", "c", "d"] ∧ (∀ o, CommandLine.read words = .ok o → Apart t o) ∧
    (run (FileTree.disk (some 9)) id (some "debug") words).run
        ((run (FileTree.disk (some 9)) id (some "debug") words).run t).2 =
      (run (FileTree.disk (some 9)) id (some "debug") words).run t := by
  obtain ⟨t, ht⟩ : ∃ t, t = FileTree.ofList
      [(["c"], .file (Utf8.encode "output = \"l\"\n".toList)),
        (["d"], .file (Utf8.encode "A \"a\"\n".toList)), (["l"], .link "new")] := ⟨_, rfl⟩
  have hw : CommandLine.read ["-c", "c", "d"] = .ok ⟨"d", none, some "c", false⟩ := by
    decide +kernel
  have hread : t.read "c" = .ok (Utf8.encode "output = \"l\"\n".toList) := by
    rw [ht]
    decide +kernel
  have htext : Utf8.text? (Utf8.encode "output = \"l\"\n".toList) = some "output = \"l\"\n" := by
    decide +kernel
  have hconfig : Config.ofText "output = \"l\"\n" = .ok ⟨some "l", none⟩ := by decide +kernel
  have hc := Configured.named (o := ⟨"d", none, some "c", false⟩) rfl hread htext hconfig
  have hto : t.resolve .create "l" = .ok (.inside ["new"]) := by
    rw [ht]
    decide +kernel
  have hdescription : t.resolve .reach "d" ≠ .ok (.inside ["new"]) := by
    rw [ht]
    decide +kernel
  have hsettings : t.resolve .reach "c" ≠ .ok (.inside ["new"]) := by
    rw [ht]
    decide +kernel
  have h : ∀ o, CommandLine.read ["-c", "c", "d"] = .ok o → Apart t o := by
    intro o ho c p hc' hp
    rw [hw] at ho
    cases ho
    cases hc.unique hc'
    cases hto.symm.trans hp
    refine ⟨hdescription, fun path hpath => ?_⟩
    cases hpath
    exact hsettings
  exact ⟨t, _, ht, rfl, h, run_run (some 9) id (some "debug") h⟩

end TreeKinds.Run
