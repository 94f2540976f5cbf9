import Mathlib.Logic.Function.Iterate
import TreeKinds.Text.Lines

/-! The lines of a text, told without a function. A line feed ends a piece, and the carriage
returns at the end of a piece belong to the ending: up to two before a line feed, up to one at the
end of the text. Proved: every text has one list of lines, the one that `lines` computes. -/
namespace TreeKinds.Text

/-! ### Endings -/

/-- `line` is `piece` without the carriage returns it ends in, at most `n` of them. -/
def Trimmed (n : Nat) (piece line : List Char) : Prop :=
  ∃ k ≤ n, piece = line ++ List.replicate k '\r' ∧ (k < n → line.getLast? ≠ some '\r')

@[simp] theorem dropReturn_append_return (l : List Char) : dropReturn (l ++ ['\r']) = l := by
  simp [dropReturn]

theorem dropReturn_of_getLast?_ne {l : List Char} (h : l.getLast? ≠ some '\r') :
    dropReturn l = l := by
  rw [dropReturn, if_neg h]

theorem iterate_dropReturn_of_getLast?_ne {l : List Char} (h : l.getLast? ≠ some '\r') (n : Nat) :
    dropReturn^[n] l = l :=
  Function.iterate_fixed (dropReturn_of_getLast?_ne h) n

theorem trimmed_zero_iff {piece line : List Char} : Trimmed 0 piece line ↔ piece = line := by
  constructor
  · rintro ⟨k, hk, rfl, -⟩
    obtain rfl : k = 0 := by omega
    simp
  · rintro rfl
    exact ⟨0, Nat.le_refl 0, by simp, by omega⟩

theorem trimmed_succ_append_return_iff {n : Nat} {p line : List Char} :
    Trimmed (n + 1) (p ++ ['\r']) line ↔ Trimmed n p line := by
  constructor
  · rintro ⟨k, hk, hp, hl⟩
    cases k with
    | zero =>
      -- nothing is trimmed, but the line still ends in a carriage return
      have hline : line = p ++ ['\r'] := by simpa using hp.symm
      exact absurd (by simp [hline]) (hl (by omega))
    | succ k =>
      rw [List.replicate_succ', ← List.append_assoc] at hp
      exact ⟨k, by omega, (List.append_inj_left' hp rfl), fun h => hl (by omega)⟩
  · rintro ⟨k, hk, rfl, hl⟩
    refine ⟨k + 1, by omega, ?_, fun h => hl (by omega)⟩
    rw [List.replicate_succ', List.append_assoc]

theorem trimmed_of_getLast?_ne_iff {n : Nat} {piece line : List Char}
    (h : piece.getLast? ≠ some '\r') : Trimmed n piece line ↔ piece = line := by
  constructor
  · rintro ⟨k, -, rfl, -⟩
    cases k with
    | zero => simp
    | succ k => simp [List.replicate_succ'] at h
  · rintro rfl
    exact ⟨0, by omega, by simp, fun _ => h⟩

/-- Trimming is dropping one carriage return again and again. -/
theorem trimmed_iff {n : Nat} {piece line : List Char} :
    Trimmed n piece line ↔ dropReturn^[n] piece = line := by
  induction n generalizing piece with
  | zero => exact trimmed_zero_iff
  | succ n ih =>
    by_cases h : piece.getLast? = some '\r'
    · obtain ⟨p, rfl⟩ := List.getLast?_eq_some_iff.1 h
      rw [trimmed_succ_append_return_iff, ih, Function.iterate_succ_apply,
        dropReturn_append_return]
    · rw [trimmed_of_getLast?_ne_iff h, iterate_dropReturn_of_getLast?_ne h]

/-! ### Beginnings -/

theorem head?_append_ne {c : Char} {s t : List Char} (hs : s.head? ≠ some c)
    (ht : t.head? ≠ some c) : (s ++ t).head? ≠ some c := by
  rw [List.head?_append]
  intro h
  obtain h | ⟨-, h⟩ := Option.or_eq_some_iff.1 h
  · exact hs h
  · exact ht h

/-! ### Cutting -/

theorem cut_of_not_mem {s : List Char} (h : '\n' ∉ s) : cut s = ([], s) := by
  induction s with
  | nil => rfl
  | cons c s ih =>
    have hc : c ≠ '\n' := fun e => h (e ▸ List.mem_cons_self)
    have hs : '\n' ∉ s := fun m => h (List.mem_cons_of_mem _ m)
    simp [cut, ih hs, hc]

theorem cut_append_feed {p : List Char} (h : '\n' ∉ p) (s : List Char) :
    cut (p ++ '\n' :: s) = (p :: (cut s).1, (cut s).2) := by
  induction p with
  | nil => simp [cut]
  | cons c p ih =>
    have hc : c ≠ '\n' := fun e => h (e ▸ List.mem_cons_self)
    have hp : '\n' ∉ p := fun m => h (List.mem_cons_of_mem _ m)
    simp [cut, ih hp, hc]

theorem lines_of_not_mem {s : List Char} (h : '\n' ∉ s) (hs : s ≠ []) :
    lines s = [dropReturn s] := by
  simp [lines, cut_of_not_mem h, hs]

theorem lines_append_feed {p : List Char} (h : '\n' ∉ p) (s : List Char) :
    lines (p ++ '\n' :: s) = dropReturn (dropReturn p) :: lines s := by
  simp [lines, cut_append_feed h]

/-- Pieces without line feeds, each ended by one, are cut where they were joined. -/
theorem cut_flatMap_feed {ps : List (List Char)} (h : ∀ p ∈ ps, '\n' ∉ p) :
    cut (ps.flatMap (· ++ ['\n'])) = (ps, []) := by
  induction ps with
  | nil => rfl
  | cons p ps ih =>
    obtain ⟨hp, hps⟩ := List.forall_mem_cons.1 h
    rw [List.flatMap_cons, List.append_assoc, List.singleton_append, cut_append_feed hp, ih hps]

/-- Lines that end in no carriage return are the lines of the text in which a line feed follows
each. -/
theorem lines_flatMap_feed {ls : List (List Char)} (hf : ∀ l ∈ ls, '\n' ∉ l)
    (hr : ∀ l ∈ ls, l.getLast? ≠ some '\r') : lines (ls.flatMap (· ++ ['\n'])) = ls := by
  induction ls with
  | nil => rfl
  | cons l ls ih =>
    obtain ⟨hfl, hfls⟩ := List.forall_mem_cons.1 hf
    obtain ⟨hrl, hrls⟩ := List.forall_mem_cons.1 hr
    rw [List.flatMap_cons, List.append_assoc, List.singleton_append, lines_append_feed hfl,
      dropReturn_of_getLast?_ne hrl, dropReturn_of_getLast?_ne hrl, ih hfls hrls]

/-! ### Lines -/

/-- `ls` are the lines of a text. -/
inductive LinesOf : List Char → List (List Char) → Prop
  | nil : LinesOf [] []
  | last {piece l : List Char} : piece ≠ [] → '\n' ∉ piece → Trimmed 1 piece l →
      LinesOf piece [l]
  | line {piece l s : List Char} {ls : List (List Char)} : '\n' ∉ piece → Trimmed 2 piece l →
      LinesOf s ls → LinesOf (piece ++ '\n' :: s) (l :: ls)

theorem linesOf_lines (s : List Char) : LinesOf s (lines s) := by
  by_cases h : '\n' ∈ s
  · obtain ⟨p, t, hs, hp⟩ := List.eq_append_cons_of_mem h
    have hlt : t.length < s.length := by rw [hs, List.length_append, List.length_cons]; omega
    rw [hs, lines_append_feed hp]
    exact .line hp (trimmed_iff.2 rfl) (linesOf_lines t)
  · by_cases hs : s = []
    · subst hs
      exact .nil
    · rw [lines_of_not_mem h hs]
      exact .last hs h (trimmed_iff.2 rfl)
termination_by s.length
decreasing_by exact hlt

theorem LinesOf.lines_eq {s : List Char} {ls : List (List Char)} (h : LinesOf s ls) :
    lines s = ls := by
  induction h with
  | nil => rfl
  | last hs hf ht => rw [lines_of_not_mem hf hs, ← trimmed_iff.1 ht]; rfl
  | line hf ht _ ih => rw [lines_append_feed hf, ih, ← trimmed_iff.1 ht]; rfl

theorem linesOf_iff {s : List Char} {ls : List (List Char)} : LinesOf s ls ↔ lines s = ls :=
  ⟨LinesOf.lines_eq, fun h => h ▸ linesOf_lines s⟩

theorem not_mem_of_trimmed {n : Nat} {piece l : List Char} {c : Char} (h : Trimmed n piece l)
    (hc : c ∉ piece) : c ∉ l := by
  obtain ⟨k, -, rfl, -⟩ := h
  exact fun hl => hc (List.mem_append_left _ hl)

/-- No line holds a line feed. -/
theorem LinesOf.not_mem {s : List Char} {ls : List (List Char)} (h : LinesOf s ls) :
    ∀ l ∈ ls, '\n' ∉ l := by
  induction h with
  | nil => simp
  | last _ hf ht =>
    intro l hl
    rw [List.mem_singleton.1 hl]
    exact not_mem_of_trimmed ht hf
  | line hf ht _ ih => exact List.forall_mem_cons.2 ⟨not_mem_of_trimmed ht hf, ih⟩

end TreeKinds.Text
