import TreeKinds.Proofs.Description.FinalFeed

/-! The ways to write a description down. A line may end in a line feed or in a carriage return and
a line feed, the last line also in a carriage return alone or in nothing, and a byte order mark may
stand before the whole. Proved: all texts that write the same lines down are loaded alike. -/
namespace TreeKinds.Text

/-! ### Lines written down -/

/-- A line that a text can hold as it is, whatever ends it there. -/
structure Settled (l : List Char) : Prop where
  noFeed : '\n' ∉ l
  noReturn : l.getLast? ≠ some '\r'

/-- The text `s` writes the lines `ls` down, each with an ending of its own. -/
inductive Renders : (ls : List (List Char)) → (s : List Char) → Prop
  | nil : Renders [] []
  | unended (l : List Char) : Renders [l] l
  | bareReturn (l : List Char) : Renders [l] (l ++ ['\r'])
  | feed {l : List Char} {ls : List (List Char)} {s : List Char} : Renders ls s →
      Renders (l :: ls) (l ++ '\n' :: s)
  | returnFeed {l : List Char} {ls : List (List Char)} {s : List Char} : Renders ls s →
      Renders (l :: ls) (l ++ '\r' :: '\n' :: s)

theorem Settled.dropReturn_eq {l : List Char} (h : Settled l) : dropReturn l = l :=
  dropReturn_of_getLast?_ne h.noReturn

theorem Settled.feed_not_mem_append_return {l : List Char} (h : Settled l) :
    '\n' ∉ l ++ ['\r'] := by
  simp [h.noFeed]

/-- What is written down is cut into the same lines again, but for a last line that is empty and
has no ending. -/
theorem Renders.lines_eq {ls : List (List Char)} {s : List Char} (h : Renders ls s)
    (hls : ∀ l ∈ ls, Settled l) : lines s = ls ∨ ls = lines s ++ [[]] := by
  induction h with
  | nil => exact .inl rfl
  | unended l =>
    have hl : Settled l := hls l List.mem_cons_self
    by_cases hne : l = []
    · subst hne
      exact .inr rfl
    · left
      rw [lines_of_not_mem hl.noFeed hne, hl.dropReturn_eq]
  | bareReturn l =>
    have hl : Settled l := hls l List.mem_cons_self
    left
    rw [lines_of_not_mem hl.feed_not_mem_append_return (by simp), dropReturn_append_return]
  | @feed l ls s _ ih =>
    obtain ⟨hl, hls⟩ := List.forall_mem_cons.1 hls
    have hcut : lines (l ++ '\n' :: s) = l :: lines s := by
      rw [lines_append_feed hl.noFeed, hl.dropReturn_eq, hl.dropReturn_eq]
    rw [hcut, List.cons_append, List.cons_inj_right, List.cons_inj_right]
    exact ih hls
  | @returnFeed l ls s _ ih =>
    obtain ⟨hl, hls⟩ := List.forall_mem_cons.1 hls
    have hcut : lines (l ++ '\r' :: '\n' :: s) = l :: lines s := by
      rw [List.append_cons, lines_append_feed hl.feed_not_mem_append_return,
        dropReturn_append_return, hl.dropReturn_eq]
    rw [hcut, List.cons_append, List.cons_inj_right, List.cons_inj_right]
    exact ih hls

/-- A text begins as its first line does, or with an ending. -/
theorem Renders.head?_ne {c : Char} {ls : List (List Char)} {s : List Char} (h : Renders ls s)
    (hfeed : c ≠ '\n') (hreturn : c ≠ '\r') (hls : ∀ l, ls.head? = some l → l.head? ≠ some c) :
    s.head? ≠ some c := by
  have hfirst (t : List Char) : ('\n' :: t).head? ≠ some c := by simp [hfeed.symm]
  have hsecond (t : List Char) : ('\r' :: t).head? ≠ some c := by simp [hreturn.symm]
  cases h with
  | nil => simp
  | unended => exact hls _ rfl
  | bareReturn => exact head?_append_ne (hls _ rfl) (hsecond _)
  | feed => exact head?_append_ne (hls _ rfl) (hfirst _)
  | returnFeed => exact head?_append_ne (hls _ rfl) (hsecond _)

end TreeKinds.Text

namespace TreeKinds.Description

open Text

/-! ### Descriptions written down -/

/-- The text writes the lines `ls` down, with a byte order mark before them or without one. -/
inductive Writes (ls : List (List Char)) (text : String) : Prop
  | marked {s : List Char} : text.toList = '\ufeff' :: s → Renders ls s → Writes ls text
  | plain : Renders ls text.toList → Writes ls text

/-- Lines that can be told from a byte order mark and from their endings. -/
structure Writable (ls : List (List Char)) : Prop where
  settled : ∀ l ∈ ls, Settled l
  unmarked : ∀ l, ls.head? = some l → l.head? ≠ some '\ufeff'

theorem Writes.renders {ls : List (List Char)} {text : String} (h : Writes ls text)
    (hls : Writable ls) : Renders ls (dropByteOrderMark text.toList) := by
  obtain ⟨hs, hr⟩ | hr := h
  · rw [hs, dropByteOrderMark_mark]
    exact hr
  · rw [dropByteOrderMark_of_head?_ne (hr.head?_ne (by decide) (by decide) hls.unmarked)]
    exact hr

/-- What is loaded are the lines, whichever text writes them down. -/
theorem Writes.load_eq {ls : List (List Char)} {text : String} (h : Writes ls text)
    (hls : Writable ls) : load text = readLines [] 1 ls := by
  have hvoid : Void [] := ⟨[], [], rfl, by simp, .inl rfl⟩
  rw [load]
  obtain heq | heq := (h.renders hls).lines_eq hls.settled
  · rw [heq]
  · conv_rhs => rw [heq, readLines_append_void hvoid]

/-- All texts that write the same lines down are loaded alike. -/
theorem load_eq_of_writes {ls : List (List Char)} (hls : Writable ls) {text text' : String}
    (h : Writes ls text) (h' : Writes ls text') : load text = load text' :=
  (h.load_eq hls).trans (h'.load_eq hls).symm

/-- A mark, a carriage return inside a literal, an empty line, and an error on the last line. -/
theorem load_eq_of_writes_mixed : ∃ ls text text',
    ls = [['A', ' ', '"', '\r', '"'], [], ['B']] ∧
    text = "\ufeffA \"\r\"\r\n\nB\r" ∧ text' = "A \"\r\"\n\r\nB" ∧
    Writable ls ∧ Writes ls text ∧ Writes ls text' ∧ load text = load text' := by
  have hls : Writable [['A', ' ', '"', '\r', '"'], [], ['B']] := by
    refine ⟨?_, by simp⟩
    simp only [List.forall_mem_cons]
    exact ⟨⟨by decide, by decide⟩, ⟨by decide, by decide⟩, ⟨by decide, by decide⟩, by simp⟩
  have htext : "\ufeffA \"\r\"\r\n\nB\r".toList = '\ufeff' :: (['A', ' ', '"', '\r', '"'] ++
      '\r' :: '\n' :: ([] ++ '\n' :: (['B'] ++ ['\r']))) := by
    decide +kernel
  have htext' : "A \"\r\"\n\r\nB".toList =
      ['A', ' ', '"', '\r', '"'] ++ '\n' :: ([] ++ '\r' :: '\n' :: ['B']) := by
    decide +kernel
  have h : Writes [['A', ' ', '"', '\r', '"'], [], ['B']] "\ufeffA \"\r\"\r\n\nB\r" :=
    .marked htext (.returnFeed (.feed (.bareReturn ['B'])))
  have h' : Writes [['A', ' ', '"', '\r', '"'], [], ['B']] "A \"\r\"\n\r\nB" := by
    refine .plain ?_
    rw [htext']
    exact .feed (.returnFeed (.unended ['B']))
  exact ⟨_, _, _, rfl, rfl, rfl, hls, h, h', load_eq_of_writes hls h h'⟩

end TreeKinds.Description
