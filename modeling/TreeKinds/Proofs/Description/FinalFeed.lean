import TreeKinds.Proofs.Description.Acceptance

/-! Line feeds at the end of a description. A line that a line feed ends loses up to two carriage
returns, and the last line of a text without one loses a single one. Proved: a final line feed takes
one of two final carriage returns away, and apart from this it changes nothing. -/
namespace TreeKinds.Text

/-! ### The lines -/

/-- A text that ends in two carriage returns, without the last of them; others as they are. -/
def dropSpareReturn (s : List Char) : List Char := if ['\r', '\r'] <:+ s then s.dropLast else s

theorem returns_suffix_iff {c : Char} (hc : c ≠ '\r') (p s : List Char) :
    ['\r', '\r'] <:+ p ++ c :: s ↔ ['\r', '\r'] <:+ s := by
  constructor
  · intro h
    obtain hs | hs := List.suffix_or_suffix_of_suffix h (List.suffix_append p (c :: s))
    · obtain heq | hs := List.suffix_cons_iff.1 hs
      · cases heq
        exact absurd rfl hc
      · exact hs
    · have hmem : c ∈ ['\r', '\r'] := hs.subset List.mem_cons_self
      simp [hc] at hmem
  · intro h
    exact h.trans ((List.suffix_cons c s).trans (List.suffix_append p _))

/-- What comes before a character other than a carriage return does not matter. -/
theorem dropSpareReturn_append {c : Char} (hc : c ≠ '\r') (p s : List Char) :
    dropSpareReturn (p ++ c :: s) = p ++ c :: dropSpareReturn s := by
  by_cases h : ['\r', '\r'] <:+ s
  · have hs : s ≠ [] := by
      rintro rfl
      exact absurd (List.suffix_nil.1 h) (List.cons_ne_nil _ _)
    rw [dropSpareReturn, dropSpareReturn, if_pos h, if_pos ((returns_suffix_iff hc p s).2 h),
      List.dropLast_append_of_ne_nil (List.cons_ne_nil c s), List.dropLast_cons_of_ne_nil hs]
  · rw [dropSpareReturn, dropSpareReturn, if_neg h,
      if_neg fun h' => h ((returns_suffix_iff hc p s).1 h')]

theorem dropSpareReturn_ne_nil {s : List Char} (h : s ≠ []) : dropSpareReturn s ≠ [] := by
  rw [dropSpareReturn]
  split
  next hs =>
    obtain ⟨p, rfl⟩ := hs
    simp
  next => exact h

theorem dropSpareReturn_begins (s : List Char) : dropSpareReturn s <+: s := by
  rw [dropSpareReturn]
  split
  · exact List.dropLast_prefix s
  · exact List.prefix_rfl

theorem dropReturn_dropReturn (s : List Char) :
    dropReturn (dropReturn s) = dropReturn (dropSpareReturn s) := by
  by_cases h : ['\r', '\r'] <:+ s
  · obtain ⟨p, rfl⟩ := h
    have hp : p ++ ['\r', '\r'] = p ++ ['\r'] ++ ['\r'] := by simp
    rw [dropSpareReturn, if_pos (List.suffix_append p _), hp, dropReturn_append_return,
      List.dropLast_concat]
  · rw [dropSpareReturn, if_neg h]
    refine dropReturn_of_getLast?_ne fun hlast => h ?_
    by_cases hs : s.getLast? = some '\r'
    · obtain ⟨q, rfl⟩ := List.getLast?_eq_some_iff.1 hs
      rw [dropReturn_append_return] at hlast
      obtain ⟨p, rfl⟩ := List.getLast?_eq_some_iff.1 hlast
      exact ⟨p, by simp⟩
    · rw [dropReturn_of_getLast?_ne hs] at hlast
      exact absurd hlast hs

/-- A final line feed ends the last line, or an empty one after all the others. -/
theorem lines_append_final_feed (s : List Char) :
    lines (s ++ ['\n']) = lines (dropSpareReturn s) ∨
      lines (s ++ ['\n']) = lines (dropSpareReturn s) ++ [[]] := by
  have h : LinesOf s (lines s) := linesOf_lines s
  generalize lines s = ls at h
  -- line by line, so that only the last piece meets the line feed
  induction h with
  | nil => exact .inr rfl
  | @last piece l hp hf _ =>
    left
    have hf' : '\n' ∉ dropSpareReturn piece := fun h => hf ((dropSpareReturn_begins piece).subset h)
    rw [lines_append_feed hf [], dropReturn_dropReturn,
      lines_of_not_mem hf' (dropSpareReturn_ne_nil hp)]
    rfl
  | @line piece l s ls hf _ _ ih =>
    rw [dropSpareReturn_append (by decide), List.append_assoc, List.cons_append,
      lines_append_feed hf, lines_append_feed hf]
    obtain ih | ih := ih
    · exact .inl (by rw [ih])
    · exact .inr (by rw [ih, List.cons_append])

end TreeKinds.Text

namespace TreeKinds.Description

open Text

/-! ### The registry -/

theorem dropByteOrderMark_append_feed (s : List Char) :
    dropByteOrderMark (s ++ ['\n']) = dropByteOrderMark s ++ ['\n'] := by
  cases s with
  | nil => rfl
  | cons c s =>
    rw [List.cons_append, dropByteOrderMark, dropByteOrderMark]
    split <;> rfl

theorem dropByteOrderMark_dropSpareReturn (s : List Char) :
    dropByteOrderMark (dropSpareReturn s) = dropSpareReturn (dropByteOrderMark s) := by
  by_cases h : s.head? = some byteOrderMark
  · obtain ⟨s, rfl⟩ := List.head?_eq_some_iff.1 h
    have hmark : dropSpareReturn (byteOrderMark :: s) = byteOrderMark :: dropSpareReturn s :=
      dropSpareReturn_append (by decide) [] s
    rw [hmark, dropByteOrderMark, dropByteOrderMark, if_pos rfl, if_pos rfl]
  · have h' : (dropSpareReturn s).head? ≠ some byteOrderMark := by
      intro hs
      obtain ⟨t, ht⟩ := dropSpareReturn_begins s
      rw [← ht, List.head?_append, hs] at h
      exact h rfl
    rw [dropByteOrderMark_of_head?_ne h, dropByteOrderMark_of_head?_ne h']

theorem readLines_append_void {known : Registry} {n : Nat} {l : List Char} (h : Void l)
    (ls : List (List Char)) : readLines known n (ls ++ [l]) = readLines known n ls := by
  induction ls generalizing known n with
  | nil => exact readLines_void h []
  | cons l' ls ih =>
    rw [List.cons_append, readLines, readLines]
    split
    · rfl
    · exact ih
    · split
      · rfl
      · exact ih

/-- A final line feed takes one of two final carriage returns away, and changes nothing else. -/
theorem load_append_feed (text : String) :
    load (text ++ "\n") = load (String.ofList (dropSpareReturn text.toList)) := by
  have hvoid : Void [] := ⟨[], [], rfl, by simp, .inl rfl⟩
  have hfeed : "\n".toList = ['\n'] := rfl
  rw [load, load, String.toList_append, hfeed, String.toList_ofList,
    dropByteOrderMark_append_feed, dropByteOrderMark_dropSpareReturn]
  obtain h | h := lines_append_final_feed (dropByteOrderMark text.toList)
  · rw [h]
  · rw [h, readLines_append_void hvoid]

/-- Two final carriage returns are refused, unless a line feed follows. -/
theorem load_two_returns :
    load "A \"a\"\r\r" = .error ⟨1, .trailingInput "\r"⟩ ∧
      load ("A \"a\"\r\r" ++ "\n") = .ok [⟨"A", "a", 1⟩] ∧
      load ("A \"a\"\r\r" ++ "\n") ≠ load "A \"a\"\r\r" := by
  decide +kernel

end TreeKinds.Description
