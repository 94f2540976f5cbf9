import TreeKinds.Text.Lines

/-! Longest runs of characters at the beginning of a text: gaps, and words that a character with the
White_Space property ends. -/
namespace TreeKinds.Text

/-- `run` is the longest beginning of `s` whose characters have `p`, and `rest` follows it. -/
structure Longest (p : Char → Prop) (s run rest : List Char) : Prop where
  eq_append : s = run ++ rest
  all : ∀ c ∈ run, p c
  stops : ∀ c, rest.head? = some c → ¬p c

theorem longest_takeWhile (p : Char → Bool) (s : List Char) :
    Longest (p · = true) s (s.takeWhile p) (s.dropWhile p) where
  eq_append := List.takeWhile_append_dropWhile.symm
  all := List.all_eq_true.1 List.all_takeWhile
  stops c hc := by
    have h := List.head?_dropWhile_not p s
    rw [hc] at h
    simpa using h

theorem takeWhile_of_longest {p : Char → Bool} {s run rest : List Char}
    (h : Longest (p · = true) s run rest) : s.takeWhile p = run ∧ s.dropWhile p = rest := by
  obtain ⟨rfl, hall, hstop⟩ := h
  have hrest : rest.takeWhile p = [] ∧ rest.dropWhile p = rest := by
    cases rest with
    | nil => exact ⟨rfl, rfl⟩
    | cons c rest => simp [hstop c rfl]
  rw [List.takeWhile_append_of_pos hall, List.dropWhile_append_of_pos hall, hrest.1, hrest.2]
  simp

theorem longest_iff {p : Char → Bool} {s run rest : List Char} :
    Longest (p · = true) s run rest ↔ s.takeWhile p = run ∧ s.dropWhile p = rest := by
  constructor
  · exact takeWhile_of_longest
  · rintro ⟨rfl, rfl⟩
    exact longest_takeWhile p s

/-- A run ends where characters of another sort follow it. -/
theorem longest_append {p : Char → Prop} {run next : List Char} (rest : List Char)
    (hrun : ∀ c ∈ run, p c) (hne : next ≠ []) (hnext : ∀ c ∈ next, ¬p c) :
    Longest p (run ++ (next ++ rest)) run (next ++ rest) := by
  refine ⟨rfl, hrun, fun c hc => ?_⟩
  obtain ⟨d, next, rfl⟩ := List.exists_cons_of_ne_nil hne
  obtain rfl : d = c := by simpa using hc
  exact hnext d List.mem_cons_self

/-! ### Up to a character -/

theorem longest_ne_iff {stop : Char} {s run rest : List Char} :
    Longest (· ≠ stop) s run rest ↔
      s.takeWhile (· != stop) = run ∧ s.dropWhile (· != stop) = rest := by
  rw [show (· ≠ stop) = ((· != stop) · = true) from funext fun c => by simp]
  exact longest_iff

theorem longest_before {stop : Char} {before : List Char} (h : stop ∉ before)
    (after : List Char) : Longest (· ≠ stop) (before ++ stop :: after) before (stop :: after) where
  eq_append := rfl
  all := by
    rintro c hc rfl
    exact h hc
  stops := by
    rintro c ⟨⟩ hne
    exact hne rfl

/-- A text is cut in one way at the first of some character. -/
theorem append_cons_inj {stop : Char} {u v s t : List Char} (hu : stop ∉ u) (hv : stop ∉ v)
    (h : u ++ stop :: s = v ++ stop :: t) : u = v ∧ s = t := by
  obtain ⟨hrun, hrest⟩ := longest_ne_iff.1 (longest_before hu s)
  obtain ⟨hrun', hrest'⟩ := longest_ne_iff.1 (longest_before hv t)
  rw [h] at hrun hrest
  exact ⟨hrun.symm.trans hrun', (List.cons.inj (hrest.symm.trans hrest')).2⟩

/-- A text is cut in one way at the last of some character. -/
theorem append_cons_inj_right {stop : Char} {u v s t : List Char} (hs : stop ∉ s) (ht : stop ∉ t)
    (h : u ++ stop :: s = v ++ stop :: t) : u = v ∧ s = t := by
  have hrev : s.reverse ++ stop :: u.reverse = t.reverse ++ stop :: v.reverse := by
    simpa using congrArg List.reverse h
  obtain ⟨hst, huv⟩ := append_cons_inj (by simpa using hs) (by simpa using ht) hrev
  exact ⟨List.reverse_inj.1 huv, List.reverse_inj.1 hst⟩

/-! ### Gaps -/

def IsGapChar (c : Char) : Prop := c = ' ' ∨ c = '\t'

theorem isGap_iff {c : Char} : isGap c = true ↔ IsGapChar c := by
  simp [isGap, IsGapChar]

theorem longest_gap_iff {s gap rest : List Char} :
    Longest IsGapChar s gap rest ↔ s.takeWhile isGap = gap ∧ skipGap s = rest := by
  rw [show IsGapChar = (isGap · = true) from funext fun c => propext isGap_iff.symm]
  exact longest_iff

theorem skipGap_append {gap rest : List Char} (hg : ∀ c ∈ gap, IsGapChar c)
    (hr : ∀ c, rest.head? = some c → ¬IsGapChar c) : skipGap (gap ++ rest) = rest :=
  (longest_gap_iff.1 ⟨rfl, hg, hr⟩).2

/-! ### Words -/

/-- A character without the White_Space property. -/
def IsWordChar (c : Char) : Prop := isBlank c = false

theorem longest_word_iff {s w rest : List Char} :
    Longest IsWordChar s w rest ↔ word s = w ∧ afterWord s = rest := by
  rw [show IsWordChar = ((!isBlank ·) · = true) from funext fun c => by simp [IsWordChar]]
  exact longest_iff

theorem not_isWordChar_of_isGapChar {c : Char} (h : IsGapChar c) : ¬IsWordChar c := by
  have hb : isBlank c = true := isBlank_of_isGap (isGap_iff.2 h)
  simp [IsWordChar, hb]

end TreeKinds.Text
