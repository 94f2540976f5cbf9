import Mathlib.Tactic.SplitIfs
import TreeKinds.Proofs.Description.Grammar

/-! Why a line outside the grammar is refused. The line is followed from the left, and the first
part that is not what the grammar wants there names the fault. Proved: reading refuses exactly the
lines outside the grammar, each with the fault of its diagnosis. -/
namespace TreeKinds.Description

open Text

/-! ### The diagnosis -/

/-- What a message quotes of `s`: its first word, or all of it when it begins with a blank. -/
inductive Excerpt (s : List Char) : List Char → Prop
  | firstWord {w rest : List Char} : Longest IsWordChar s w rest → w ≠ [] → Excerpt s w
  | whole : Longest IsWordChar s [] s → Excerpt s s

/-- After some text a backslash stands before a character that needs none. -/
inductive BadEscape : List Char → Char → Prop
  | intro {spelling text rest : List Char} {c : Char} : Spells spelling text → c ≠ '"' →
      c ≠ '\\' → BadEscape (spelling ++ '\\' :: c :: rest) c

/-- The line ends before the closing quote, perhaps with a lone backslash. -/
inductive Unclosed : List Char → Prop
  | text {spelling text : List Char} : Spells spelling text → Unclosed spelling
  | backslash {spelling text : List Char} : Spells spelling text → Unclosed (spelling ++ ['\\'])

/-- The fault of a line outside the grammar. -/
inductive Diagnosis (line : List Char) : Fault → Prop
  | invalidName {indent start found : List Char} : Longest IsGapChar line indent start →
      Excerpt start found → ¬Name found → Diagnosis line (.invalidName (String.ofList found))
  | missingFriendlyName {name rest : List Char} : Named line name rest →
      (rest = [] ∨ rest.head? = some '#') →
      Diagnosis line (.missingFriendlyName (String.ofList name))
  | expectedString {name rest found : List Char} {c : Char} : Named line name (c :: rest) →
      c ≠ '#' → c ≠ '"' → Excerpt (c :: rest) found →
      Diagnosis line (.expectedString (String.ofList found))
  | invalidEscape {name s : List Char} {c : Char} : Named line name ('"' :: s) →
      BadEscape s c → Diagnosis line (.invalidEscape c)
  | unterminatedString {name s : List Char} : Named line name ('"' :: s) → Unclosed s →
      Diagnosis line .unterminatedString
  | trailingInput {name spelling text after gap rest : List Char} :
      Named line name ('"' :: (spelling ++ '"' :: after)) → Spells spelling text →
      Longest IsGapChar after gap rest → rest ≠ [] → rest.head? ≠ some '#' →
      Diagnosis line (.trailingInput (String.ofList rest))

/-! ### Excerpts -/

theorem excerpt_iff {s found : List Char} :
    Excerpt s found ↔ (if (word s).isEmpty then s else word s) = found := by
  constructor
  · rintro (⟨hw, hne⟩ | hw)
    · rw [(longest_word_iff.1 hw).1, if_neg (by simpa using hne)]
    · rw [(longest_word_iff.1 hw).1, if_pos List.isEmpty_nil]
  · rintro rfl
    have hl : Longest IsWordChar s (word s) (afterWord s) := longest_word_iff.2 ⟨rfl, rfl⟩
    cases hw : word s with
    | nil =>
      have hs : afterWord s = s := by simpa [hw] using word_append_afterWord s
      rw [hw, hs] at hl
      exact .whole hl
    | cons c w => exact .firstWord (hw ▸ hl) (List.cons_ne_nil c w)

theorem offending_eq {s found : List Char} (h : Excerpt s found) :
    offending s = String.ofList found := by
  rw [offending, excerpt_iff.1 h]

theorem exists_excerpt (s : List Char) : ∃ found, Excerpt s found :=
  ⟨_, excerpt_iff.2 rfl⟩

/-- A quoted beginning is a name only when the first word is. -/
theorem Excerpt.name_iff {s found : List Char} (h : Excerpt s found) :
    Name found ↔ Name (word s) := by
  obtain ⟨hw, -⟩ | hw := h
  · rw [(longest_word_iff.1 hw).1]
  · rw [(longest_word_iff.1 hw).1]
    constructor
    · intro hn
      obtain ⟨c, t, rfl⟩ := List.exists_cons_of_ne_nil hn.ne_nil
      exact absurd (hn.isWordChar c List.mem_cons_self) (hw.stops c rfl)
    · nofun

/-! ### The friendly name -/

theorem readBody_plain {c : Char} (hq : c ≠ '"') (hb : c ≠ '\\') (s : List Char) :
    Literal.readBody (c :: s) =
      (Literal.readBody s).map fun (text, rest) => (c :: text, rest) := by
  simp [Literal.readBody, hq, hb]

theorem readBody_special {c : Char} (h : Literal.isSpecial c = true) (s : List Char) :
    Literal.readBody ('\\' :: c :: s) =
      (Literal.readBody s).map fun (text, rest) => (c :: text, rest) := by
  rw [Literal.readBody, if_pos h]

/-- A spelled text is passed over and comes first in what is read. -/
theorem readBody_append {spelling text : List Char} (h : Spells spelling text) (s : List Char) :
    Literal.readBody (spelling ++ s) =
      (Literal.readBody s).map fun (u, rest) => (text ++ u, rest) := by
  induction h with
  | nil =>
    rw [List.nil_append]
    cases hs : Literal.readBody s <;> rfl
  | plain hq hb _ ih =>
    rw [List.cons_append, readBody_plain hq hb, ih]
    cases Literal.readBody s <;> rfl
  | quote _ ih =>
    rw [List.cons_append, List.cons_append, readBody_special (by decide), ih]
    cases Literal.readBody s <;> rfl
  | backslash _ ih =>
    rw [List.cons_append, List.cons_append, readBody_special (by decide), ih]
    cases Literal.readBody s <;> rfl

/-- What can stop the reading of a friendly name. -/
inductive Stop : List Char → Prop
  | closed (rest : List Char) : Stop ('"' :: rest)
  | badEscape {c : Char} (rest : List Char) : c ≠ '"' → c ≠ '\\' → Stop ('\\' :: c :: rest)
  | nil : Stop []
  | backslash : Stop ['\\']

theorem exists_stop (s : List Char) :
    ∃ spelling text rest, s = spelling ++ rest ∧ Spells spelling text ∧ Stop rest := by
  fun_induction Literal.readBody s with
  | case1 => exact ⟨[], [], [], rfl, .nil, .nil⟩
  | case2 => exact ⟨[], [], _, rfl, .nil, .backslash⟩
  | case3 c s hc ih =>
    obtain ⟨spelling, text, rest, rfl, h, hs⟩ := ih
    rcases Literal.isSpecial_iff.1 hc with rfl | rfl
    · exact ⟨_, _, rest, rfl, .quote h, hs⟩
    · exact ⟨_, _, rest, rfl, .backslash h, hs⟩
  | case4 c s hc =>
    rw [Literal.isSpecial_iff, not_or] at hc
    exact ⟨[], [], _, rfl, .nil, .badEscape s hc.1 hc.2⟩
  | case5 s => exact ⟨[], [], _, rfl, .nil, .closed s⟩
  | case6 c s hend hmore hq ih =>
    have hb : c ≠ '\\' := by
      intro hc
      cases s with
      | nil => exact hend hc rfl
      | cons d s => exact hmore d s hc rfl
    obtain ⟨spelling, text, rest, rfl, h, hs⟩ := ih
    exact ⟨_, _, rest, rfl, .plain hq hb h, hs⟩

theorem readBody_badEscape {c : Char} (hq : c ≠ '"') (hb : c ≠ '\\') (rest : List Char) :
    Literal.readBody ('\\' :: c :: rest) = .error (.badEscape c) := by
  rw [Literal.readBody, if_neg (by simp [Literal.isSpecial, hq, hb])]

/-- The reading of a friendly name fails for two reasons. -/
theorem readBody_eq_error_iff {s : List Char} {e : Literal.Fault} :
    Literal.readBody s = .error e ↔
      (∃ c, BadEscape s c ∧ e = .badEscape c) ∨ (Unclosed s ∧ e = .unterminated) := by
  constructor
  · intro h
    obtain ⟨spelling, text, rest, rfl, hs, hstop⟩ := exists_stop s
    rw [readBody_append hs] at h
    cases hstop with
    | closed rest => cases h
    | badEscape rest hq hb =>
      rw [readBody_badEscape hq hb] at h
      cases h
      exact .inl ⟨_, .intro hs hq hb, rfl⟩
    | nil =>
      cases h
      rw [List.append_nil]
      exact .inr ⟨.text hs, rfl⟩
    | backslash =>
      cases h
      exact .inr ⟨.backslash hs, rfl⟩
  · rintro (⟨c, ⟨hs, hq, hb⟩, rfl⟩ | ⟨hs | hs, rfl⟩)
    · rw [readBody_append hs, readBody_badEscape hq hb]
      rfl
    · have h := readBody_append hs []
      rwa [List.append_nil] at h
    · rw [readBody_append hs]
      rfl

/-! ### Reading refuses by diagnosis -/

theorem isVoid_eq_false_iff {s : List Char} :
    isVoid s = false ↔ skipGap s ≠ [] ∧ (skipGap s).head? ≠ some '#' := by
  rw [← Bool.not_eq_true, isVoid_iff_skipGap, not_or, ← List.head?_eq_some_iff]

theorem readFriendlyName_eq_error {line name s : List Char} {f : Fault}
    (hn : Named line name ('"' :: s))
    (h : Declaration.readFriendlyName name ('"' :: s) = .error f) : Diagnosis line f := by
  cases hr : Literal.readBody s with
  | error e =>
    simp only [Declaration.readFriendlyName, Literal.read_cons_quote, hr] at h
    cases h
    obtain ⟨c, hc, rfl⟩ | ⟨hu, rfl⟩ := readBody_eq_error_iff.1 hr
    · exact .invalidEscape hn hc
    · exact .unterminatedString hn hu
  | ok r =>
    obtain ⟨text, after⟩ := r
    obtain ⟨spelling, rfl, hs⟩ := readBody_eq_ok_iff.1 hr
    simp only [Declaration.readFriendlyName, Literal.read_cons_quote, hr] at h
    split at h
    next => cases h
    next hv =>
      cases h
      obtain ⟨hne, hhash⟩ := isVoid_eq_false_iff.1 (Bool.not_eq_true _ ▸ hv)
      exact .trailingInput hn hs (longest_gap_iff.2 ⟨rfl, rfl⟩) hne hhash

theorem readAfterName_eq_error {line name s : List Char} {f : Fault} (hn : Named line name s)
    (h : Declaration.readAfterName name s = .error f) : Diagnosis line f := by
  cases s with
  | nil =>
    cases h
    exact .missingFriendlyName hn (.inl rfl)
  | cons c s =>
    rw [Declaration.readAfterName] at h
    split_ifs at h with hh hq
    · cases h
      exact .missingFriendlyName hn (.inr (by rw [hh]; rfl))
    · subst hq
      exact readFriendlyName_eq_error hn h
    · obtain ⟨found, hf⟩ := exists_excerpt (c :: s)
      rw [offending_eq hf] at h
      cases h
      exact .expectedString hn hh hq hf

theorem diagnosis_of_read {line : List Char} {f : Fault}
    (h : Declaration.read line = .error f) : Diagnosis line f := by
  by_cases hn : Name (word (skipGap line))
  · have hn := named_iff.2 ⟨rfl, hn, rfl⟩
    rw [hn.read_eq] at h
    cases hr : Declaration.readAfterName (word (skipGap line))
        (skipGap (afterWord (skipGap line))) with
    | ok d => simp [hr, Except.map] at h
    | error e =>
      simp only [hr, Except.map, Except.error.injEq] at h
      subst h
      exact readAfterName_eq_error hn hr
  · obtain ⟨found, hf⟩ := exists_excerpt (skipGap line)
    rw [Declaration.read] at h
    split at h
    · cases h
    · simp only [isName_iff, hn, if_false, offending_eq hf] at h
      cases h
      exact .invalidName (longest_gap_iff.2 ⟨rfl, rfl⟩) hf (by rwa [hf.name_iff])

theorem read_of_diagnosis {line : List Char} {f : Fault} (hl : ¬WellFormed line)
    (h : Diagnosis line f) : Declaration.read line = .error f := by
  cases h with
  | invalidName hi hf hn =>
    have hv : isVoid line ≠ true := fun hv => hl (.inl (isVoid_iff.1 hv))
    rw [hf.name_iff, ← isName_iff] at hn
    rw [Declaration.read, if_neg hv, (longest_gap_iff.1 hi).2]
    simp only [if_neg hn, offending_eq hf]
  | missingFriendlyName hn hs =>
    rw [hn.read_eq]
    obtain rfl | hs := hs
    · rfl
    · obtain ⟨t, rfl⟩ := List.head?_eq_some_iff.1 hs
      rfl
  | expectedString hn hh hq hf =>
    rw [hn.read_eq, Declaration.readAfterName, if_neg hh, if_neg hq, offending_eq hf]
    rfl
  | invalidEscape hn hs =>
    rw [hn.read_eq, Declaration.readAfterName, if_neg (by decide), if_pos rfl,
      Declaration.readFriendlyName, Literal.read_cons_quote,
      readBody_eq_error_iff.2 (.inl ⟨_, hs, rfl⟩)]
    rfl
  | unterminatedString hn hs =>
    rw [hn.read_eq, Declaration.readAfterName, if_neg (by decide), if_pos rfl,
      Declaration.readFriendlyName, Literal.read_cons_quote,
      readBody_eq_error_iff.2 (.inr ⟨hs, rfl⟩)]
    rfl
  | trailingInput hn hs hg hne hhash =>
    have hskip := (longest_gap_iff.1 hg).2
    have hv := isVoid_eq_false_iff.2 (by rw [hskip]; exact ⟨hne, hhash⟩)
    rw [hn.read_eq, Declaration.readAfterName, if_neg (by decide), if_pos rfl,
      Declaration.readFriendlyName, Literal.read_cons_quote, readBody_eq_ok_iff.2 ⟨_, rfl, hs⟩]
    simp only [hv, hskip, Bool.false_eq_true, if_false]
    rfl

/-- Exactly the lines outside the grammar are refused, each for the fault of its diagnosis. -/
theorem read_eq_error_iff {line : List Char} {f : Fault} :
    Declaration.read line = .error f ↔ ¬WellFormed line ∧ Diagnosis line f := by
  constructor
  · intro h
    refine ⟨fun hl => ?_, diagnosis_of_read h⟩
    obtain ⟨d, hd⟩ := wellFormed_iff.1 hl
    rw [h] at hd
    cases hd
  · rintro ⟨hl, h⟩
    exact read_of_diagnosis hl h

end TreeKinds.Description
