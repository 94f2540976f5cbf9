import TreeKinds.Description.Declaration
import TreeKinds.Proofs.Text.Runs

/-! The grammar of one line of a description: a gap and an optional comment, or before these a name
and a quoted friendly name with a gap between them. Proved: a line is read as empty or as a
declaration exactly when the grammar derives it as such. -/
namespace TreeKinds.Description

open Text

/-! ### The grammar -/

/-- A gap and an optional comment. -/
def Void (s : List Char) : Prop :=
  ∃ gap comment, s = gap ++ comment ∧ (∀ c ∈ gap, IsGapChar c) ∧
    (comment = [] ∨ ∃ t, comment = '#' :: t)

def NameStart (c : Char) : Prop := 'A' ≤ c ∧ c ≤ 'Z' ∨ 'a' ≤ c ∧ c ≤ 'z' ∨ c = '_'

def NameRest (c : Char) : Prop := NameStart c ∨ '0' ≤ c ∧ c ≤ '9'

inductive Name : List Char → Prop
  | cons {c : Char} {s : List Char} : NameStart c → (∀ d ∈ s, NameRest d) → Name (c :: s)

/-- What stands between the quotes of a friendly name, and the text that it spells. -/
inductive Spells : List Char → List Char → Prop
  | nil : Spells [] []
  | plain {c : Char} {s t : List Char} : c ≠ '"' → c ≠ '\\' → Spells s t →
      Spells (c :: s) (c :: t)
  | quote {s t : List Char} : Spells s t → Spells ('\\' :: '"' :: s) ('"' :: t)
  | backslash {s t : List Char} : Spells s t → Spells ('\\' :: '\\' :: s) ('\\' :: t)

/-- The line declares a name; the literal is its friendly name as it is written, with the quotes. -/
inductive Declares : (line name literal friendlyName : List Char) → Prop
  | intro {indent name gap spelling friendlyName rest : List Char} :
      (∀ c ∈ indent, IsGapChar c) → Name name → (∀ c ∈ gap, IsGapChar c) → gap ≠ [] →
      Spells spelling friendlyName → Void rest →
      Declares (indent ++ name ++ gap ++ ('"' :: (spelling ++ ['"'])) ++ rest) name
        ('"' :: (spelling ++ ['"'])) friendlyName

/-- A line of the grammar. -/
def WellFormed (line : List Char) : Prop :=
  Void line ∨ ∃ name literal friendlyName, Declares line name literal friendlyName

/-! ### Names -/

theorem isUpper_iff {c : Char} : c.isUpper = true ↔ 'A' ≤ c ∧ c ≤ 'Z' := by
  show decide ('A' ≤ c ∧ c ≤ 'Z') = true ↔ _
  exact decide_eq_true_iff

theorem isLower_iff {c : Char} : c.isLower = true ↔ 'a' ≤ c ∧ c ≤ 'z' := by
  show (decide ('a' ≤ c) && decide (c ≤ 'z')) = true ↔ _
  rw [Bool.and_eq_true, decide_eq_true_iff, decide_eq_true_iff]

theorem isNameStart_iff {c : Char} : isNameStart c = true ↔ NameStart c := by
  show (c.isUpper || c.isLower || c == '_') = true ↔ _
  rw [Bool.or_eq_true, Bool.or_eq_true, isUpper_iff, isLower_iff, beq_iff_eq, NameStart, or_assoc]

theorem isNameRest_iff {c : Char} : isNameRest c = true ↔ NameRest c := by
  rw [NameRest, ← isNameStart_iff]
  simp [isNameRest, isNameStart, Char.isAlphanum, Char.isDigit, Char.le_def, or_right_comm]

theorem isName_iff {s : List Char} : isName s = true ↔ Name s := by
  cases s with
  | nil => simp only [isName, Bool.false_eq_true, false_iff]; nofun
  | cons c s =>
    simp only [isName, Bool.and_eq_true, isNameStart_iff, List.all_eq_true, isNameRest_iff]
    constructor
    · rintro ⟨hc, hs⟩
      exact .cons hc hs
    · rintro ⟨hc, hs⟩
      exact ⟨hc, hs⟩

/-- The characters of a name end no word. -/
theorem isWordChar_of_nameRest {c : Char} (h : NameRest c) : IsWordChar c := by
  rw [IsWordChar, Bool.eq_false_iff]
  intro hb
  simp only [isBlank, Bool.or_eq_true, Bool.and_eq_true, decide_eq_true_eq, beq_iff_eq, NameRest,
    NameStart, Char.le_def, UInt32.le_iff_toNat_le, ← Char.toNat_inj, Char.toNat_val,
    Char.reduceToNat] at hb h
  omega

theorem Name.isWordChar {s : List Char} (h : Name s) : ∀ c ∈ s, IsWordChar c := by
  cases h with
  | cons hc hs =>
    refine List.forall_mem_cons.2 ⟨isWordChar_of_nameRest (.inl hc), fun d hd => ?_⟩
    exact isWordChar_of_nameRest (hs d hd)

theorem Name.not_mem {s : List Char} (h : Name s) {c : Char} (hc : ¬NameRest c) : c ∉ s := by
  cases h with
  | cons hs hr =>
    rw [List.mem_cons]
    rintro (rfl | hm)
    · exact hc (.inl hs)
    · exact hc (hr _ hm)

theorem Name.ne_nil {s : List Char} (h : Name s) : s ≠ [] := by
  cases h
  exact List.cons_ne_nil _ _

theorem Name.not_hash {s t : List Char} (h : Name s) (u : List Char) : s ++ t ≠ '#' :: u := by
  cases h with
  | cons hc hs =>
    intro e
    obtain rfl := (List.cons.inj e).1
    exact absurd hc (by unfold NameStart; decide)

/-! ### Empty lines and endings -/

theorem isVoid_iff_skipGap {s : List Char} :
    isVoid s = true ↔ skipGap s = [] ∨ ∃ t, skipGap s = '#' :: t := by
  cases h : skipGap s with
  | nil => simp [isVoid, h]
  | cons c t => simp [isVoid, h]

theorem isVoid_iff {s : List Char} : isVoid s = true ↔ Void s := by
  rw [isVoid_iff_skipGap]
  constructor
  · intro h
    have hl : Longest IsGapChar s (s.takeWhile isGap) (skipGap s) := longest_gap_iff.2 ⟨rfl, rfl⟩
    exact ⟨_, _, hl.eq_append, hl.all, h⟩
  · rintro ⟨gap, comment, rfl, hg, hc⟩
    rwa [skipGap_append hg]
    rintro c hhead
    rcases hc with rfl | ⟨t, rfl⟩
    · cases hhead
    · cases hhead
      unfold IsGapChar
      decide

/-! ### Friendly names -/

theorem spells_escape (t : List Char) : Spells (Literal.escape t) t := by
  induction t with
  | nil => exact .nil
  | cons c t ih =>
    rw [Literal.escape_cons, Literal.escapeChar]
    by_cases hq : c = '"'
    · subst hq
      exact .quote ih
    by_cases hb : c = '\\'
    · subst hb
      exact .backslash ih
    rw [if_neg (by simp [Literal.isSpecial, hq, hb])]
    exact .plain hq hb ih

/-- Every text has one spelling. -/
theorem spells_iff {s t : List Char} : Spells s t ↔ s = Literal.escape t := by
  constructor
  · intro h
    induction h with
    | nil => rfl
    | plain hq hb _ ih =>
      rw [Literal.escape_cons, Literal.escapeChar, if_neg (by simp [Literal.isSpecial, hq, hb]), ih]
      rfl
    | quote _ ih => rw [ih]; rfl
    | backslash _ ih => rw [ih]; rfl
  · rintro rfl
    exact spells_escape t

theorem readBody_eq_ok_iff {s t rest : List Char} :
    Literal.readBody s = .ok (t, rest) ↔ ∃ spelling, s = spelling ++ '"' :: rest ∧
      Spells spelling t := by
  constructor
  · intro h
    exact ⟨_, Literal.eq_escape_of_readBody h, spells_escape t⟩
  · rintro ⟨spelling, rfl, h⟩
    rw [spells_iff.1 h]
    exact Literal.readBody_escape t rest

/-! ### Reading -/

/-- The first word of the line is a name, and `rest` stands after the gap that follows it. -/
inductive Named (line name rest : List Char) : Prop
  | intro {indent start gap after : List Char} : Longest IsGapChar line indent start →
      Longest IsWordChar start name after → Name name → Longest IsGapChar after gap rest →
      Named line name rest

theorem named_iff {line name rest : List Char} : Named line name rest ↔
    word (skipGap line) = name ∧ Name name ∧ skipGap (afterWord (skipGap line)) = rest := by
  constructor
  · rintro ⟨hi, hw, hn, hg⟩
    rw [(longest_gap_iff.1 hi).2, (longest_word_iff.1 hw).1, (longest_word_iff.1 hw).2,
      (longest_gap_iff.1 hg).2]
    exact ⟨rfl, hn, rfl⟩
  · rintro ⟨rfl, hn, rfl⟩
    exact ⟨longest_gap_iff.2 ⟨rfl, rfl⟩, longest_word_iff.2 ⟨rfl, rfl⟩, hn,
      longest_gap_iff.2 ⟨rfl, rfl⟩⟩

theorem Named.isVoid_eq_false {line name rest : List Char} (h : Named line name rest) :
    isVoid line = false := by
  obtain ⟨rfl, hn, -⟩ := named_iff.1 h
  rw [Bool.eq_false_iff]
  intro hv
  rcases isVoid_iff_skipGap.1 hv with hs | ⟨t, hs⟩
  · exact hn.ne_nil (by rw [hs]; rfl)
  · exact hn.not_hash t ((word_append_afterWord _).trans hs)

theorem Named.read_eq {line name rest : List Char} (h : Named line name rest) :
    Declaration.read line = (Declaration.readAfterName name rest).map some := by
  have hv := h.isVoid_eq_false
  obtain ⟨rfl, hn, rfl⟩ := named_iff.1 h
  simp only [Declaration.read, hv, isName_iff.2 hn, if_true, Bool.false_eq_true, if_false]

theorem readFriendlyName_eq_ok_iff {name s : List Char} {d : Declaration} :
    Declaration.readFriendlyName name ('"' :: s) = .ok d ↔ ∃ spelling friendlyName rest,
      s = spelling ++ '"' :: rest ∧ Spells spelling friendlyName ∧ Void rest ∧
      d = ⟨String.ofList name, String.ofList friendlyName⟩ := by
  constructor
  · intro h
    cases hr : Literal.readBody s with
    | error e => simp [Declaration.readFriendlyName, Literal.read_cons_quote, hr] at h
    | ok r =>
      obtain ⟨friendlyName, rest⟩ := r
      simp only [Declaration.readFriendlyName, Literal.read_cons_quote, hr] at h
      split at h
      next hv =>
        obtain ⟨spelling, hs, hf⟩ := readBody_eq_ok_iff.1 hr
        exact ⟨spelling, friendlyName, rest, hs, hf, isVoid_iff.1 hv, (Except.ok.inj h).symm⟩
      next => cases h
  · rintro ⟨spelling, friendlyName, rest, hs, hf, hv, rfl⟩
    simp [Declaration.readFriendlyName, Literal.read_cons_quote,
      readBody_eq_ok_iff.2 ⟨spelling, hs, hf⟩, isVoid_iff.2 hv]

theorem readAfterName_eq_ok_iff {name s : List Char} {d : Declaration} :
    Declaration.readAfterName name s = .ok d ↔
      ∃ t, s = '"' :: t ∧ Declaration.readFriendlyName name ('"' :: t) = .ok d := by
  cases s with
  | nil => simp [Declaration.readAfterName]
  | cons c t =>
    simp only [Declaration.readAfterName, List.cons.injEq]
    by_cases hh : c = '#'
    · simp [hh]
    by_cases hq : c = '"'
    · simp [hq]
    · simp [hh, hq]

/-- The first word of a declaration is its name, and the friendly name follows the gap after it. -/
theorem declares_iff {line name literal friendlyName : List Char} :
    Declares line name literal friendlyName ↔ ∃ spelling rest,
      Named line name ('"' :: (spelling ++ '"' :: rest)) ∧ literal = '"' :: (spelling ++ ['"']) ∧
      Spells spelling friendlyName ∧ Void rest := by
  constructor
  · rintro ⟨hi, hn, hg, hne, hf, hv⟩
    rename_i indent gap spelling rest
    have hline : indent ++ name ++ gap ++ ('"' :: (spelling ++ ['"'])) ++ rest =
        indent ++ (name ++ (gap ++ '"' :: (spelling ++ '"' :: rest))) := by
      simp only [List.append_assoc, List.cons_append, List.nil_append]
    rw [hline]
    have hstart : ∀ c ∈ name, ¬IsGapChar c := fun c hc hgap =>
      not_isWordChar_of_isGapChar hgap (hn.isWordChar c hc)
    have hafter : ∀ c ∈ gap, ¬IsWordChar c := fun c hc =>
      not_isWordChar_of_isGapChar (hg c hc)
    refine ⟨spelling, rest, .intro (longest_append _ hi hn.ne_nil hstart)
      (longest_append _ hn.isWordChar hne hafter) hn ⟨rfl, hg, ?_⟩, rfl, hf, hv⟩
    rintro c ⟨⟩
    unfold IsGapChar
    decide
  · rintro ⟨spelling, rest, ⟨hi, hw, hn, hg⟩, rfl, hf, hv⟩
    rename_i indent start gap after
    have hne : gap ≠ [] := by
      -- without a gap the word would go on with the quote
      rintro rfl
      exact hw.stops '"' (by rw [hg.eq_append]; rfl) rfl
    have hline : line = indent ++ name ++ gap ++ ('"' :: (spelling ++ ['"'])) ++ rest := by
      rw [hi.eq_append, hw.eq_append, hg.eq_append]
      simp only [List.append_assoc, List.cons_append, List.nil_append]
    rw [hline]
    exact .intro hi.all hn hg.all hne hf hv

/-! ### Reading accepts the grammar -/

theorem read_eq_ok_none_iff {line : List Char} : Declaration.read line = .ok none ↔ Void line := by
  rw [← isVoid_iff, Declaration.read]
  cases hv : isVoid line with
  | true => simp
  | false =>
    simp only [Bool.false_eq_true, if_false, iff_false]
    split
    · cases Declaration.readAfterName _ _ <;> simp [Except.map]
    · simp

/-- A declaration is read only behind a name. -/
theorem named_of_read_eq_ok_some {line : List Char} {d : Declaration}
    (h : Declaration.read line = .ok (some d)) : ∃ name rest, Named line name rest ∧
      Declaration.readAfterName name rest = .ok d := by
  rw [Declaration.read] at h
  split at h
  · cases h
  · dsimp only at h
    split at h
    next hn =>
      refine ⟨_, _, named_iff.2 ⟨rfl, isName_iff.1 hn, rfl⟩, ?_⟩
      cases hr : Declaration.readAfterName (word (skipGap line))
          (skipGap (afterWord (skipGap line))) with
      | error e => simp [hr, Except.map] at h
      | ok d' =>
        simp only [hr, Except.map, Except.ok.injEq, Option.some.injEq] at h
        rw [h]
    next => cases h

theorem read_eq_ok_some_iff {line : List Char} {d : Declaration} :
    Declaration.read line = .ok (some d) ↔ ∃ name literal friendlyName,
      Declares line name literal friendlyName ∧
      d = ⟨String.ofList name, String.ofList friendlyName⟩ := by
  constructor
  · intro h
    obtain ⟨name, s, hn, hr⟩ := named_of_read_eq_ok_some h
    obtain ⟨t, rfl, hr⟩ := readAfterName_eq_ok_iff.1 hr
    obtain ⟨spelling, friendlyName, rest, rfl, hf, hv, hd⟩ := readFriendlyName_eq_ok_iff.1 hr
    exact ⟨_, _, _, declares_iff.2 ⟨spelling, rest, hn, rfl, hf, hv⟩, hd⟩
  · rintro ⟨name, literal, friendlyName, h, rfl⟩
    obtain ⟨spelling, rest, hn, -, hf, hv⟩ := declares_iff.1 h
    rw [hn.read_eq, readAfterName_eq_ok_iff.2
      ⟨_, rfl, readFriendlyName_eq_ok_iff.2 ⟨_, _, _, rfl, hf, hv, rfl⟩⟩]
    rfl

/-- Reading accepts the lines of the grammar and no others. -/
theorem wellFormed_iff {line : List Char} :
    WellFormed line ↔ ∃ d, Declaration.read line = .ok d := by
  constructor
  · rintro (hv | ⟨name, literal, friendlyName, h⟩)
    · exact ⟨none, read_eq_ok_none_iff.2 hv⟩
    · exact ⟨_, read_eq_ok_some_iff.2 ⟨name, literal, friendlyName, h, rfl⟩⟩
  · rintro ⟨d, h⟩
    cases d with
    | none => exact .inl (read_eq_ok_none_iff.1 h)
    | some d =>
      obtain ⟨name, literal, friendlyName, hd, -⟩ := read_eq_ok_some_iff.1 h
      exact .inr ⟨name, literal, friendlyName, hd⟩

end TreeKinds.Description
