import TreeKinds.Literal

/-! Spelling with and without the shortcut. A text in which nothing is special is left as it is, any
other is written anew, character by character. Proved: the shortcut is taken where it makes no
difference and nowhere else, so that spellings grow by the special characters alone and those of two
texts can be put together. -/
namespace TreeKinds.Literal

/-! ### Writing character by character -/

/-- Writes a character behind what is written already. -/
def put (written : String) (c : Char) : String :=
  (if c = '"' ∨ c = '\\' then written.push '\\' else written).push c

/-- A text written character by character, whether or not anything in it is special. -/
def writeOut (text : String) : String := text.foldl put ""

theorem toList_put (written : String) (c : Char) :
    (put written c).toList = written.toList ++ escapeChar c := by
  by_cases h : c = '"' ∨ c = '\\' <;> simp [put, escapeChar, isSpecial_iff, h]

theorem toList_foldl_put (written : String) (s : List Char) :
    (s.foldl put written).toList = written.toList ++ escape s := by
  induction s generalizing written with
  | nil => simp
  | cons c s ih => rw [List.foldl_cons, ih, toList_put, escape_cons, List.append_assoc]

theorem spell_text_eq_writeOut (text : String) : (spell text).text = writeOut text := by
  rw [← String.toList_inj, spell_text, writeOut, String.foldl_eq_foldl_toList, toList_foldl_put]
  rfl

/-! ### Growth -/

theorem countP_isSpecial (s : List Char) : s.countP isSpecial = s.count '"' + s.count '\\' := by
  induction s with
  | nil => rfl
  | cons c s ih =>
    have hchar : (if isSpecial c = true then 1 else 0) =
        (if (c == '"') = true then 1 else 0) + if (c == '\\') = true then 1 else 0 := by
      by_cases hq : c = '"'
      · subst hq
        rfl
      · simp [isSpecial, hq]
    rw [List.countP_cons, List.count_cons, List.count_cons, ih, hchar]
    omega

section Measure

/-! Lengths in characters and in bytes both add up, and count a backslash once. -/

variable {size : String → Nat} (hadd : ∀ text text', size (text ++ text') = size text + size text')
  (hmark : size "\\" = 1)
include hadd hmark

theorem size_escapeChar (c : Char) : size (String.ofList (escapeChar c)) =
    size (String.singleton c) + if isSpecial c then 1 else 0 := by
  rw [escapeChar]
  split
  · have hpair : String.ofList ['\\', c] = "\\" ++ String.singleton c := by
      rw [← String.toList_inj]
      simp
    rw [hpair, hadd, hmark, Nat.add_comm]
  · rw [String.singleton_eq_ofList, Nat.add_zero]

theorem size_escape (s : List Char) : size (String.ofList (escape s)) =
    size (String.ofList s) + s.countP isSpecial := by
  induction s with
  | nil => rfl
  | cons c s ih =>
    rw [escape_cons, String.ofList_append, hadd, size_escapeChar hadd hmark, ih,
      String.ofList_cons, hadd, List.countP_cons]
    omega

/-- A text grows by one for each special character. -/
theorem size_spell (text : String) : size (spell text).text =
    size text + (text.toList.count '"' + text.toList.count '\\') := by
  have h := size_escape hadd hmark text.toList
  rwa [← spell_text, String.ofList_toList, String.ofList_toList, countP_isSpecial] at h

end Measure

theorem length_spell (text : String) : (spell text).text.length =
    text.length + (text.toList.count '"' + text.toList.count '\\') :=
  size_spell String.length_append rfl text

theorem utf8ByteSize_spell (text : String) : (spell text).text.utf8ByteSize =
    text.utf8ByteSize + (text.toList.count '"' + text.toList.count '\\') :=
  size_spell (fun _ _ => String.utf8ByteSize_append) rfl text

/-! ### The shortcut -/

theorem any_isSpecial_eq_false_iff (s : List Char) :
    s.any isSpecial = false ↔ '"' ∉ s ∧ '\\' ∉ s := by
  rw [← List.count_eq_zero, ← List.count_eq_zero, ← Nat.add_eq_zero_iff, ← countP_isSpecial,
    List.countP_eq_zero, List.any_eq_false]

theorem isUnchanged_spell (text : String) :
    (spell text).isUnchanged = !text.toList.any isSpecial := by
  rw [spell]
  split
  next h =>
    rw [h]
    rfl
  next h =>
    rw [Bool.eq_false_iff.2 h]
    rfl

theorem spell_text_eq_self_iff (text : String) :
    (spell text).text = text ↔ '"' ∉ text.toList ∧ '\\' ∉ text.toList := by
  constructor
  · intro h
    -- a special character would have made the spelling longer
    have hlength := length_spell text
    rw [h, Nat.left_eq_add, Nat.add_eq_zero_iff, List.count_eq_zero, List.count_eq_zero] at hlength
    exact hlength
  · intro h
    rw [spell, (any_isSpecial_eq_false_iff text.toList).2 h]
    rfl

theorem isUnchanged_spell_iff (text : String) :
    (spell text).isUnchanged = true ↔ (spell text).text = text := by
  rw [isUnchanged_spell, Bool.not_eq_true', any_isSpecial_eq_false_iff, spell_text_eq_self_iff]

theorem spell_append (text text' : String) :
    (spell (text ++ text')).text = (spell text).text ++ (spell text').text := by
  rw [← String.toList_inj, String.toList_append, spell_text, spell_text, spell_text,
    String.toList_append, escape_append]

/-- The spelling is the text written character by character, shortcut or not. The shortcut is taken
exactly where nothing changes, which is where nothing is special; a spelling is longer than its text
by its special characters; and a text may be spelled in two parts. -/
theorem spell_shortcut :
    (∀ text : String, (spell text).text = writeOut text ∧
      ((spell text).isUnchanged = true ↔ (spell text).text = text) ∧
      ((spell text).text = text ↔ '"' ∉ text.toList ∧ '\\' ∉ text.toList) ∧
      (spell text).text.length =
        text.length + (text.toList.count '"' + text.toList.count '\\') ∧
      (spell text).text.utf8ByteSize =
        text.utf8ByteSize + (text.toList.count '"' + text.toList.count '\\')) ∧
    ∀ text text' : String,
      (spell (text ++ text')).text = (spell text).text ++ (spell text').text := by
  refine ⟨fun text => ?_, spell_append⟩
  exact ⟨spell_text_eq_writeOut text, isUnchanged_spell_iff text, spell_text_eq_self_iff text,
    length_spell text, utf8ByteSize_spell text⟩

/-- One half takes the shortcut, the whole does not. -/
example : (spell "ab").isUnchanged = true ∧ (spell ("ab" ++ "\\c")) = .escaped "ab\\\\c" := by
  decide +kernel

end TreeKinds.Literal
