import Mathlib.Tactic.SplitIfs
import TreeKinds.Proofs.Text.Runs
import TreeKinds.Text.Quoted

/-! Texts as messages show them. A character is shown as itself, as a letter after a backslash, or
as its code point, and where one of these forms ends the next begins. Proved: different texts are
shown differently, and nothing in what is shown is hidden. -/
namespace TreeKinds.Text

/-! ### Digits -/

theorem digitChar_inj {d e : Nat} (hd : d < 16) (he : e < 16) (h : d.digitChar = e.digitChar) :
    d = e := by
  have hall : ∀ d < 16, ∀ e < 16, d.digitChar = e.digitChar → d = e := by decide
  exact hall d hd e he h

theorem exists_digit_of_mem {b n : Nat} {c : Char} (hb : 1 < b) (h : c ∈ Nat.toDigits b n) :
    ∃ d < b, c = d.digitChar := by
  induction n using Nat.strongRecOn with
  | _ n ih =>
    rw [Nat.toDigits_eq_if hb] at h
    split at h
    next hn => exact ⟨n, hn, by simpa using h⟩
    next hn =>
      rcases List.mem_append.1 h with h | h
      · exact ih (n / b) (Nat.div_lt_self (by omega) hb) h
      · exact ⟨n % b, Nat.mod_lt n (by omega), by simpa using h⟩

theorem toDigits_inj {b m n : Nat} (hb : 1 < b) (hb' : b ≤ 16)
    (h : Nat.toDigits b m = Nat.toDigits b n) : m = n := by
  induction m using Nat.strongRecOn generalizing n with
  | _ m ih =>
    have hlt : m < b ↔ n < b := by
      rw [← Nat.pow_one b, ← Nat.length_toDigits_le_iff hb Nat.one_pos, h,
        Nat.length_toDigits_le_iff hb Nat.one_pos]
    by_cases hm : m < b
    · rw [Nat.toDigits_of_lt_base hm, Nat.toDigits_of_lt_base (hlt.1 hm)] at h
      exact digitChar_inj (by omega) (by omega) (List.singleton_inj.1 h)
    · have hn : ¬n < b := fun hn => hm (hlt.2 hn)
      rw [Nat.toDigits_of_base_le hb (Nat.le_of_not_lt hm),
        Nat.toDigits_of_base_le hb (Nat.le_of_not_lt hn)] at h
      obtain ⟨hquot, hdigit⟩ := List.append_singleton_inj.1 h
      have hdiv : m / b = n / b := ih (m / b) (Nat.div_lt_self (by omega) hb) hquot
      have hmod : m % b = n % b :=
        digitChar_inj (Nat.lt_of_lt_of_le (Nat.mod_lt m (by omega)) hb')
          (Nat.lt_of_lt_of_le (Nat.mod_lt n (by omega)) hb') hdigit
      rw [← Nat.div_add_mod m b, ← Nat.div_add_mod n b, hdiv, hmod]

theorem toString_inj {m n : Nat} : toString m = toString n ↔ m = n := by
  constructor
  · intro h
    rw [Nat.toString_eq_ofList_toDigits, Nat.toString_eq_ofList_toDigits, String.ofList_inj] at h
    exact toDigits_inj (by decide) (by decide) h
  · rintro rfl
    rfl

theorem not_mem_toString {c : Char} (hc : c.isDigit = false) (n : Nat) :
    c ∉ (toString n).toList := by
  intro h
  rw [Nat.toString_eq_ofList_toDigits, String.toList_ofList] at h
  have hdigit := Nat.isDigit_of_mem_toDigits (by decide) (by decide) h
  rw [hc] at hdigit
  cases hdigit

/-! ### The forms of a character -/

/-- What stands after the backslash for a character that has a short form. -/
inductive Letter : (c letter : Char) → Prop
  | quote : Letter '"' '"'
  | backslash : Letter '\\' '\\'
  | nul : Letter '\x00' '0'
  | tab : Letter '\t' 't'
  | feed : Letter '\n' 'n'
  | carriageReturn : Letter '\r' 'r'

/-- The ways in which a character is shown. -/
inductive Shows (c : Char) : List Char → Prop
  | plain : c ≠ '"' → c ≠ '\\' → isHidden c = false → Shows c [c]
  | letter {e : Char} : Letter c e → Shows c ['\\', e]
  | codePoint : Shows c (codePoint c)

theorem shows_shownChar (c : Char) : Shows c (shownChar c) := by
  rw [shownChar]
  split_ifs with hs h0 ht hn hr hh
  · obtain rfl | rfl : c = '"' ∨ c = '\\' := by simpa using hs
    · exact .letter .quote
    · exact .letter .backslash
  · subst h0
    exact .letter .nul
  · subst ht
    exact .letter .tab
  · subst hn
    exact .letter .feed
  · subst hr
    exact .letter .carriageReturn
  · exact .codePoint
  · obtain ⟨hq, hb⟩ : c ≠ '"' ∧ c ≠ '\\' := by simpa using hs
    exact .plain hq hb (Bool.eq_false_iff.2 hh)

theorem Letter.unique {c d e : Char} (h : Letter c e) (h' : Letter d e) : c = d := by
  cases h <;> cases h' <;> rfl

theorem Letter.ne_u {c e : Char} (h : Letter c e) : e ≠ 'u' := by
  cases h <;> decide

/-! ### Reading a shown text back -/

theorem brace_not_mem_toDigits (n : Nat) : '}' ∉ Nat.toDigits 16 n := by
  intro h
  obtain ⟨d, hd, hc⟩ := exists_digit_of_mem (by decide) h
  have hall : ∀ d < 16, '}' ≠ Nat.digitChar d := by decide
  exact hall d hd hc

theorem codePoint_append (c : Char) (s : List Char) :
    codePoint c ++ s = '\\' :: 'u' :: '{' :: (Nat.toDigits 16 c.toNat ++ '}' :: s) := by
  simp [codePoint]

theorem codePoint_append_inj {c d : Char} {s t : List Char}
    (h : codePoint c ++ s = codePoint d ++ t) : c = d ∧ s = t := by
  rw [codePoint_append, codePoint_append] at h
  simp only [List.cons.injEq, true_and] at h
  obtain ⟨hdigits, hrest⟩ :=
    append_cons_inj (brace_not_mem_toDigits _) (brace_not_mem_toDigits _) h
  exact ⟨Char.toNat_inj.1 (toDigits_inj (by decide) (Nat.le_refl 16) hdigits), hrest⟩

/-- No form of a character is the beginning of a form of another. -/
theorem Shows.append_inj {c d : Char} {u v s t : List Char} (hc : Shows c u) (hd : Shows d v)
    (h : u ++ s = v ++ t) : c = d ∧ s = t := by
  cases hc with
  | plain _ hb _ =>
    cases hd with
    | plain => exact List.cons.inj h
    | letter => exact absurd (List.cons.inj h).1 hb
    | codePoint => exact absurd (List.cons.inj h).1 hb
  | letter hl =>
    cases hd with
    | plain _ hb _ => exact absurd (List.cons.inj h).1.symm hb
    | letter hl' =>
      obtain ⟨he, hst⟩ := List.cons.inj (List.cons.inj h).2
      subst he
      exact ⟨hl.unique hl', hst⟩
    | codePoint => exact absurd (List.cons.inj (List.cons.inj h).2).1 hl.ne_u
  | codePoint =>
    cases hd with
    | plain _ hb _ => exact absurd (List.cons.inj h).1.symm hb
    | letter hl => exact absurd (List.cons.inj (List.cons.inj h).2).1.symm hl.ne_u
    | codePoint => exact codePoint_append_inj h

theorem Shows.append_ne_quote {c : Char} {u : List Char} (h : Shows c u) (s t : List Char) :
    u ++ s ≠ '"' :: t := by
  cases h with
  | plain hq _ _ => exact fun e => hq (List.cons.inj e).1
  | letter => exact fun e => absurd (List.cons.inj e).1 (by decide)
  | codePoint => exact fun e => absurd (List.cons.inj e).1 (by decide)

/-- A shown text ends at the first quote that is no part of a form. -/
theorem shown_append_inj {s t a b : List Char}
    (h : s.flatMap shownChar ++ '"' :: a = t.flatMap shownChar ++ '"' :: b) : s = t ∧ a = b := by
  induction s generalizing t with
  | nil =>
    cases t with
    | nil => exact ⟨rfl, (List.cons.inj h).2⟩
    | cons d t =>
      rw [List.flatMap_cons, List.append_assoc] at h
      exact absurd h.symm ((shows_shownChar d).append_ne_quote _ _)
  | cons c s ih =>
    cases t with
    | nil =>
      rw [List.flatMap_cons, List.append_assoc] at h
      exact absurd h ((shows_shownChar c).append_ne_quote _ _)
    | cons d t =>
      simp only [List.flatMap_cons, List.append_assoc] at h
      obtain ⟨rfl, hrest⟩ := (shows_shownChar c).append_inj (shows_shownChar d) h
      obtain ⟨rfl, hab⟩ := ih hrest
      exact ⟨rfl, hab⟩

theorem quoted_inj {s t : String} : quoted s = quoted t ↔ s = t := by
  constructor
  · intro h
    have hlist := String.ofList_injective h
    obtain ⟨hst, -⟩ := shown_append_inj (List.cons.inj hlist).2
    exact String.toList_inj.1 hst
  · rintro rfl
    rfl

/-- A backslash is doubled, and a bell goes by its code point. -/
example : quoted "\\\x07" = "\"\\\\\\u\x7b7\x7d\"" := by decide

/-! ### Nothing is hidden -/

/-- Nothing in the text is hidden. -/
def Visible (s : List Char) : Prop := ∀ c ∈ s, isHidden c = false

instance (s : List Char) : Decidable (Visible s) := List.decidableBAll (isHidden · = false) s

theorem Visible.not_mem {s : List Char} (h : Visible s) {c : Char} (hc : isHidden c = true) :
    c ∉ s := by
  intro hm
  rw [h c hm] at hc
  cases hc

theorem isHidden_of_ascii {c : Char} (h : 0x20 ≤ c.toNat) (h' : c.toNat < 0x7f) :
    isHidden c = false := by
  have hcontrol : isControl c = false := by
    simp only [isControl, Bool.or_eq_false_iff, Bool.and_eq_false_iff, decide_eq_false_iff_not]
    omega
  have hlow : ¬0xa0 ≤ c.toNat := by omega
  rw [isHidden, hcontrol, decide_eq_false hlow]
  rfl

theorem visible_cons {c : Char} {s : List Char} :
    Visible (c :: s) ↔ isHidden c = false ∧ Visible s := List.forall_mem_cons

theorem visible_append {s t : List Char} : Visible (s ++ t) ↔ Visible s ∧ Visible t :=
  List.forall_mem_append

theorem visible_toDigits {b : Nat} (hb : 1 < b) (hb' : b ≤ 16) (n : Nat) :
    Visible (Nat.toDigits b n) := by
  intro c hc
  obtain ⟨d, hd, rfl⟩ := exists_digit_of_mem hb hc
  have hall : ∀ d < 16, isHidden (Nat.digitChar d) = false := by decide
  exact hall d (by omega)

theorem visible_toString (n : Nat) : Visible (toString n).toList := by
  rw [Nat.toString_eq_ofList_toDigits, String.toList_ofList]
  exact visible_toDigits (by decide) (by decide) n

theorem Letter.visible {c e : Char} (h : Letter c e) : Visible ['\\', e] := by
  cases h <;> decide

theorem Shows.visible {c : Char} {u : List Char} (h : Shows c u) : Visible u := by
  cases h with
  | plain _ _ hc =>
    intro d hd
    rwa [List.mem_singleton.1 hd]
  | letter hl => exact hl.visible
  | codePoint =>
    rw [Text.codePoint, visible_append, visible_append]
    exact ⟨⟨by decide, visible_toDigits (by decide) (Nat.le_refl 16) _⟩, by decide⟩

theorem visible_quoted (s : String) : Visible (quoted s).toList := by
  rw [quoted, String.toList_ofList, visible_cons, visible_append]
  refine ⟨by decide, fun c hc => ?_, by decide⟩
  obtain ⟨d, -, hc⟩ := List.mem_flatMap.1 hc
  exact (shows_shownChar d).visible c hc

theorem visible_append_quoted {p : String} (hp : Visible p.toList) (s : String) :
    Visible (p ++ quoted s).toList := by
  rw [String.toList_append, visible_append]
  exact ⟨hp, visible_quoted s⟩

end TreeKinds.Text
