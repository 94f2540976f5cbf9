import Mathlib.Data.List.Basic
import TreeKinds.Text.Utf8

/-! Bytes at which no character begins. The first byte of a character says how many bytes continue
it, and together they spell a code point. Proved: bytes begin with a character or they are
ill-formed, in one of six ways, and decoding goes on up to the first that are. -/
namespace TreeKinds.Utf8

/-! ### Sequences of bytes -/

/-- A byte of a character after its first. -/
def Continues (b : UInt8) : Prop := 0x80 ≤ b.toNat ∧ b.toNat < 0xc0

/-- The byte is the first of a character that `more` bytes continue. -/
inductive Leads (b : UInt8) : (more : Nat) → Prop
  | one : b.toNat < 0x80 → Leads b 0
  | two : 0xc0 ≤ b.toNat → b.toNat < 0xe0 → Leads b 1
  | three : 0xe0 ≤ b.toNat → b.toNat < 0xf0 → Leads b 2
  | four : 0xf0 ≤ b.toNat → b.toNat < 0xf8 → Leads b 3

/-- The least first byte of a character that `more` bytes continue. -/
def leastLead : (more : Nat) → Nat
  | 0 => 0
  | 1 => 0xc0
  | 2 => 0xe0
  | _ => 0xf0

/-- The code point that the bytes spell, in six bits for each byte after the first. -/
def spelled (b : UInt8) (more : Bytes) : Nat :=
  more.foldl (fun code c => code * 64 + (c.toNat - 0x80)) (b.toNat - leastLead more.length)

/-- The least code point that needs `more` bytes after the first. -/
def least : (more : Nat) → Nat
  | 0 => 0
  | 1 => 0x80
  | 2 => 0x800
  | _ => 0x10000

/-- A first byte and as many bytes after it as it asks for. -/
structure Complete (b : UInt8) (more : Bytes) : Prop where
  leads : Leads b more.length
  continues : ∀ c ∈ more, Continues c

/-- Bytes that begin with no character, and why. -/
inductive IllFormed : Bytes → Prop
  | stray {b : UInt8} {rest : Bytes} : Continues b → IllFormed (b :: rest)
  | unused {b : UInt8} {rest : Bytes} : 0xf8 ≤ b.toNat → IllFormed (b :: rest)
  | truncated {b : UInt8} {n : Nat} {more rest : Bytes} : Leads b n → more.length < n →
      (∀ c ∈ more, Continues c) → (∀ c, rest.head? = some c → ¬Continues c) →
      IllFormed (b :: (more ++ rest))
  | overlong {b : UInt8} {more rest : Bytes} : Complete b more →
      spelled b more < least more.length → IllFormed (b :: (more ++ rest))
  | surrogate {b : UInt8} {more rest : Bytes} : Complete b more → 0xd800 ≤ spelled b more →
      spelled b more < 0xe000 → IllFormed (b :: (more ++ rest))
  | tooLarge {b : UInt8} {more rest : Bytes} : Complete b more → 0x10ffff < spelled b more →
      IllFormed (b :: (more ++ rest))

variable {b : UInt8} {more rest bytes : Bytes} {n n' : Nat}

theorem Leads.unique (h : Leads b n) (h' : Leads b n') : n = n' := by
  cases h <;> cases h' <;> first | rfl | omega

theorem Leads.not_continues (h : Leads b n) : ¬Continues b := by
  rintro ⟨h1, h2⟩
  cases h <;> omega

theorem Leads.lt (h : Leads b n) : b.toNat < 0xf8 := by
  cases h <;> omega

theorem leads_or (b : UInt8) : Continues b ∨ 0xf8 ≤ b.toNat ∨ ∃ n, Leads b n := by
  by_cases h1 : b.toNat < 0x80
  · exact .inr (.inr ⟨_, .one h1⟩)
  by_cases hc : b.toNat < 0xc0
  · exact .inl ⟨by omega, hc⟩
  by_cases h2 : b.toNat < 0xe0
  · exact .inr (.inr ⟨_, .two (by omega) h2⟩)
  by_cases h3 : b.toNat < 0xf0
  · exact .inr (.inr ⟨_, .three (by omega) h3⟩)
  by_cases h4 : b.toNat < 0xf8
  · exact .inr (.inr ⟨_, .four (by omega) h4⟩)
  · exact .inr (.inl (by omega))

/-! ### Characters as sequences -/

theorem isValidChar_toNat (c : Char) : c.toNat < 0xd800 ∨ 0xdfff < c.toNat ∧ c.toNat < 0x110000 :=
  c.valid

theorem toNat_continuation (n : Nat) : (UInt8.ofNat (n % 64 + 128)).toNat = n % 64 + 128 := by
  rw [UInt8.toNat_ofNat']
  omega

theorem continues_continuation (n : Nat) : Continues (UInt8.ofNat (n % 64 + 128)) := by
  rw [Continues, toNat_continuation]
  omega

/-- A character is encoded by the shortest bytes that spell its code point. -/
theorem exists_complete (c : Char) : ∃ b more, String.utf8EncodeChar c = b :: more ∧
    Complete b more ∧ spelled b more = c.toNat ∧ least more.length ≤ c.toNat := by
  have hc := isValidChar_toNat c
  have hval : c.val.toNat = c.toNat := rfl
  rw [String.utf8EncodeChar, hval]
  split
  next h1 =>
    have hb : (UInt8.ofNat c.toNat).toNat = c.toNat := by rw [UInt8.toNat_ofNat']; omega
    exact ⟨_, [], rfl, ⟨.one (by omega), by simp⟩, hb, Nat.zero_le _⟩
  split
  next h1 h2 =>
    have hb : (UInt8.ofNat (c.toNat / 64 % 32 + 192)).toNat = c.toNat / 64 + 192 := by
      rw [UInt8.toNat_ofNat']
      omega
    refine ⟨_, _, rfl, ⟨.two (by omega) (by omega), ?_⟩, ?_, Nat.lt_of_not_le h1⟩
    · simp only [List.forall_mem_cons, continues_continuation, true_and]
      exact List.forall_mem_nil _
    · simp only [spelled, leastLead, List.length_cons, List.length_nil, List.foldl_cons,
        List.foldl_nil, toNat_continuation, hb]
      omega
  split
  next h1 h2 h3 =>
    have hb : (UInt8.ofNat (c.toNat / 4096 % 16 + 224)).toNat = c.toNat / 4096 + 224 := by
      rw [UInt8.toNat_ofNat']
      omega
    refine ⟨_, _, rfl, ⟨.three (by omega) (by omega), ?_⟩, ?_, Nat.lt_of_not_le h2⟩
    · simp only [List.forall_mem_cons, continues_continuation, true_and]
      exact List.forall_mem_nil _
    · simp only [spelled, leastLead, List.length_cons, List.length_nil, List.foldl_cons,
        List.foldl_nil, toNat_continuation, hb]
      omega
  next h1 h2 h3 =>
    have hb : (UInt8.ofNat (c.toNat / 262144 % 8 + 240)).toNat = c.toNat / 262144 + 240 := by
      rw [UInt8.toNat_ofNat']
      omega
    refine ⟨_, _, rfl, ⟨.four (by omega) (by omega), ?_⟩, ?_, Nat.lt_of_not_le h3⟩
    · simp only [List.forall_mem_cons, continues_continuation, true_and]
      exact List.forall_mem_nil _
    · simp only [spelled, leastLead, List.length_cons, List.length_nil, List.foldl_cons,
        List.foldl_nil, toNat_continuation, hb]
      omega

/-- Bytes that spell a code point, and no shorter ones do, encode a character. -/
theorem Complete.exists_char (h : Complete b more) (hl : least more.length ≤ spelled b more)
    (hv : (spelled b more).isValidChar) : ∃ c, String.utf8EncodeChar c = b :: more := by
  obtain ⟨c, hc⟩ : ∃ c : Char, c.val.toNat = spelled b more := ⟨.ofNatAux _ hv, rfl⟩
  refine ⟨c, ?_⟩
  rw [String.utf8EncodeChar, hc]
  obtain ⟨hlead, hmore⟩ := h
  generalize hn : more.length = n at hlead
  cases hlead with
  | one h1 =>
    obtain rfl := List.length_eq_zero_iff.1 hn
    have hcode : spelled b [] = b.toNat := rfl
    rw [hcode, if_pos (by omega), UInt8.ofNat_toNat]
  | two h1 h2 =>
    obtain ⟨x, rfl⟩ := List.length_eq_one_iff.1 hn
    obtain ⟨hx1, hx2⟩ := hmore x (by simp)
    have hcode : spelled b [x] = (b.toNat - 0xc0) * 64 + (x.toNat - 0x80) := rfl
    have hleast : 0x80 ≤ spelled b [x] := hl
    rw [if_neg (by omega), if_pos (by omega)]
    simp only [List.cons.injEq, and_true, ← UInt8.toNat_inj, UInt8.toNat_ofNat']
    omega
  | three h1 h2 =>
    obtain ⟨x, y, rfl⟩ := List.length_eq_two.1 hn
    obtain ⟨hx1, hx2⟩ := hmore x (by simp)
    obtain ⟨hy1, hy2⟩ := hmore y (by simp)
    have hcode : spelled b [x, y] =
        ((b.toNat - 0xe0) * 64 + (x.toNat - 0x80)) * 64 + (y.toNat - 0x80) := rfl
    have hleast : 0x800 ≤ spelled b [x, y] := hl
    rw [if_neg (by omega), if_neg (by omega), if_pos (by omega)]
    simp only [List.cons.injEq, and_true, ← UInt8.toNat_inj, UInt8.toNat_ofNat']
    omega
  | four h1 h2 =>
    obtain ⟨x, y, z, rfl⟩ := List.length_eq_three.1 hn
    obtain ⟨hx1, hx2⟩ := hmore x (by simp)
    obtain ⟨hy1, hy2⟩ := hmore y (by simp)
    obtain ⟨hz1, hz2⟩ := hmore z (by simp)
    have hcode : spelled b [x, y, z] = (((b.toNat - 0xf0) * 64 + (x.toNat - 0x80)) * 64 +
        (y.toNat - 0x80)) * 64 + (z.toNat - 0x80) := rfl
    have hleast : 0x10000 ≤ spelled b [x, y, z] := hl
    rw [if_neg (by omega), if_neg (by omega), if_neg (by omega)]
    simp only [List.cons.injEq, and_true, ← UInt8.toNat_inj, UInt8.toNat_ofNat']
    omega

/-! ### Beginning with a character -/

/-- As many of the bytes as continue a character, but no more than `n`. -/
theorem exists_continuation (n : Nat) (bytes : Bytes) : ∃ more rest, bytes = more ++ rest ∧
    (∀ c ∈ more, Continues c) ∧
    (more.length = n ∨ more.length < n ∧ ∀ c, rest.head? = some c → ¬Continues c) := by
  induction n generalizing bytes with
  | zero => exact ⟨[], bytes, rfl, by simp, .inl rfl⟩
  | succ n ih =>
    cases bytes with
    | nil => exact ⟨[], [], rfl, by simp, .inr ⟨Nat.succ_pos n, by simp⟩⟩
    | cons c bytes =>
      by_cases hc : Continues c
      · obtain ⟨more, rest, rfl, hmore, hn⟩ := ih bytes
        refine ⟨c :: more, rest, rfl, List.forall_mem_cons.2 ⟨hc, hmore⟩, ?_⟩
        rw [List.length_cons]
        obtain hn | ⟨hn, hrest⟩ := hn
        · exact .inl (by omega)
        · exact .inr ⟨by omega, hrest⟩
      · refine ⟨[], c :: bytes, rfl, by simp, .inr ⟨Nat.succ_pos n, ?_⟩⟩
        rintro d ⟨⟩
        exact hc

theorem Complete.char_or_illFormed (h : Complete b more) (rest : Bytes) :
    (∃ c, String.utf8EncodeChar c = b :: more) ∨ IllFormed (b :: (more ++ rest)) := by
  by_cases hl : spelled b more < least more.length
  · exact .inr (.overlong h hl)
  by_cases hv : (spelled b more).isValidChar
  · exact .inl (h.exists_char (by omega) hv)
  · rw [Nat.isValidChar, not_or] at hv
    by_cases hs : spelled b more < 0xe000
    · exact .inr (.surrogate h (by omega) hs)
    · exact .inr (.tooLarge h (by omega))

/-- Bytes begin with a character unless they are ill-formed. -/
theorem char_or_illFormed (b : UInt8) (bytes : Bytes) :
    (∃ c rest, b :: bytes = String.utf8EncodeChar c ++ rest) ∨ IllFormed (b :: bytes) := by
  obtain hb | hb | ⟨n, hb⟩ := leads_or b
  · exact .inr (.stray hb)
  · exact .inr (.unused hb)
  obtain ⟨more, rest, rfl, hmore, rfl | ⟨hn, hrest⟩⟩ := exists_continuation n bytes
  · have h : Complete b more := ⟨hb, hmore⟩
    refine (h.char_or_illFormed rest).imp_left fun ⟨c, hc⟩ => ⟨c, rest, ?_⟩
    rw [hc, List.cons_append]
  · exact .inr (.truncated hb hn hmore hrest)

theorem Complete.unique {more' rest' : Bytes} (h : Complete b more) (h' : Complete b more')
    (heq : more ++ rest = more' ++ rest') : more = more' :=
  (List.append_inj heq (h.leads.unique h'.leads)).1

/-- What cuts a character short is not among the bytes that continue it. -/
theorem Complete.not_truncated {more' rest' : Bytes} (h : Complete b more')
    (hn : more.length < more'.length) (hrest : ∀ c, rest.head? = some c → ¬Continues c) :
    more ++ rest ≠ more' ++ rest' := by
  intro heq
  obtain ⟨cut, hcut, rfl⟩ | ⟨cut, rfl, -⟩ := List.append_eq_append_iff.1 heq
  · cases cut with
    | nil =>
      rw [hcut, List.append_nil] at hn
      omega
    | cons c cut => exact hrest c rfl (h.continues c (by simp [hcut]))
  · rw [List.length_append] at hn
    omega

/-- Ill-formed bytes begin with no character. -/
theorem IllFormed.ne_char_append (h : IllFormed bytes) (c : Char) (rest : Bytes) :
    bytes ≠ String.utf8EncodeChar c ++ rest := by
  obtain ⟨b, more, henc, hb, hcode, hl⟩ := exists_complete c
  have hc := isValidChar_toNat c
  rw [← hcode] at hc hl
  rw [henc, List.cons_append]
  intro heq
  cases h with
  | stray hs =>
    obtain ⟨rfl, -⟩ := List.cons.inj heq
    exact hb.leads.not_continues hs
  | unused hu =>
    obtain ⟨rfl, -⟩ := List.cons.inj heq
    have hlt := hb.leads.lt
    omega
  | truncated hlead hn hmore hrest =>
    obtain ⟨rfl, htail⟩ := List.cons.inj heq
    rw [hlead.unique hb.leads] at hn
    exact hb.not_truncated hn hrest htail
  | overlong h hlt =>
    obtain ⟨rfl, htail⟩ := List.cons.inj heq
    obtain rfl := h.unique hb htail
    omega
  | surrogate h h1 h2 =>
    obtain ⟨rfl, htail⟩ := List.cons.inj heq
    obtain rfl := h.unique hb htail
    omega
  | tooLarge h h1 =>
    obtain ⟨rfl, htail⟩ := List.cons.inj heq
    obtain rfl := h.unique hb htail
    omega

/-! ### Decoding -/

theorem eq_utf8EncodeChar_append_of_first? {c : Char} (h : first? bytes = some c) :
    ∃ rest, bytes = String.utf8EncodeChar c ++ rest := by
  obtain ⟨l, hl⟩ := ByteArray.exists_of_utf8DecodeChar?_eq_some h
  have hlist : bytes.take 4 = String.utf8EncodeChar c ++ l.data.toList := by
    have hdata := congrArg (fun array : ByteArray => array.data.toList) hl
    simpa using hdata
  refine ⟨l.data.toList ++ bytes.drop 4, ?_⟩
  rw [← List.append_assoc, ← hlist, List.take_append_drop]

theorem IllFormed.decode_eq (h : IllFormed bytes) : decode bytes = ([], bytes) := by
  have hfirst : first? bytes = none := by
    rw [Option.eq_none_iff_forall_ne_some]
    intro c hc
    obtain ⟨rest, hrest⟩ := eq_utf8EncodeChar_append_of_first? hc
    exact h.ne_char_append c rest hrest
  cases bytes with
  | nil => rfl
  | cons b bytes => exact decode_of_first?_none hfirst

/-- Bytes are the encoding of a text and, if any are left, ill-formed bytes after it. -/
theorem exists_encode_append (bytes : Bytes) :
    ∃ s rest, bytes = encode s ++ rest ∧ (rest = [] ∨ IllFormed rest) := by
  match bytes with
  | [] => exact ⟨[], [], rfl, .inl rfl⟩
  | b :: bytes =>
    obtain ⟨c, rest, h⟩ | h := char_or_illFormed b bytes
    · have hlt : rest.length < (b :: bytes).length := by
        rw [h, List.length_append, String.length_utf8EncodeChar]
        have := c.utf8Size_pos
        omega
      obtain ⟨s, rest', rfl, hrest⟩ := exists_encode_append rest
      exact ⟨c :: s, rest', by rw [h, encode_cons, List.append_assoc], hrest⟩
    · exact ⟨[], b :: bytes, rfl, .inr h⟩
termination_by bytes.length
decreasing_by exact hlt

theorem encode_append (s t : List Char) : encode (s ++ t) = encode s ++ encode t :=
  List.flatMap_append

/-- The bytes encode a text. -/
def Encoded (bytes : Bytes) : Prop := ∃ s, bytes = encode s

/-- `valid` is the longest beginning of the bytes that encodes a text. -/
structure LongestEncoded (bytes valid : Bytes) : Prop where
  begins : valid <+: bytes
  encoded : Encoded valid
  longest : ∀ p, p <+: bytes → Encoded p → p.length ≤ valid.length

theorem IllFormed.decode_encode_append (h : IllFormed rest) (s : List Char) :
    decode (encode s ++ rest) = (s, rest) := by
  rw [Utf8.decode_encode_append, h.decode_eq, List.append_nil]

/-- An encoding ends where the bytes are ill-formed. -/
theorem IllFormed.longestEncoded (h : IllFormed rest) (s : List Char) :
    LongestEncoded (encode s ++ rest) (encode s) := by
  refine ⟨List.prefix_append _ _, ⟨s, rfl⟩, ?_⟩
  rintro p ⟨after, hafter⟩ ⟨t, rfl⟩
  have hdecode := h.decode_encode_append s
  rw [← hafter, Utf8.decode_encode_append, Prod.mk.injEq] at hdecode
  rw [← hdecode.1, encode_append, List.length_append]
  omega

theorem IllFormed.not_encoded (h : IllFormed rest) (s : List Char) :
    ¬Encoded (encode s ++ rest) := by
  rintro ⟨t, ht⟩
  have hdecode := h.decode_encode_append s
  rw [ht, decode_encode, Prod.mk.injEq] at hdecode
  rw [← hdecode.2] at h
  cases h

/-- The bytes that encode no text are ill-formed somewhere after a text. -/
theorem not_encoded_iff : ¬Encoded bytes ↔ ∃ s rest, bytes = encode s ++ rest ∧ IllFormed rest := by
  constructor
  · intro h
    obtain ⟨s, rest, rfl, rfl | hrest⟩ := exists_encode_append bytes
    · exact absurd ⟨s, List.append_nil _⟩ h
    · exact ⟨s, rest, rfl, hrest⟩
  · rintro ⟨s, rest, rfl, hrest⟩
    exact hrest.not_encoded s

/-! ### Line feeds -/

theorem feed_mem_utf8EncodeChar_iff {c : Char} : 0x0a ∈ String.utf8EncodeChar c ↔ c = '\n' := by
  constructor
  · obtain ⟨b, more, henc, ⟨hlead, hmore⟩, hcode, -⟩ := exists_complete c
    rw [henc, List.mem_cons]
    rintro (rfl | hm)
    · have hlen : more.length = 0 := hlead.unique (.one (by decide))
      rw [List.length_eq_zero_iff.1 hlen] at hcode
      exact Char.toNat_inj.1 hcode.symm
    · exact absurd (hmore _ hm).1 (by decide)
  · rintro rfl
    decide

theorem count_utf8EncodeChar (c : Char) :
    (String.utf8EncodeChar c).count 0x0a = [c].count '\n' := by
  by_cases hc : c = '\n'
  · rw [hc]
    rfl
  · rw [List.count_eq_zero.2 (mt feed_mem_utf8EncodeChar_iff.1 hc),
      List.count_eq_zero.2 (by simpa [eq_comm] using hc)]

/-- No byte of a longer character is a line feed. -/
theorem count_encode (s : List Char) : (encode s).count 0x0a = s.count '\n' := by
  induction s with
  | nil => rfl
  | cons c s ih =>
    rw [encode_cons, List.count_append, ih, count_utf8EncodeChar, ← List.count_append,
      List.singleton_append]

end TreeKinds.Utf8
