/-! Text as bytes. Decoding takes one character after the other for as long as the bytes begin with
the encoding of one, so what is left over starts at the first byte that is out of place. The
encoding of a text is decoded as that text, with nothing left over. -/
namespace TreeKinds

abbrev Bytes := List UInt8

namespace Utf8

def encode (s : List Char) : Bytes := s.flatMap String.utf8EncodeChar

/-- The character whose encoding the bytes begin with. -/
def first? (bytes : Bytes) : Option Char := (bytes.take 4).toByteArray.utf8DecodeChar? 0

/-- Passes over some bytes, and then takes characters as long as there are any. -/
def decodeFrom : (skipped : Nat) → Bytes → List Char × Bytes
  | _, [] => ([], [])
  | n + 1, _ :: bytes => decodeFrom n bytes
  | 0, b :: bytes =>
    match first? (b :: bytes) with
    | none => ([], b :: bytes)
    | some c =>
      let (s, rest) := decodeFrom (c.utf8Size - 1) bytes
      (c :: s, rest)

/-- The longest text whose encoding the bytes begin with, and the bytes after it. -/
def decode (bytes : Bytes) : List Char × Bytes := decodeFrom 0 bytes

theorem decodeFrom_eq_decode (n : Nat) (bytes : Bytes) :
    decodeFrom n bytes = decode (bytes.drop n) := by
  induction n generalizing bytes with
  | zero => rfl
  | succ n ih => cases bytes with
    | nil => simp [decodeFrom, decode]
    | cons b bytes => simpa [decodeFrom] using ih bytes

/-- A character is decoded with all its bytes. -/
theorem decode_of_first? {b : UInt8} {bytes : Bytes} {c : Char}
    (h : first? (b :: bytes) = some c) :
    decode (b :: bytes) =
      let (s, rest) := decode ((b :: bytes).drop c.utf8Size)
      (c :: s, rest) := by
  have hc : c.utf8Size = c.utf8Size - 1 + 1 := by have := c.utf8Size_pos; omega
  rw [hc, List.drop_succ_cons, ← decodeFrom_eq_decode, decode, decodeFrom, h]

theorem decode_of_first?_none {b : UInt8} {bytes : Bytes} (h : first? (b :: bytes) = none) :
    decode (b :: bytes) = ([], b :: bytes) := by
  rw [decode, decodeFrom, h]

/-- The text that the bytes encode, if they encode one. -/
def text? (bytes : Bytes) : Option String :=
  match decode bytes with
  | (s, []) => some (String.ofList s)
  | (_, _ :: _) => none

/-! ### Encoded texts -/

theorem encode_cons (c : Char) (s : List Char) :
    encode (c :: s) = String.utf8EncodeChar c ++ encode s := rfl

theorem first?_utf8EncodeChar_append (c : Char) (bytes : Bytes) :
    first? (String.utf8EncodeChar c ++ bytes) = some c := by
  have hlen : (String.utf8EncodeChar c).length ≤ 4 := by
    rw [String.length_utf8EncodeChar]
    exact c.utf8Size_le_four
  rw [first?, List.take_append, List.take_of_length_le hlen, List.toByteArray_append,
    ByteArray.utf8DecodeChar?_utf8EncodeChar_append]

theorem decode_utf8EncodeChar_append (c : Char) (bytes : Bytes) :
    decode (String.utf8EncodeChar c ++ bytes) = (c :: (decode bytes).1, (decode bytes).2) := by
  have hlen : (String.utf8EncodeChar c).length = c.utf8Size := String.length_utf8EncodeChar c
  have hfirst := first?_utf8EncodeChar_append c bytes
  have hrest : (String.utf8EncodeChar c ++ bytes).drop c.utf8Size = bytes :=
    List.drop_left' hlen
  cases hb : String.utf8EncodeChar c ++ bytes with
  | nil =>
    have hpos := c.utf8Size_pos
    rw [(List.append_eq_nil_iff.1 hb).1, List.length_nil] at hlen
    omega
  | cons b bytes' =>
    rw [hb] at hfirst hrest
    rw [decode_of_first? hfirst, hrest]

/-- An encoded text is decoded first, whatever bytes follow it. -/
theorem decode_encode_append (s : List Char) (bytes : Bytes) :
    decode (encode s ++ bytes) = (s ++ (decode bytes).1, (decode bytes).2) := by
  induction s with
  | nil => rfl
  | cons c s ih =>
    rw [encode_cons, List.append_assoc, decode_utf8EncodeChar_append, ih, List.cons_append]

theorem decode_encode (s : List Char) : decode (encode s) = (s, []) := by
  have h := decode_encode_append s []
  rw [List.append_nil] at h
  rw [h, decode, decodeFrom, List.append_nil]

theorem text?_encode (s : List Char) : text? (encode s) = some (String.ofList s) := by
  rw [text?, decode_encode]

end Utf8
end TreeKinds
