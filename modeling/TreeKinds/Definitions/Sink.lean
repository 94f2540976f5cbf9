import TreeKinds.Kind
import TreeKinds.Literal
import TreeKinds.Text.Utf8

/-! The definitions of a registry, and writers with limited room. The text is a banner and one line
per kind, in order, made of pieces each of which is handed to the writer on its own. A writer takes
the bytes it is offered until its room is used up, and what it has taken is always a beginning of
the whole output. -/
namespace TreeKinds.Definitions

/-! ### The text -/

def banner : String :=
  "/*\n * tree.def - Type definition for the `tree' structure.\n *\n" ++
  " * Automatically generated by gendef. DO NOT EDIT.\n */\n\n"

/-- The name under which the including file receives each kind. -/
def entryName : String := "DEFTYPE"

def entryPieces (k : Kind) : List String :=
  [entryName, "(", k.name, ", \"", (Literal.spell k.friendlyName).text, "\")\n"]

def pieces (kinds : Registry) : List String := banner :: kinds.flatMap entryPieces

def text (kinds : Registry) : String := String.join (pieces kinds)

/-! ### Writers -/

/-- How a writer without room meets further bytes. -/
inductive WhenFull where
  | refuses
  | takesNothing
  deriving DecidableEq, Repr

def WhenFull.message : WhenFull → String
  | refuses => "disk full"
  | takesNothing => "failed to write whole buffer"

structure Sink where
  /-- The number of bytes the writer takes, if it is limited. -/
  room : Option Nat
  whenFull : WhenFull
  deriving DecidableEq, Repr

/-- What a writer took, and why it stopped if it did. -/
structure Delivery where
  taken : Bytes
  failure : Option WhenFull
  deriving DecidableEq, Repr

namespace Sink

/-- The writer after it has taken `n` more bytes. -/
def less (s : Sink) (n : Nat) : Sink := { s with room := s.room.map (· - n) }

/-- The part of `bytes` that a writer still takes. -/
def share (s : Sink) (bytes : Bytes) : Bytes :=
  match s.room with
  | none => bytes
  | some n => bytes.take n

def fits (s : Sink) (bytes : Bytes) : Bool :=
  match s.room with
  | none => true
  | some n => bytes.length ≤ n

/-- Offers one piece after the other and stops at the first that does not fit. -/
def deliver (s : Sink) : List Bytes → Delivery
  | [] => ⟨[], none⟩
  | piece :: rest =>
    if s.fits piece then
      let d := (s.less piece.length).deliver rest
      ⟨piece ++ d.taken, d.failure⟩
    else ⟨s.share piece, some s.whenFull⟩

@[simp] theorem less_whenFull (s : Sink) (n : Nat) : (s.less n).whenFull = s.whenFull := rfl

theorem share_append_of_fits {s : Sink} {a : Bytes} (h : s.fits a = true) (b : Bytes) :
    s.share (a ++ b) = a ++ (s.less a.length).share b := by
  obtain ⟨room, whenFull⟩ := s
  cases room with
  | none => rfl
  | some n =>
    simp only [fits, decide_eq_true_eq] at h
    simp [share, less, List.take_append, List.take_of_length_le h]

theorem share_append_of_not_fits {s : Sink} {a : Bytes} (h : s.fits a = false) (b : Bytes) :
    s.share (a ++ b) = s.share a := by
  obtain ⟨room, whenFull⟩ := s
  cases room with
  | none => simp [fits] at h
  | some n =>
    simp only [fits, decide_eq_false_iff_not, Nat.not_le] at h
    exact List.take_append_of_le_length (Nat.le_of_lt h)

theorem fits_append (s : Sink) (a b : Bytes) :
    s.fits (a ++ b) = (s.fits a && (s.less a.length).fits b) := by
  obtain ⟨room, whenFull⟩ := s
  cases room with
  | none => rfl
  | some n =>
    simp only [fits, less, Option.map_some, List.length_append]
    by_cases h : a.length ≤ n <;> simp [h] <;> omega

theorem share_of_fits {s : Sink} {bytes : Bytes} (h : s.fits bytes = true) :
    s.share bytes = bytes := by
  obtain ⟨room, whenFull⟩ := s
  cases room with
  | none => rfl
  | some n =>
    simp only [fits, decide_eq_true_eq] at h
    exact List.take_of_length_le h

/-- What is taken does not depend on the pieces, only on all the bytes together. -/
theorem deliver_taken (s : Sink) (pieces : List Bytes) :
    (s.deliver pieces).taken = s.share pieces.flatten := by
  induction pieces generalizing s with
  | nil => cases s with | mk room whenFull => cases room <;> simp [deliver, share]
  | cons piece rest ih =>
    cases h : s.fits piece with
    | true => simp [deliver, h, ih, share_append_of_fits h]
    | false => simp [deliver, h, share_append_of_not_fits h]

theorem deliver_failure (s : Sink) (pieces : List Bytes) :
    (s.deliver pieces).failure = if s.fits pieces.flatten then none else some s.whenFull := by
  induction pieces generalizing s with
  | nil => cases s with | mk room whenFull => cases room <;> simp [deliver, fits]
  | cons piece rest ih =>
    cases h : s.fits piece <;> simp [deliver, h, ih, fits_append]

end Sink

def bytePieces (kinds : Registry) : List Bytes :=
  (pieces kinds).map fun p => Utf8.encode p.toList

def bytes (kinds : Registry) : Bytes := (bytePieces kinds).flatten

def deliver (kinds : Registry) (s : Sink) : Delivery := s.deliver (bytePieces kinds)

end TreeKinds.Definitions
