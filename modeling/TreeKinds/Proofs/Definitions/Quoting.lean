import Mathlib.Logic.ExistsUnique
import TreeKinds.Definitions.Sink

/-! Friendly names between quotes. Definitions are written with them and descriptions are read for
them. Proved: a text is read from its literal, whatever follows it, and from nothing else, so that
it has one spelling and its literal ends in the definitions where it was closed. -/
namespace TreeKinds.Literal

/-! ### Literals -/

theorem read_eq_ok_iff {i text rest : List Char} :
    read i = .ok (text, rest) ↔ i = quote text ++ rest := by
  have hquote : quote text ++ rest = '"' :: (escape text ++ '"' :: rest) := by
    rw [quote, List.cons_append, List.append_assoc, List.singleton_append]
  rw [hquote]
  constructor
  · intro h
    rw [read.eq_def] at h
    split at h
    next s => rw [eq_escape_of_readBody h]
    next => cases h
  · rintro rfl
    rw [read_cons_quote, readBody_escape]

/-- A spelling between its quotes. -/
def enclose (spelling : String) : String := "\"" ++ spelling ++ "\""

theorem toList_enclose (spelling : String) :
    (enclose spelling).toList = '"' :: (spelling.toList ++ ['"']) := by
  have hmark : "\"".toList = ['"'] := rfl
  rw [enclose, String.toList_append, String.toList_append, hmark, List.append_assoc,
    List.singleton_append]

theorem enclose_inj {spelling spelling' : String} :
    enclose spelling = enclose spelling' ↔ spelling = spelling' := by
  rw [← String.toList_inj, toList_enclose, toList_enclose, List.cons_inj_right,
    List.append_left_inj, String.toList_inj]

def literal (text : String) : String := enclose (spell text).text

theorem toList_literal (text : String) : (literal text).toList = quote text.toList := by
  rw [literal, toList_enclose, spell_text, quote]

/-- A text is read from its literal and from nothing else. -/
theorem read_eq_ok_iff_literal {i text rest : String} :
    read i.toList = .ok (text.toList, rest.toList) ↔ i = literal text ++ rest := by
  rw [read_eq_ok_iff, ← toList_literal, ← String.toList_append, String.toList_inj]

theorem read_literal (text : String) : read (literal text).toList = .ok (text.toList, []) := by
  rw [read_eq_ok_iff, toList_literal, List.append_nil]

theorem spell_injective : Function.Injective fun text => (spell text).text := by
  intro text text' h
  have hliteral : literal text = literal text' := congrArg enclose h
  have hread := read_literal text
  rw [hliteral, read_literal text'] at hread
  simp only [Except.ok.injEq, Prod.mk.injEq, String.toList_inj, and_true] at hread
  exact hread.symm

theorem spelling_unique (text : String) :
    ∃! spelling, read (enclose spelling).toList = .ok (text.toList, []) := by
  refine ⟨(spell text).text, read_literal text, fun spelling h => ?_⟩
  have hread : read (enclose spelling).toList = .ok (text.toList, []) := h
  rwa [read_eq_ok_iff, List.append_nil, ← toList_literal, String.toList_inj, literal,
    enclose_inj] at hread

/-! ### Literals in definitions -/

/-- The definitions up to the literal of `k`, which follows `kinds`. -/
def beforeLiteral (kinds : Registry) (k : Kind) : String :=
  Definitions.text kinds ++ Definitions.entryName ++ "(" ++ k.name ++ ", "

/-- The definitions after the literal of a kind, with those of `kinds` on further lines. -/
def afterLiteral (kinds : Registry) : String :=
  ")\n" ++ String.join (kinds.flatMap Definitions.entryPieces)

theorem text_append_cons (kinds : Registry) (k : Kind) (kinds' : Registry) :
    Definitions.text (kinds ++ k :: kinds') =
      beforeLiteral kinds k ++ (literal k.friendlyName ++ afterLiteral kinds') := by
  rw [← String.toList_inj]
  simp [Definitions.text, Definitions.pieces, Definitions.entryPieces, beforeLiteral, afterLiteral,
    literal, enclose]

/-- A text is read from its literal, whatever follows, and from nothing else. So no two texts are
spelled alike, a text has one spelling, and a literal in the definitions is read up to the quote
that closes it. -/
theorem reads_exactly_literals :
    (∀ i text rest : String,
      read i.toList = .ok (text.toList, rest.toList) ↔ i = literal text ++ rest) ∧
    (Function.Injective fun text => (spell text).text) ∧
    (∀ text : String, ∃! spelling, read (enclose spelling).toList = .ok (text.toList, [])) ∧
    ∀ kinds k kinds', Definitions.text (kinds ++ k :: kinds') =
        beforeLiteral kinds k ++ (literal k.friendlyName ++ afterLiteral kinds') ∧
      read (literal k.friendlyName ++ afterLiteral kinds').toList =
        .ok (k.friendlyName.toList, (afterLiteral kinds').toList) := by
  refine ⟨fun i text rest => read_eq_ok_iff_literal, spell_injective, spelling_unique, ?_⟩
  intro kinds k kinds'
  exact ⟨text_append_cons kinds k kinds', read_eq_ok_iff_literal.2 rfl⟩

/-- Quotes and backslashes next to each other, and more text behind the literal. -/
example : read "\"\\\\\\\"\" \"\"".toList = .ok ("\\\"".toList, " \"\"".toList) := rfl

end TreeKinds.Literal
