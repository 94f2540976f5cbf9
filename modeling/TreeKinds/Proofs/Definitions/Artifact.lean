import TreeKinds.Definitions.Sink
import TreeKinds.Proofs.Description.Validity

/-! The artifact of a registry, as characters and as lines. Proved: the artifact of a loaded
description is the banner and one line per declaration, in which the literal stands as it is
written in the description. -/
namespace TreeKinds.Definitions

open Text Description

/-! ### Lines of the artifact -/

/-- A line of the artifact, without the line feed that ends it. -/
def definition (name literal : List Char) : List Char :=
  entryName.toList ++ ['('] ++ name ++ [',', ' '] ++ literal ++ [')']

/-- The line on which a kind is defined. -/
def definitionLine (k : Kind) : List Char :=
  definition k.name.toList (Literal.quote k.friendlyName.toList)

theorem entryPieces_toList (k : Kind) :
    (entryPieces k).flatMap String.toList = definitionLine k ++ ['\n'] := by
  have hopen : ", \"".toList = [',', ' ', '"'] := rfl
  have hclose : "\")\n".toList = ['"', ')', '\n'] := rfl
  simp [entryPieces, definitionLine, definition, Literal.spell_text, Literal.quote, hopen, hclose]

/-- The artifact is the banner and the lines of the kinds, in order. -/
theorem text_toList (kinds : Registry) :
    (text kinds).toList = banner.toList ++ (kinds.map definitionLine).flatMap (· ++ ['\n']) := by
  rw [text, pieces, String.toList_join, List.flatMap_cons, List.flatMap_assoc, List.flatMap_map]
  simp only [entryPieces_toList]

theorem feed_not_mem_definition {name literal : List Char} (hn : Name name)
    (hl : '\n' ∉ literal) : '\n' ∉ definition name literal := by
  have hname : '\n' ∉ name := hn.not_mem (by unfold NameRest NameStart; decide)
  have hentry : '\n' ∉ entryName.toList := by decide
  simp [definition, hname, hentry, hl]

/-! ### Bytes of the artifact -/

theorem bytes_eq_encode (kinds : Registry) : bytes kinds = Utf8.encode (text kinds).toList := by
  rw [bytes, bytePieces, text, String.toList_join, ← List.flatMap_def, Utf8.encode,
    List.flatMap_assoc]
  rfl

/-- A writer with room for everything takes the whole artifact. -/
theorem deliver_of_fits {kinds : Registry} {s : Sink} (h : s.fits (bytes kinds) = true) :
    deliver kinds s = ⟨bytes kinds, none⟩ := by
  have htaken : (deliver kinds s).taken = bytes kinds :=
    (s.deliver_taken _).trans (Sink.share_of_fits h)
  have hfailure : (deliver kinds s).failure = none := by
    rw [deliver, Sink.deliver_failure, ← bytes, if_pos h]
  rw [← htaken, ← hfailure]

/-! ### From description to artifact -/

/-- The line that repeats a declaration, with its literal as it is written. -/
def verbatim (e : Entry) : List Char := definition e.name e.literal

theorem definitionLine_kind {n : Nat} {ls : List (List Char)} {es : List Entry}
    (h : Entries n ls es) : ∀ e ∈ es, definitionLine e.kind = verbatim e := by
  intro e he
  obtain ⟨l, -, hd⟩ := h.mem_iff.1 he
  rw [definitionLine, Entry.kind, String.toList_ofList, String.toList_ofList, verbatim,
    hd.literal_eq]

/-- The artifact of a loaded description repeats each of its declarations on a line of its own. -/
theorem deliver_verbatim {text : String} {kinds : Registry} (h : load text = .ok kinds) :
    ∃ ls es, HasLines text ls ∧ Entries 1 ls es ∧ es.map Entry.kind = kinds ∧
      (∀ s : Sink, s.fits (bytes kinds) = true → deliver kinds s =
        ⟨Utf8.encode (banner.toList ++ (es.map verbatim).flatMap (· ++ ['\n'])), none⟩) ∧
      ∀ e ∈ es, '\n' ∉ verbatim e := by
  obtain ⟨ls, hls⟩ := exists_hasLines text
  obtain ⟨es, he, -, rfl⟩ := (load_eq_ok_iff hls).1 h
  refine ⟨ls, es, hls, he, rfl, fun s hs => ?_, fun e hm => ?_⟩
  · have hlines : (es.map Entry.kind).map definitionLine = es.map verbatim := by
      rw [List.map_map]
      exact List.map_congr_left (definitionLine_kind he)
    rw [deliver_of_fits hs, bytes_eq_encode, text_toList, hlines]
  · exact feed_not_mem_definition (he.name e hm) (he.not_mem_literal hls.not_mem e hm)

/-- A registry whose description has a mark, carriage returns, comments and escapes. -/
theorem deliver_verbatim_escapes : ∃ text kinds,
    text = "\ufeff# kinds\r\nB\t\"a, \\\"b\\\\ #)\" # c\r\r\n\n  _9 \"\"" ∧
    kinds = [⟨"B", "a, \"b\\ #)", 2⟩, ⟨"_9", "", 4⟩] ∧ load text = .ok kinds ∧
    ∃ ls es, HasLines text ls ∧ Entries 1 ls es ∧ es.map Entry.kind = kinds ∧
      (∀ s : Sink, s.fits (bytes kinds) = true → deliver kinds s =
        ⟨Utf8.encode (banner.toList ++ (es.map verbatim).flatMap (· ++ ['\n'])), none⟩) ∧
      ∀ e ∈ es, '\n' ∉ verbatim e := by
  have h : load "\ufeff# kinds\r\nB\t\"a, \\\"b\\\\ #)\" # c\r\r\n\n  _9 \"\"" =
      .ok [⟨"B", "a, \"b\\ #)", 2⟩, ⟨"_9", "", 4⟩] := by decide +kernel
  exact ⟨_, _, rfl, rfl, h, deliver_verbatim h⟩

end TreeKinds.Definitions
