import TreeKinds.Proofs.Definitions.Artifact

/-! From the artifact back to a description. Each line after the banner is turned into the line of
a declaration. Proved: the description found in the artifact of a loaded registry has the same
kinds on the lines from one on, so the artifact determines all of a registry but its lines. -/
namespace TreeKinds.Definitions

open Text Description

/-! ### The description in an artifact -/

/-- Turns the first comma with a space after it into that space. -/
def dropComma : List Char → List Char
  | [] => []
  | c :: s => if c = ',' ∧ s.head? = some ' ' then s else c :: dropComma s

/-- The declaration of what a line of an artifact defines. -/
def declarationOf (line : List Char) : List Char :=
  dropComma (line.drop (entryName.length + 1)).dropLast

/-- The description in an artifact: the declarations of its lines, but for those of the banner. -/
def redescribe (artifact : String) : String :=
  String.ofList ((cut (artifact.toList.drop banner.length)).1.flatMap
    fun line => declarationOf line ++ ['\n'])

theorem dropComma_append {s : List Char} (h : ',' ∉ s) (t : List Char) :
    dropComma (s ++ ',' :: ' ' :: t) = s ++ ' ' :: t := by
  induction s with
  | nil => simp [dropComma]
  | cons c s ih =>
    have hc : c ≠ ',' := fun e => h (e ▸ List.mem_cons_self)
    have hs : ',' ∉ s := fun m => h (List.mem_cons_of_mem _ m)
    rw [List.cons_append, dropComma, if_neg (fun e => hc e.1), ih hs, List.cons_append]

theorem declarationOf_definition {name : List Char} (h : Name name) (literal : List Char) :
    declarationOf (definition name literal) = name ++ ' ' :: literal := by
  have hcomma : ',' ∉ name := h.not_mem (by unfold NameRest NameStart; decide)
  have hlen : (entryName.toList ++ ['(']).length = entryName.length + 1 := by
    rw [List.length_append, String.length_toList, List.length_singleton]
  have hdrop : (definition name literal).drop (entryName.length + 1) =
      name ++ ',' :: ' ' :: literal ++ [')'] := by
    rw [definition, List.append_assoc, List.append_assoc, List.append_assoc, List.drop_left' hlen]
    simp
  rw [declarationOf, hdrop, List.dropLast_concat, dropComma_append hcomma]

theorem declarationOf_definitionLine {k : Kind} (h : isName k.name.toList = true) :
    declarationOf (definitionLine k) = declarationLine k :=
  declarationOf_definition (isName_iff.1 h) _

/-- In the artifact of a valid registry each kind is declared again, in order. -/
theorem redescribe_text {kinds : Registry} (h : kinds.Valid) :
    redescribe (text kinds) =
      String.ofList ((kinds.map declarationLine).flatMap (· ++ ['\n'])) := by
  have hfeed : ∀ l ∈ kinds.map definitionLine, '\n' ∉ l := by
    intro l hl
    obtain ⟨k, hk, rfl⟩ := List.mem_map.1 hl
    refine feed_not_mem_definition (isName_iff.1 (h.names k hk)) fun hm => ?_
    exact h.friendly k hk (feed_mem_quote_iff.1 hm)
  have hdrop : (text kinds).toList.drop banner.length =
      (kinds.map definitionLine).flatMap (· ++ ['\n']) := by
    rw [text_toList, ← String.length_toList, List.drop_left]
  have hlines : (kinds.map definitionLine).map declarationOf = kinds.map declarationLine := by
    rw [List.map_map]
    exact List.map_congr_left fun k hk => declarationOf_definitionLine (h.names k hk)
  rw [redescribe, hdrop, cut_flatMap_feed hfeed, ← hlines, List.flatMap_map (f := declarationOf)]

/-! ### Kinds without their lines -/

/-- What a registry says apart from lines. -/
def labels (kinds : Registry) : List (String × String) :=
  kinds.map fun k => (k.name, k.friendlyName)

/-- The same kinds on the lines from `n` on, one on each. -/
def renumber : (n : Nat) → Registry → Registry
  | _, [] => []
  | n, k :: kinds => { k with line := n } :: renumber (n + 1) kinds

theorem labels_renumber (n : Nat) (kinds : Registry) :
    labels (renumber n kinds) = labels kinds := by
  induction kinds generalizing n with
  | nil => rfl
  | cons k kinds ih => exact congrArg ((k.name, k.friendlyName) :: ·) (ih (n + 1))

theorem lines_renumber (n : Nat) (kinds : Registry) :
    (renumber n kinds).map Kind.line = List.range' n kinds.length := by
  induction kinds generalizing n with
  | nil => rfl
  | cons k kinds ih => rw [renumber, List.map_cons, ih, List.length_cons, List.range'_succ]

theorem describedLines_renumber (n : Nat) (kinds : Registry) :
    describedLines n (renumber n kinds) = kinds.map declarationLine := by
  induction kinds generalizing n with
  | nil => rfl
  | cons k kinds ih =>
    rw [renumber, describedLines, Nat.sub_self, ih]
    rfl

theorem mem_renumber {n : Nat} {kinds : Registry} {k : Kind} (h : k ∈ renumber n kinds) :
    ∃ k' ∈ kinds, k'.name = k.name ∧ k'.friendlyName = k.friendlyName := by
  have hl : (k.name, k.friendlyName) ∈ labels kinds := by
    rw [← labels_renumber n kinds]
    exact List.mem_map_of_mem h
  obtain ⟨k', hk', he⟩ := List.mem_map.1 hl
  exact ⟨k', hk', Prod.mk.inj he⟩

theorem names_eq_labels (kinds : Registry) : kinds.map Kind.name = (labels kinds).map Prod.fst := by
  rw [labels, List.map_map]
  rfl

theorem valid_renumber {kinds : Registry} (h : kinds.Valid) : (renumber 1 kinds).Valid := by
  constructor
  · intro k hk
    obtain ⟨k', hk', hn, -⟩ := mem_renumber hk
    exact hn ▸ h.names k' hk'
  · rw [names_eq_labels, labels_renumber, ← names_eq_labels]
    exact h.distinct
  · intro k hk
    obtain ⟨k', hk', -, hf⟩ := mem_renumber hk
    exact hf ▸ h.friendly k' hk'
  · intro k hk
    have hline : k.line ∈ List.range' 1 kinds.length :=
      lines_renumber 1 kinds ▸ List.mem_map_of_mem hk
    exact (List.mem_range'_1.1 hline).1
  · rw [lines_renumber]
    exact List.pairwise_lt_range'

/-- The lines of a registry leave no trace in its artifact. -/
theorem bytes_eq_of_labels_eq {kinds kinds' : Registry} (h : labels kinds = labels kinds') :
    bytes kinds = bytes kinds' := by
  have hpieces (kinds : Registry) : pieces kinds =
      banner :: (labels kinds).flatMap fun l => entryPieces ⟨l.1, l.2, 0⟩ := by
    rw [pieces, labels, List.flatMap_map]
    rfl
  rw [bytes, bytes, bytePieces, bytePieces, hpieces, hpieces, h]

/-! ### The round trip -/

theorem load_redescribe {kinds : Registry} (h : kinds.Valid) :
    load (redescribe (text kinds)) = .ok (renumber 1 kinds) := by
  rw [redescribe_text h, ← describedLines_renumber 1, ← describe]
  exact load_describe (valid_renumber h)

theorem text?_bytes (kinds : Registry) : Utf8.text? (bytes kinds) = some (text kinds) := by
  rw [bytes_eq_encode, Utf8.text?_encode, String.ofList_toList]

theorem labels_eq_of_bytes_eq {kinds kinds' : Registry} (h : kinds.Valid) (h' : kinds'.Valid)
    (hb : bytes kinds = bytes kinds') : labels kinds = labels kinds' := by
  have htext : text kinds = text kinds' := by
    have hsome := congrArg Utf8.text? hb
    rw [text?_bytes, text?_bytes] at hsome
    exact Option.some.inj hsome
  have hload := load_redescribe h
  rw [htext, load_redescribe h'] at hload
  rw [← labels_renumber 1 kinds, ← labels_renumber 1 kinds', Except.ok.inj hload]

/-- The artifact of a loaded registry has a description of it, and so determines all of it but the
lines. -/
theorem bytes_determine_labels {text : String} {kinds : Registry} (h : load text = .ok kinds) :
    (∃ artifact again, Utf8.text? (bytes kinds) = some artifact ∧
      load (redescribe artifact) = .ok again ∧ labels again = labels kinds ∧
      again.map Kind.line = List.range' 1 kinds.length ∧ bytes again = bytes kinds) ∧
    ∀ text' kinds', load text' = .ok kinds' →
      (bytes kinds = bytes kinds' ↔ labels kinds = labels kinds') := by
  have hv := valid_of_load h
  constructor
  · refine ⟨_, renumber 1 kinds, text?_bytes kinds, load_redescribe hv, ?_, ?_, ?_⟩
    · exact labels_renumber 1 kinds
    · exact lines_renumber 1 kinds
    · exact bytes_eq_of_labels_eq (labels_renumber 1 kinds)
  · intro text' kinds' h'
    constructor
    · exact labels_eq_of_bytes_eq hv (valid_of_load h')
    · exact bytes_eq_of_labels_eq

/-- Friendly names that look like the end of a line, like a comment and like a mark. -/
theorem bytes_determine_labels_lookalikes : ∃ text kinds,
    text = "a \"), b\"\n\nC \"\\\\\\\")\"#\nd \"# \ufeff\r\"" ∧
    kinds = [⟨"a", "), b", 1⟩, ⟨"C", "\\\")", 3⟩, ⟨"d", "# \ufeff\r", 4⟩] ∧
    load text = .ok kinds ∧
    (∃ artifact again, Utf8.text? (bytes kinds) = some artifact ∧
      load (redescribe artifact) = .ok again ∧ labels again = labels kinds ∧
      again.map Kind.line = List.range' 1 kinds.length ∧ bytes again = bytes kinds) ∧
    ∀ text' kinds', load text' = .ok kinds' →
      (bytes kinds = bytes kinds' ↔ labels kinds = labels kinds') := by
  have h : load "a \"), b\"\n\nC \"\\\\\\\")\"#\nd \"# \ufeff\r\"" =
      .ok [⟨"a", "), b", 1⟩, ⟨"C", "\\\")", 3⟩, ⟨"d", "# \ufeff\r", 4⟩] := by decide +kernel
  exact ⟨_, _, rfl, rfl, h, bytes_determine_labels h⟩

end TreeKinds.Definitions
