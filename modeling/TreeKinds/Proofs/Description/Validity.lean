import TreeKinds.Proofs.Description.Acceptance

/-! Which registries descriptions have. Proved: what is loaded is valid, and every valid registry is
loaded from the description in which each kind is declared on its own line. -/
namespace TreeKinds.Description

open Text

/-! ### Loaded registries are valid -/

theorem Entries.name {n : Nat} {ls : List (List Char)} {es : List Entry} (h : Entries n ls es) :
    ∀ e ∈ es, Name e.name := by
  intro e he
  obtain ⟨l, -, hd⟩ := h.mem_iff.1 he
  exact hd.isName

/-- A literal holds no character that its line does not hold. -/
theorem Declares.mem_line {line name literal friendlyName : List Char}
    (h : Declares line name literal friendlyName) {c : Char} (hc : c ∈ literal) : c ∈ line := by
  obtain ⟨-, -, -, -, -, -⟩ := h
  exact List.mem_append_left _ (List.mem_append_right _ hc)

theorem Entries.not_mem_literal {n : Nat} {ls : List (List Char)} {es : List Entry}
    (h : Entries n ls es) {c : Char} (hc : ∀ l ∈ ls, c ∉ l) : ∀ e ∈ es, c ∉ e.literal := by
  intro e he hm
  obtain ⟨l, hl, hd⟩ := h.mem_iff.1 he
  exact hc l (List.fst_mem_of_mem_zipIdx hl) (hd.mem_line hm)

/-- A literal stays on its line when its friendly name does. -/
theorem feed_mem_quote_iff {s : List Char} : '\n' ∈ Literal.quote s ↔ '\n' ∈ s :=
  Literal.mem_quote_iff (by decide) (by decide)

theorem valid_of_load {text : String} {kinds : Registry} (h : load text = .ok kinds) :
    kinds.Valid := by
  obtain ⟨ls, hls⟩ := exists_hasLines text
  obtain ⟨es, he, hd, rfl⟩ := (load_eq_ok_iff hls).1 h
  constructor
  · intro k hk
    obtain ⟨e, hm, rfl⟩ := List.mem_map.1 hk
    rw [Entry.kind, String.toList_ofList]
    exact isName_iff.2 (he.name e hm)
  · exact he.nodup_iff.2 hd
  · intro k hk
    obtain ⟨e, hm, rfl⟩ := List.mem_map.1 hk
    rw [Entry.kind, String.toList_ofList]
    intro hfeed
    obtain ⟨l, hl, hdecl⟩ := he.mem_iff.1 hm
    refine he.not_mem_literal hls.not_mem e hm ?_
    rw [hdecl.literal_eq]
    exact feed_mem_quote_iff.2 hfeed
  · intro k hk
    obtain ⟨e, hm, rfl⟩ := List.mem_map.1 hk
    exact he.le_line e hm
  · rw [List.map_map]
    exact List.pairwise_map.2 he.pairwise_line

/-! ### Valid registries are loaded -/

/-- The line that declares a kind. -/
def declarationLine (k : Kind) : List Char :=
  k.name.toList ++ ' ' :: Literal.quote k.friendlyName.toList

/-- Lines with the given kinds on them, in order; the first line has the number `n`, and lines on
which no kind belongs are empty. -/
def describedLines : (n : Nat) → Registry → List (List Char)
  | _, [] => []
  | n, k :: kinds =>
    List.replicate (k.line - n) [] ++ declarationLine k :: describedLines (k.line + 1) kinds

/-- A description of a registry. -/
def describe (kinds : Registry) : List Char := (describedLines 1 kinds).flatMap (· ++ ['\n'])

def Entry.ofKind (k : Kind) : Entry :=
  ⟨k.line, k.name.toList, Literal.quote k.friendlyName.toList, k.friendlyName.toList⟩

theorem kind_ofKind (k : Kind) : (Entry.ofKind k).kind = k := by
  simp [Entry.ofKind, Entry.kind]

theorem declares_declarationLine {k : Kind} (h : isName k.name.toList = true) :
    Declares (declarationLine k) k.name.toList (Literal.quote k.friendlyName.toList)
      k.friendlyName.toList := by
  have hline : declarationLine k = [] ++ k.name.toList ++ [' '] ++
      ('"' :: (Literal.escape k.friendlyName.toList ++ ['"'])) ++ [] := by
    simp [declarationLine, Literal.quote]
  rw [hline]
  exact .intro (by simp) (isName_iff.1 h) (by simp [IsGapChar]) (by simp) (spells_escape _)
    ⟨[], [], rfl, by simp, .inl rfl⟩

/-- A line of a description of a registry is empty, or it declares one of its kinds. -/
theorem mem_describedLines {n : Nat} {kinds : Registry} {l : List Char}
    (h : l ∈ describedLines n kinds) : l = [] ∨ ∃ k ∈ kinds, l = declarationLine k := by
  induction kinds generalizing n with
  | nil => cases h
  | cons k kinds ih =>
    rw [describedLines, List.mem_append, List.mem_cons] at h
    rcases h with h | rfl | h
    · exact .inl (List.eq_of_mem_replicate h)
    · exact .inr ⟨k, List.mem_cons_self, rfl⟩
    · rcases ih h with rfl | ⟨k', hk', rfl⟩
      · exact .inl rfl
      · exact .inr ⟨k', List.mem_cons_of_mem _ hk', rfl⟩

theorem entries_replicate_nil (n m : Nat) : Entries n (List.replicate m []) [] := by
  induction m generalizing n with
  | zero => exact .nil n
  | succ m ih => exact .void ⟨[], [], rfl, by simp, .inl rfl⟩ (ih (n + 1))

theorem entries_describedLines {n : Nat} {kinds : Registry}
    (hn : ∀ k ∈ kinds, isName k.name.toList = true) (hl : ∀ k ∈ kinds, n ≤ k.line)
    (hp : (kinds.map Kind.line).Pairwise (· < ·)) :
    Entries n (describedLines n kinds) (kinds.map Entry.ofKind) := by
  induction kinds generalizing n with
  | nil => exact .nil n
  | cons k kinds ih =>
    obtain ⟨hnk, hnks⟩ := List.forall_mem_cons.1 hn
    obtain ⟨hlk, -⟩ := List.forall_mem_cons.1 hl
    obtain ⟨hpk, hpks⟩ := List.pairwise_cons.1 hp
    have hrest := ih hnks (fun k' hk' => hpk _ (List.mem_map_of_mem hk')) hpks
    refine (entries_replicate_nil n (k.line - n)).append ?_
    rw [List.length_replicate, Nat.add_sub_cancel' hlk]
    exact .declaration (declares_declarationLine hnk) hrest

theorem feed_not_mem_declarationLine {k : Kind} (hn : isName k.name.toList = true)
    (hf : '\n' ∉ k.friendlyName.toList) : '\n' ∉ declarationLine k := by
  have hname : '\n' ∉ k.name.toList :=
    (isName_iff.1 hn).not_mem (by unfold NameRest NameStart; decide)
  have hquote : '\n' ∉ Literal.quote k.friendlyName.toList := fun h =>
    hf (feed_mem_quote_iff.1 h)
  rw [declarationLine, List.mem_append, List.mem_cons]
  rintro (h | h | h)
  · exact hname h
  · exact absurd h (by decide)
  · exact hquote h

theorem getLast?_declarationLine (k : Kind) : (declarationLine k).getLast? = some '"' := by
  simp [declarationLine, Literal.quote, List.getLast?_append, List.getLast?_cons]

theorem head?_declarationLine_ne {k : Kind} (h : isName k.name.toList = true) :
    (declarationLine k).head? ≠ some '\ufeff' := by
  have hname := isName_iff.1 h
  rw [declarationLine]
  generalize k.name.toList = name at hname
  cases hname with
  | cons hs _ =>
    intro he
    cases he
    exact absurd hs (by unfold NameStart; decide)

theorem head?_describe_ne {kinds : Registry} (hn : ∀ k ∈ kinds, isName k.name.toList = true) :
    (describe kinds).head? ≠ some '\ufeff' := by
  rw [describe]
  cases hls : describedLines 1 kinds with
  | nil => simp
  | cons l ls =>
    have hl : l ∈ describedLines 1 kinds := hls ▸ List.mem_cons_self
    rw [List.flatMap_cons, List.append_assoc, List.head?_append]
    rcases mem_describedLines hl with rfl | ⟨k, hk, rfl⟩
    · simp
    · intro he
      rcases Option.or_eq_some_iff.1 he with he | ⟨he, -⟩
      · exact head?_declarationLine_ne (hn k hk) he
      · simp [declarationLine] at he

theorem hasLines_describe {kinds : Registry} (hn : ∀ k ∈ kinds, isName k.name.toList = true)
    (hf : ∀ k ∈ kinds, '\n' ∉ k.friendlyName.toList) :
    HasLines (String.ofList (describe kinds)) (describedLines 1 kinds) := by
  rw [hasLines_iff, String.toList_ofList, dropByteOrderMark_of_head?_ne (head?_describe_ne hn)]
  refine lines_flatMap_feed (fun l hl => ?_) (fun l hl => ?_)
  · rcases mem_describedLines hl with rfl | ⟨k, hk, rfl⟩
    · exact List.not_mem_nil
    · exact feed_not_mem_declarationLine (hn k hk) (hf k hk)
  · rcases mem_describedLines hl with rfl | ⟨k, hk, rfl⟩
    · simp
    · simp [getLast?_declarationLine]

/-- A valid registry is loaded from its description. -/
theorem load_describe {kinds : Registry} (h : kinds.Valid) :
    load (String.ofList (describe kinds)) = .ok kinds := by
  have he := entries_describedLines h.names h.positive h.increasing
  have hk : (kinds.map Entry.ofKind).map Entry.kind = kinds := by
    rw [List.map_map]
    exact (List.map_congr_left fun k _ => kind_ofKind k).trans (List.map_id kinds)
  refine (load_eq_ok_iff (hasLines_describe h.names h.friendly)).2 ⟨_, he, ?_, hk.symm⟩
  rw [← he.nodup_iff, hk]
  exact h.distinct

/-! ### Which registries are loaded -/

/-- A loaded kind stands on a line of its description. -/
theorem line_le_length {text : String} {kinds : Registry} (h : load text = .ok kinds)
    {ls : List (List Char)} (hls : HasLines text ls) : ∀ k ∈ kinds, k.line ≤ ls.length := by
  obtain ⟨es, he, -, rfl⟩ := (load_eq_ok_iff hls).1 h
  intro k hk
  obtain ⟨e, hm, rfl⟩ := List.mem_map.1 hk
  have hlt : e.line < 1 + ls.length := he.line_lt e hm
  show e.line ≤ ls.length
  omega

theorem valid_iff {kinds : Registry} : kinds.Valid ↔
    (∀ k ∈ kinds, Name k.name.toList) ∧ (kinds.map Kind.name).Nodup ∧
      (∀ k ∈ kinds, '\n' ∉ k.friendlyName.toList) ∧ (∀ k ∈ kinds, 1 ≤ k.line) ∧
      (kinds.map Kind.line).Pairwise (· < ·) := by
  constructor
  · rintro ⟨hn, hd, hf, hp, hi⟩
    exact ⟨fun k hk => isName_iff.1 (hn k hk), hd, hf, hp, hi⟩
  · rintro ⟨hn, hd, hf, hp, hi⟩
    exact ⟨fun k hk => isName_iff.2 (hn k hk), hd, hf, hp, hi⟩

/-- A registry is loaded from some description if and only if it is valid, and its kinds then stand
on lines of the description. -/
theorem exists_load_iff (kinds : Registry) :
    ((∃ text, load text = .ok kinds) ↔
      (∀ k ∈ kinds, Name k.name.toList) ∧ (kinds.map Kind.name).Nodup ∧
        (∀ k ∈ kinds, '\n' ∉ k.friendlyName.toList) ∧ (∀ k ∈ kinds, 1 ≤ k.line) ∧
        (kinds.map Kind.line).Pairwise (· < ·)) ∧
      ∀ text, load text = .ok kinds →
        ∃ ls, HasLines text ls ∧ ∀ k ∈ kinds, k.line ≤ ls.length := by
  rw [← valid_iff]
  refine ⟨⟨?_, fun h => ⟨_, load_describe h⟩⟩, fun text h => ?_⟩
  · rintro ⟨text, h⟩
    exact valid_of_load h
  · obtain ⟨ls, hls⟩ := exists_hasLines text
    exact ⟨ls, hls, line_le_length h hls⟩

end TreeKinds.Description
