import Mathlib.Data.List.Nodup
import TreeKinds.Description.Load
import TreeKinds.Proofs.Description.Grammar
import TreeKinds.Proofs.Text.Lines

/-! The declarations of a description, line by line, with their numbers and with their literals as
they are written. -/
namespace TreeKinds.Description

open Text

/-! ### The lines of a description -/

/-- `ls` are the lines of a text; a byte order mark at its beginning belongs to none of them. -/
inductive HasLines (text : String) (ls : List (List Char)) : Prop
  | marked {s : List Char} : text.toList = '\ufeff' :: s → LinesOf s ls → HasLines text ls
  | plain : text.toList.head? ≠ some '\ufeff' → LinesOf text.toList ls → HasLines text ls

theorem dropByteOrderMark_mark (s : List Char) : dropByteOrderMark ('\ufeff' :: s) = s := by
  simp [dropByteOrderMark, byteOrderMark]

theorem dropByteOrderMark_of_head?_ne {s : List Char} (h : s.head? ≠ some '\ufeff') :
    dropByteOrderMark s = s := by
  cases s with
  | nil => rfl
  | cons c s =>
    have hc : c ≠ byteOrderMark := fun e => h (by rw [e]; rfl)
    rw [dropByteOrderMark, if_neg hc]

theorem hasLines_iff {text : String} {ls : List (List Char)} :
    HasLines text ls ↔ lines (dropByteOrderMark text.toList) = ls := by
  constructor
  · rintro (⟨h, hl⟩ | ⟨h, hl⟩)
    · rw [h, dropByteOrderMark_mark, hl.lines_eq]
    · rw [dropByteOrderMark_of_head?_ne h, hl.lines_eq]
  · intro h
    by_cases hm : text.toList.head? = some '\ufeff'
    · obtain ⟨s, hs⟩ := List.head?_eq_some_iff.1 hm
      rw [hs, dropByteOrderMark_mark] at h
      exact .marked hs (linesOf_iff.2 h)
    · rw [dropByteOrderMark_of_head?_ne hm] at h
      exact .plain hm (linesOf_iff.2 h)

theorem exists_hasLines (text : String) : ∃ ls, HasLines text ls :=
  ⟨_, hasLines_iff.2 rfl⟩

/-- A text has one list of lines. -/
theorem HasLines.unique {text : String} {ls ls' : List (List Char)} (h : HasLines text ls)
    (h' : HasLines text ls') : ls = ls' :=
  (hasLines_iff.1 h).symm.trans (hasLines_iff.1 h')

theorem HasLines.not_mem {text : String} {ls : List (List Char)} (h : HasLines text ls) :
    ∀ l ∈ ls, '\n' ∉ l := by
  obtain ⟨-, hl⟩ | ⟨-, hl⟩ := h
  · exact hl.not_mem
  · exact hl.not_mem

/-! ### One declaration -/

theorem Declares.literal_eq {line name literal friendlyName : List Char}
    (h : Declares line name literal friendlyName) : literal = Literal.quote friendlyName := by
  obtain ⟨-, -, -, -, hs, -⟩ := h
  rw [spells_iff.1 hs, Literal.quote]

theorem Declares.isName {line name literal friendlyName : List Char}
    (h : Declares line name literal friendlyName) : Name name := by
  obtain ⟨-, hn, -⟩ := h
  exact hn

theorem Declares.read_eq {line name literal friendlyName : List Char}
    (h : Declares line name literal friendlyName) : Declaration.read line =
      .ok (some ⟨String.ofList name, String.ofList friendlyName⟩) :=
  read_eq_ok_some_iff.2 ⟨name, literal, friendlyName, h, rfl⟩

/-- A line declares at most one kind. -/
theorem Declares.unique {line name literal friendlyName name' literal' friendlyName' : List Char}
    (h : Declares line name literal friendlyName)
    (h' : Declares line name' literal' friendlyName') :
    name' = name ∧ literal' = literal ∧ friendlyName' = friendlyName := by
  have hr := h'.read_eq.symm.trans h.read_eq
  simp only [Except.ok.injEq, Option.some.injEq, Declaration.mk.injEq, String.ofList_inj] at hr
  obtain ⟨hn, hf⟩ := hr
  exact ⟨hn, by rw [h.literal_eq, h'.literal_eq, hf], hf⟩

theorem Declares.not_void {line name literal friendlyName : List Char}
    (h : Declares line name literal friendlyName) : ¬Void line := by
  intro hv
  have hr := h.read_eq.symm.trans (read_eq_ok_none_iff.2 hv)
  cases hr

/-! ### All declarations -/

/-- A declaration as it stands in a description: the literal is the friendly name as it is written,
with its quotes. -/
structure Entry where
  line : Nat
  name : List Char
  literal : List Char
  friendlyName : List Char
  deriving DecidableEq, Repr

def Entry.kind (e : Entry) : Kind := ⟨String.ofList e.name, String.ofList e.friendlyName, e.line⟩

/-- The declarations on the lines `ls` from top to bottom; the first line has the number `n`. -/
inductive Entries : (n : Nat) → (ls : List (List Char)) → List Entry → Prop
  | nil (n : Nat) : Entries n [] []
  | void {n : Nat} {l : List Char} {ls : List (List Char)} {es : List Entry} : Void l →
      Entries (n + 1) ls es → Entries n (l :: ls) es
  | declaration {n : Nat} {l name literal friendlyName : List Char} {ls : List (List Char)}
      {es : List Entry} : Declares l name literal friendlyName → Entries (n + 1) ls es →
      Entries n (l :: ls) (⟨n, name, literal, friendlyName⟩ :: es)

theorem Entries.wellFormed {n : Nat} {ls : List (List Char)} {es : List Entry}
    (h : Entries n ls es) : ∀ l ∈ ls, WellFormed l := by
  induction h with
  | nil => simp
  | void hv _ ih => exact List.forall_mem_cons.2 ⟨.inl hv, ih⟩
  | declaration hd _ ih => exact List.forall_mem_cons.2 ⟨.inr ⟨_, _, _, hd⟩, ih⟩

theorem exists_entries {ls : List (List Char)} (h : ∀ l ∈ ls, WellFormed l) (n : Nat) :
    ∃ es, Entries n ls es := by
  induction ls generalizing n with
  | nil => exact ⟨[], .nil n⟩
  | cons l ls ih =>
    obtain ⟨hl, hls⟩ := List.forall_mem_cons.1 h
    obtain ⟨es, hes⟩ := ih hls (n + 1)
    obtain hv | ⟨name, literal, friendlyName, hd⟩ := hl
    · exact ⟨es, .void hv hes⟩
    · exact ⟨_, .declaration hd hes⟩

/-- The entries are the declarations on the numbered lines. -/
theorem Entries.mem_iff {n : Nat} {ls : List (List Char)} {es : List Entry} (h : Entries n ls es)
    {e : Entry} : e ∈ es ↔
      ∃ l, (l, e.line) ∈ ls.zipIdx n ∧ Declares l e.name e.literal e.friendlyName := by
  induction h with
  | nil => simp
  | void hv _ ih =>
    rw [ih, List.zipIdx_cons]
    constructor
    · rintro ⟨l, hl, hd⟩
      exact ⟨l, List.mem_cons_of_mem _ hl, hd⟩
    · rintro ⟨l, hl, hd⟩
      rcases List.mem_cons.1 hl with hl | hl
      · cases hl
        exact absurd hv hd.not_void
      · exact ⟨l, hl, hd⟩
  | declaration hd _ ih =>
    rw [List.mem_cons, ih, List.zipIdx_cons]
    constructor
    · rintro (rfl | ⟨l, hl, hd'⟩)
      · exact ⟨_, List.mem_cons_self, hd⟩
      · exact ⟨l, List.mem_cons_of_mem _ hl, hd'⟩
    · rintro ⟨l, hl, hd'⟩
      rcases List.mem_cons.1 hl with hl | hl
      · obtain ⟨eline, ename, eliteral, efriendlyName⟩ := e
        cases hl
        obtain ⟨rfl, rfl, rfl⟩ := hd.unique hd'
        exact .inl rfl
      · exact .inr ⟨l, hl, hd'⟩

theorem Entries.le_line {n : Nat} {ls : List (List Char)} {es : List Entry} (h : Entries n ls es) :
    ∀ e ∈ es, n ≤ e.line := by
  intro e he
  obtain ⟨l, hl, -⟩ := h.mem_iff.1 he
  exact List.le_snd_of_mem_zipIdx hl

theorem Entries.line_lt {n : Nat} {ls : List (List Char)} {es : List Entry} (h : Entries n ls es) :
    ∀ e ∈ es, e.line < n + ls.length := by
  intro e he
  obtain ⟨l, hl, -⟩ := h.mem_iff.1 he
  exact List.snd_lt_add_of_mem_zipIdx hl

/-- Line numbers go up. -/
theorem Entries.pairwise_line {n : Nat} {ls : List (List Char)} {es : List Entry}
    (h : Entries n ls es) : es.Pairwise (fun a b => a.line < b.line) := by
  induction h with
  | nil => exact .nil
  | void _ _ ih => exact ih
  | declaration _ he ih => exact .cons (fun e hm => he.le_line e hm) ih

/-- The number of the line after some lines, counted from the first or the second of them. -/
theorem add_length_cons (n : Nat) (l : List Char) (ls : List (List Char)) :
    n + (l :: ls).length = n + 1 + ls.length := by
  rw [List.length_cons]
  omega

theorem Entries.append {n : Nat} {ls ls' : List (List Char)} {es es' : List Entry}
    (h : Entries n ls es) (h' : Entries (n + ls.length) ls' es') :
    Entries n (ls ++ ls') (es ++ es') := by
  induction h with
  | nil => simpa using h'
  | @void n l ls es hv _ ih =>
    refine .void hv (ih ?_)
    rwa [add_length_cons] at h'
  | @declaration n l name literal friendlyName ls es hd _ ih =>
    refine .declaration hd (ih ?_)
    rwa [add_length_cons] at h'

/-! ### Names -/

/-- Line `k` declares `name`; lines are counted from one. -/
def DeclaredAt (ls : List (List Char)) (k : Nat) (name : List Char) : Prop :=
  ∃ l literal friendlyName, (l, k) ∈ ls.zipIdx 1 ∧ Declares l name literal friendlyName

/-- No two lines declare the same name. -/
def DistinctNames (ls : List (List Char)) : Prop :=
  ∀ j k name, DeclaredAt ls j name → DeclaredAt ls k name → j = k

theorem Entries.declaredAt_iff {ls : List (List Char)} {es : List Entry} (h : Entries 1 ls es)
    {k : Nat} {name : List Char} :
    DeclaredAt ls k name ↔ ∃ e ∈ es, e.line = k ∧ e.name = name := by
  constructor
  · rintro ⟨l, literal, friendlyName, hl, hd⟩
    exact ⟨⟨k, name, literal, friendlyName⟩, h.mem_iff.2 ⟨l, hl, hd⟩, rfl, rfl⟩
  · rintro ⟨e, he, rfl, rfl⟩
    obtain ⟨l, hl, hd⟩ := h.mem_iff.1 he
    exact ⟨l, e.literal, e.friendlyName, hl, hd⟩

theorem names_map_kind (es : List Entry) :
    (es.map Entry.kind).map Kind.name = (es.map Entry.name).map String.ofList := by
  rw [List.map_map, List.map_map]
  rfl

/-- Names occur once in a registry when no two lines declare the same one. -/
theorem Entries.nodup_iff {ls : List (List Char)} {es : List Entry} (h : Entries 1 ls es) :
    ((es.map Entry.kind).map Kind.name).Nodup ↔ DistinctNames ls := by
  rw [names_map_kind, List.nodup_map_iff fun _ _ => String.ofList_injective]
  constructor
  · intro hn j k name hj hk
    obtain ⟨a, ha, rfl, hna⟩ := h.declaredAt_iff.1 hj
    obtain ⟨b, hb, rfl, hnb⟩ := h.declaredAt_iff.1 hk
    rw [List.inj_on_of_nodup_map hn ha hb (hna.trans hnb.symm)]
  · intro hd
    rw [List.Nodup, List.pairwise_map]
    refine h.pairwise_line.imp_of_mem fun {a b} ha hb hlt hname => ?_
    have hline := hd a.line b.line a.name (h.declaredAt_iff.2 ⟨a, ha, rfl, rfl⟩)
      (h.declaredAt_iff.2 ⟨b, hb, rfl, hname.symm⟩)
    omega

end TreeKinds.Description
