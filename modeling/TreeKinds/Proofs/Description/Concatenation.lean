import Mathlib.Data.Nat.Find
import TreeKinds.Proofs.Description.FirstFault
import TreeKinds.Proofs.Description.Validity

/-! A description below another one. The lines of the one above are counted first, and its names are
known already. Proved: what is loaded are the kinds of both, those of the second on lower lines, and
a name of the first that the second declares before its own first fault is refused there. -/
namespace TreeKinds.Text

/-! ### Lines -/

/-- A line feed ends every line of the text. -/
def Ended (s : List Char) : Prop := s = [] ∨ s.getLast? = some '\n'

theorem Ended.of_append {p s : List Char} (h : Ended (p ++ s)) : Ended s := by
  by_cases hs : s = []
  · exact .inl hs
  · obtain h | h := h
    · exact absurd (List.append_eq_nil_iff.1 h).2 hs
    · rw [List.getLast?_append_of_ne_nil _ hs] at h
      exact .inr h

theorem Ended.of_cons {c : Char} {s : List Char} (h : Ended (c :: s)) : Ended s :=
  Ended.of_append (p := [c]) h

theorem not_ended {s : List Char} (hs : s ≠ []) (hf : '\n' ∉ s) : ¬Ended s := by
  rintro (h | h)
  · exact hs h
  · exact hf (List.mem_of_getLast? h)

/-- No line goes on into the text below. -/
theorem LinesOf.append {s t : List Char} {ls ls' : List (List Char)} (h : LinesOf s ls)
    (he : Ended s) (h' : LinesOf t ls') : LinesOf (s ++ t) (ls ++ ls') := by
  induction h with
  | nil => exact h'
  | last hs hf _ => exact absurd he (not_ended hs hf)
  | line hf ht _ ih =>
    rw [List.append_assoc, List.cons_append, List.cons_append]
    exact .line hf ht (ih he.of_append.of_cons)

theorem LinesOf.length_eq {s : List Char} {ls : List (List Char)} (h : LinesOf s ls)
    (he : Ended s) : ls.length = s.count '\n' := by
  induction h with
  | nil => rfl
  | last hs hf _ => exact absurd he (not_ended hs hf)
  | line hf _ _ ih =>
    rw [List.length_cons, ih he.of_append.of_cons, List.count_append, List.count_eq_zero.2 hf,
      List.count_cons_self, Nat.zero_add]

end TreeKinds.Text

namespace TreeKinds

/-- The kind as it is declared below `n` further lines. -/
def Kind.shift (n : Nat) (k : Kind) : Kind := { k with line := k.line + n }

namespace Description

open Text

theorem HasLines.append {a b : String} {la lb : List (List Char)} (hla : HasLines a la)
    (ha : Ended a.toList) (hlb : HasLines b lb) (hb : b.toList.head? ≠ some '\ufeff') :
    HasLines (a ++ b) (la ++ lb) := by
  have hlb : LinesOf b.toList lb := by
    obtain ⟨hs, -⟩ | ⟨-, hlb⟩ := hlb
    · exact absurd (by rw [hs]; rfl) hb
    · exact hlb
  obtain @⟨s, hs, hla⟩ | ⟨hm, hla⟩ := hla
  · rw [hs] at ha
    have htext : (a ++ b).toList = '\ufeff' :: (s ++ b.toList) := by
      rw [String.toList_append, hs, List.cons_append]
    exact .marked htext (hla.append ha.of_cons hlb)
  · refine .plain ?_ ?_
    · rw [String.toList_append]
      exact head?_append_ne hm hb
    · rw [String.toList_append]
      exact hla.append ha hlb

/-- Every line of a text is counted by its line feed, and a byte order mark is no line. -/
theorem HasLines.length_eq {text : String} {ls : List (List Char)} (h : HasLines text ls)
    (he : Ended text.toList) : ls.length = text.toList.count '\n' := by
  obtain ⟨hs, hl⟩ | ⟨-, hl⟩ := h
  · rw [hs] at he ⊢
    rw [List.count_cons_of_ne (by decide)]
    exact hl.length_eq he.of_cons
  · exact hl.length_eq he

/-! ### Lower lines -/

def Fault.shift (n : Nat) : Fault → Fault
  | duplicateName name firstLine => duplicateName name (firstLine + n)
  | f => f

def Rejection.shift (n : Nat) (r : Rejection) : Rejection := ⟨r.line + n, r.fault.shift n⟩

def Entry.shift (n : Nat) (e : Entry) : Entry := { e with line := e.line + n }

theorem names_map_shift (n : Nat) (kinds : Registry) :
    (kinds.map (Kind.shift n)).map Kind.name = kinds.map Kind.name := by
  rw [List.map_map]
  rfl

theorem kinds_map_shift (n : Nat) (es : List Entry) :
    (es.map (Entry.shift n)).map Entry.kind = (es.map Entry.kind).map (Kind.shift n) := by
  rw [List.map_map, List.map_map]
  rfl

theorem Entries.shift {m : Nat} {ls : List (List Char)} {es : List Entry} (h : Entries m ls es)
    (n : Nat) : Entries (m + n) ls (es.map (Entry.shift n)) := by
  induction h with
  | nil m => exact .nil (m + n)
  | void hv _ ih =>
    rw [Nat.add_right_comm] at ih
    exact .void hv ih
  | declaration hd _ ih =>
    rw [Nat.add_right_comm] at ih
    exact .declaration hd ih

/-- The fault of a line for itself does not name another line. -/
theorem shift_of_read {l : List Char} {f : Fault} (h : Declaration.read l = .error f) (n : Nat) :
    f.shift n = f := by
  obtain ⟨-, hd⟩ := read_eq_error_iff.1 h
  cases hd <;> rfl

/-- What comes of a description below `n` lines that declare `kinds`, when it comes to `x` by itself
and no name is declared in both. -/
def beneath (kinds : Registry) (n : Nat) (x : Except Rejection Registry) :
    Except Rejection Registry :=
  (x.map fun kinds' => kinds ++ kinds'.map (Kind.shift n)).mapError (Rejection.shift n)

theorem Halt.shift {known : Registry} {m : Nat} {ls : List (List Char)}
    {x : Except Rejection Registry} (h : Halt known m ls x) (kinds : Registry) (n : Nat) :
    Halt (kinds ++ known.map (Kind.shift n)) (m + n) ls (beneath kinds n x) := by
  cases h with
  | done => exact .done
  | @refused l ls f hr =>
    have hx : beneath kinds n (.error ⟨m, f⟩) = .error ⟨m + n, f.shift n⟩ := rfl
    rw [hx, shift_of_read hr n]
    exact .refused hr
  | @repeated l name literal friendlyName ls k hd hk hname =>
    have hk' : k.shift n ∈ kinds ++ known.map (Kind.shift n) :=
      List.mem_append_right _ (List.mem_map_of_mem hk)
    exact .repeated hd hk' hname

/-! ### Names declared twice -/

/-- Line `j` of the text declares the name of `k`, which is one of `kinds`, and loading the text
gets past this line. -/
structure Clash (kinds : Registry) (text : String) (j : Nat) (k : Kind) : Prop where
  mem : k ∈ kinds
  declared : ∃ ls, HasLines text ls ∧ DeclaredAt ls j k.name.toList
  reached : ∀ r, load text = .error r → j < r.line

structure FirstClash (kinds : Registry) (text : String) (j : Nat) (k : Kind) : Prop where
  clash : Clash kinds text j k
  first : ∀ j' k', Clash kinds text j' k' → j ≤ j'

theorem Clash.exists_first {kinds : Registry} {text : String} {j : Nat} {k : Kind}
    (h : Clash kinds text j k) : ∃ j k, FirstClash kinds text j k := by
  classical
  have hex : ∃ j k, Clash kinds text j k := ⟨j, k, h⟩
  obtain ⟨k, hk⟩ := Nat.find_spec hex
  exact ⟨Nat.find hex, k, hk, fun j' k' h' => Nat.find_min' hex ⟨k', h'⟩⟩

variable {kinds : Registry} {text : String} {ls before after : List (List Char)} {es : List Entry}

/-- Loading gets past the declarations that it keeps and past no others. -/
theorem HaltsAt.kept_iff (h : HaltsAt [] 1 ls before after es (load text)) {j : Nat}
    {name : List Char} : (DeclaredAt ls j name ∧ ∀ r, load text = .error r → j < r.line) ↔
      ∃ e ∈ es, e.line = j ∧ e.name = name := by
  have htake : ls.take before.length = before := by rw [h.eq_append, List.take_left]
  have hkept (hj : j ≤ before.length) :
      DeclaredAt ls j name ↔ ∃ e ∈ es, e.line = j ∧ e.name = name := by
    rw [← declaredAt_take_iff hj, htake]
    exact h.entries.declaredAt_iff
  constructor
  · rintro ⟨hd, hreached⟩
    refine (hkept ?_).1 hd
    generalize load text = x at h hreached
    match x, h with
    | .error r, h =>
      have hlt : j < r.line := hreached r rfl
      have hline : r.line = before.length + 1 := h.lineFault.1
      omega
    | .ok kinds, h =>
      -- no lines are left, so every declaration has been kept
      have hafter : after = [] := by
        cases h.halt
        rfl
      obtain ⟨l, -, -, hl, -⟩ := hd
      have hlt : j < 1 + ls.length := List.snd_lt_add_of_mem_zipIdx hl
      rw [h.eq_append, hafter, List.append_nil] at hlt
      omega
  · intro he
    have hj : j ≤ before.length := by
      obtain ⟨e, hm, rfl, -⟩ := he
      have hlt : e.line < 1 + before.length := h.entries.line_lt e hm
      omega
    refine ⟨(hkept hj).2 he, fun r hr => ?_⟩
    rw [hr] at h
    have hline : r.line = before.length + 1 := h.lineFault.1
    omega

theorem HaltsAt.clash_iff (hls : HasLines text ls)
    (h : HaltsAt [] 1 ls before after es (load text)) {j : Nat} {k : Kind} :
    Clash kinds text j k ↔ k ∈ kinds ∧ ∃ e ∈ es, e.line = j ∧ e.name = k.name.toList := by
  rw [← h.kept_iff]
  constructor
  · rintro ⟨hk, ⟨ls', hls', hd⟩, hreached⟩
    rw [hls'.unique hls] at hd
    exact ⟨hk, hd, hreached⟩
  · rintro ⟨hk, hd, hreached⟩
    exact ⟨hk, ⟨ls, hls, hd⟩, hreached⟩

/-! ### Below other declarations -/

theorem nodup_beneath (hn : (kinds.map Kind.name).Nodup)
    (hes : ((es.map Entry.kind).map Kind.name).Nodup)
    (hfree : ∀ e ∈ es, e.kind.name ∉ kinds.map Kind.name) (n : Nat) :
    ((kinds ++ (es.map (Entry.shift n)).map Entry.kind).map Kind.name).Nodup := by
  rw [kinds_map_shift, List.map_append, names_map_shift]
  refine hn.append hes fun name hk he => ?_
  rw [List.map_map] at he
  obtain ⟨e, hm, rfl⟩ := List.mem_map.1 he
  exact hfree e hm hk

/-- Where no name is known from above, loading halts at the same line as by itself. -/
theorem HaltsAt.beneath {x : Except Rejection Registry} (h : HaltsAt [] 1 ls before after es x)
    (hn : (kinds.map Kind.name).Nodup) (hfree : ∀ e ∈ es, e.kind.name ∉ kinds.map Kind.name)
    (n : Nat) : HaltsAt kinds (1 + n) ls before after (es.map (Entry.shift n))
      (Description.beneath kinds n x) where
  eq_append := h.eq_append
  entries := h.entries.shift n
  nodup := nodup_beneath hn h.nodup hfree n
  halt := by
    rw [kinds_map_shift, Nat.add_right_comm]
    exact h.halt.shift kinds n

/-- A declaration between others stands on a line of its own. -/
theorem Entries.exists_line {m : Nat} {es₁ es₂ : List Entry} {e : Entry}
    (h : Entries m ls (es₁ ++ e :: es₂)) : ∃ before l after, ls = before ++ l :: after ∧
      Entries m before es₁ ∧ e.line = m + before.length ∧
      Declares l e.name e.literal e.friendlyName := by
  generalize hes : es₁ ++ e :: es₂ = es at h
  induction h generalizing es₁ with
  | nil => simp at hes
  | @void m l ls es hv _ ih =>
    obtain ⟨before, l', after, rfl, he, hline, hd⟩ := ih hes
    refine ⟨l :: before, l', after, rfl, .void hv he, ?_, hd⟩
    rw [hline, add_length_cons]
  | @declaration m l name literal friendlyName ls es hd h ih =>
    cases es₁ with
    | nil =>
      cases hes
      exact ⟨[], l, ls, rfl, .nil m, rfl, hd⟩
    | cons e' es₁ =>
      rw [List.cons_append] at hes
      obtain ⟨rfl, hrest⟩ := List.cons.inj hes
      obtain ⟨before, l', after, rfl, he, hline, hd'⟩ := ih hrest
      refine ⟨l :: before, l', after, rfl, .declaration hd he, ?_, hd'⟩
      rw [hline, add_length_cons]

/-- Where a name is known from above, loading halts at the first line that declares such a name. -/
theorem HaltsAt.clash {x : Except Rejection Registry} {es₁ es₂ : List Entry} {e : Entry} {k : Kind}
    (h : HaltsAt [] 1 ls before after (es₁ ++ e :: es₂) x) (hn : (kinds.map Kind.name).Nodup)
    (hk : k ∈ kinds) (hname : k.name = e.kind.name)
    (hfree : ∀ e' ∈ es₁, e'.kind.name ∉ kinds.map Kind.name) (n : Nat) :
    readLines kinds (1 + n) ls = .error ⟨e.line + n, .duplicateName k.name k.line⟩ := by
  obtain ⟨above, l, rest, hbefore, he, hline, hd⟩ := h.entries.exists_line
  have hes : ((es₁.map Entry.kind).map Kind.name).Nodup := by
    have hall := h.nodup
    rw [List.nil_append, List.map_append, List.map_append] at hall
    exact (List.nodup_append.1 hall).1
  have hhalt : HaltsAt kinds (1 + n) ls above (l :: (rest ++ after)) (es₁.map (Entry.shift n))
      (.error ⟨1 + n + above.length, .duplicateName e.kind.name k.line⟩) := by
    refine ⟨?_, he.shift n, nodup_beneath hn hes hfree n, ?_⟩
    · rw [h.eq_append, hbefore, List.append_assoc, List.cons_append]
    · exact .repeated hd (List.mem_append_left _ hk) hname
  rw [hhalt.readLines_eq, hname, hline, Nat.add_right_comm]

/-! ### Known names -/

/-- A declaration that is kept by itself and repeats a known name is a clash. -/
theorem HaltsAt.exists_clash (hls : HasLines text ls)
    (h : HaltsAt [] 1 ls before after es (load text)) {e : Entry} (he : e ∈ es)
    (hknown : e.kind.name ∈ kinds.map Kind.name) : ∃ k, Clash kinds text e.line k := by
  obtain ⟨k, hk, hname⟩ := List.mem_map.1 hknown
  have hchars : e.name = k.name.toList := by rw [hname, Entry.kind, String.toList_ofList]
  exact ⟨k, (h.clash_iff hls).2 ⟨hk, e, he, rfl, hchars⟩⟩

theorem HaltsAt.readLines_of_firstClash (hls : HasLines text ls)
    (h : HaltsAt [] 1 ls before after es (load text)) (hn : (kinds.map Kind.name).Nodup) {j : Nat}
    {k : Kind} (hfirst : FirstClash kinds text j k) (n : Nat) :
    readLines kinds (1 + n) ls = .error ⟨j + n, .duplicateName k.name k.line⟩ := by
  obtain ⟨hk, e, he, rfl, hchars⟩ := (h.clash_iff hls).1 hfirst.clash
  have hname : k.name = e.kind.name := by rw [Entry.kind, hchars, String.ofList_toList]
  obtain ⟨es₁, es₂, rfl⟩ := List.append_of_mem he
  have hsorted : ∀ e' ∈ es₁, e'.line < e.line := fun e' he' =>
    (List.pairwise_append.1 h.entries.pairwise_line).2.2 e' he' e List.mem_cons_self
  refine h.clash hn hk hname (fun e' he' hknown => ?_) n
  -- an earlier declaration of a known name would have been the first
  obtain ⟨k', hk'⟩ := h.exists_clash hls (List.mem_append_left _ he') hknown
  exact absurd (hfirst.first _ _ hk') (Nat.not_le.2 (hsorted e' he'))

theorem HaltsAt.readLines_of_not_firstClash (hls : HasLines text ls)
    (h : HaltsAt [] 1 ls before after es (load text)) (hn : (kinds.map Kind.name).Nodup)
    (hnone : ∀ j k, ¬FirstClash kinds text j k) (n : Nat) :
    readLines kinds (1 + n) ls = Description.beneath kinds n (load text) := by
  have hfree : ∀ e ∈ es, e.kind.name ∉ kinds.map Kind.name := by
    intro e he hknown
    obtain ⟨k, hk⟩ := h.exists_clash hls he hknown
    obtain ⟨j, k, hfirst⟩ := hk.exists_first
    exact hnone j k hfirst
  exact (h.beneath hn hfree n).readLines_eq

/-! ### One description after the other -/

/-- Below a description that is accepted, loading goes on with its kinds. -/
theorem load_append_eq {a b : String} (ha : Ended a.toList) (hload : load a = .ok kinds)
    (hlb : HasLines b ls) (hb : b.toList.head? ≠ some '\ufeff') :
    load (a ++ b) = readLines kinds (1 + a.toList.count '\n') ls := by
  obtain ⟨la, hla⟩ := exists_hasLines a
  obtain ⟨ea, hea, hda, rfl⟩ := (load_eq_ok_iff hla).1 hload
  have hn : ((ea.map Entry.kind).map Kind.name).Nodup := hea.nodup_iff.2 hda
  rw [load_eq (hla.append ha hlb hb), readLines_append hea hn, hla.length_eq ha, List.nil_append]

/-- A description below another one is loaded as by itself, on lower lines, unless it declares a
name of the other one again; the first line that does so is refused. -/
theorem load_append {a b : String} {kinds : Registry} (ha : Ended a.toList)
    (hload : load a = .ok kinds) (hb : b.toList.head? ≠ some '\ufeff') :
    (∀ j k, FirstClash kinds b j k → load (a ++ b) =
      .error ⟨j + a.toList.count '\n', .duplicateName k.name k.line⟩) ∧
    ((∀ j k, ¬FirstClash kinds b j k) → load (a ++ b) =
      beneath kinds (a.toList.count '\n') (load b)) := by
  obtain ⟨lb, hlb⟩ := exists_hasLines b
  obtain ⟨before, after, es, h⟩ := exists_haltsAt_load hlb
  have hn : (kinds.map Kind.name).Nodup := (valid_of_load hload).distinct
  rw [load_append_eq ha hload hlb hb]
  constructor
  · intro j k hfirst
    exact h.readLines_of_firstClash hlb hn hfirst _
  · intro hnone
    exact h.readLines_of_not_firstClash hlb hn hnone _

/-- The lower description declares a name of the upper one, and then one of its own again. -/
theorem load_append_both : ∃ a b kinds,
    a = "\ufeffA \"a\"\r\n\nB \"b\"\n" ∧ b = "C \"c\"\nB \"\"\nC \"\"" ∧
    kinds = [⟨"A", "a", 1⟩, ⟨"B", "b", 3⟩] ∧ Ended a.toList ∧ load a = .ok kinds ∧
    b.toList.head? ≠ some '\ufeff' ∧
    (∀ j k, FirstClash kinds b j k → load (a ++ b) =
      .error ⟨j + a.toList.count '\n', .duplicateName k.name k.line⟩) ∧
    ((∀ j k, ¬FirstClash kinds b j k) → load (a ++ b) =
      beneath kinds (a.toList.count '\n') (load b)) := by
  have ha : Ended "\ufeffA \"a\"\r\n\nB \"b\"\n".toList := .inr (by decide +kernel)
  have hload : load "\ufeffA \"a\"\r\n\nB \"b\"\n" = .ok [⟨"A", "a", 1⟩, ⟨"B", "b", 3⟩] := by
    decide +kernel
  have hb : "C \"c\"\nB \"\"\nC \"\"".toList.head? ≠ some '\ufeff' := by decide +kernel
  exact ⟨_, _, _, rfl, rfl, rfl, ha, hload, hb, load_append ha hload hb⟩

end Description
end TreeKinds
