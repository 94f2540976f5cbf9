import Mathlib.Order.Bounds.Basic
import TreeKinds.Proofs.Description.Acceptance
import TreeKinds.Proofs.Description.Diagnosis

/-! Which fault is reported of a description that has some. Proved: it is that of the first line
that is outside the grammar or repeats a name, and the lines after it make no difference. -/
namespace TreeKinds.Description

open Text

/-- Line `k` is outside the grammar, or it declares a name that a line above it declares. -/
inductive Faulty (ls : List (List Char)) (k : Nat) : Prop
  | malformed {l : List Char} : (l, k) ∈ ls.zipIdx 1 → ¬WellFormed l → Faulty ls k
  | repeated {name : List Char} {j : Nat} : DeclaredAt ls k name → j < k →
      DeclaredAt ls j name → Faulty ls k

/-- The fault of line `k`, which names the line above that declares the same name if that is it. -/
inductive LineFault (ls : List (List Char)) (k : Nat) : Fault → Prop
  | malformed {l : List Char} {f : Fault} : (l, k) ∈ ls.zipIdx 1 → ¬WellFormed l →
      Diagnosis l f → LineFault ls k f
  | repeated {name : List Char} {j : Nat} : DeclaredAt ls k name → j < k →
      DeclaredAt ls j name → LineFault ls k (.duplicateName (String.ofList name) j)

/-- The first fault of a description: the lines above it are well-formed and declare different
names. -/
structure FirstFault (ls : List (List Char)) (r : Rejection) : Prop where
  least : IsLeast {k | Faulty ls k} r.line
  wellFormed : ∀ l ∈ ls.take (r.line - 1), WellFormed l
  distinct : DistinctNames (ls.take (r.line - 1))
  fault : LineFault ls r.line r.fault

theorem LineFault.faulty {ls : List (List Char)} {k : Nat} {f : Fault} (h : LineFault ls k f) :
    Faulty ls k := by
  cases h with
  | malformed hl hw _ => exact .malformed hl hw
  | repeated hk hlt hj => exact .repeated hk hlt hj

/-! ### Lines by number -/

theorem mem_zipIdx_take_iff {ls : List (List Char)} {m k : Nat} {l : List Char} (hk : k ≤ m) :
    (l, k) ∈ (ls.take m).zipIdx 1 ↔ (l, k) ∈ ls.zipIdx 1 := by
  rw [List.mk_mem_zipIdx_iff_le_and_getElem?_sub, List.mk_mem_zipIdx_iff_le_and_getElem?_sub]
  refine and_congr_right fun h1 => ?_
  rw [List.getElem?_take_of_lt (by omega)]

theorem declaredAt_take_iff {ls : List (List Char)} {m k : Nat} {name : List Char}
    (hk : k ≤ m) : DeclaredAt (ls.take m) k name ↔ DeclaredAt ls k name := by
  simp only [DeclaredAt, mem_zipIdx_take_iff hk]

theorem eq_of_mem_zipIdx {ls : List (List Char)} {l l' : List Char} {k : Nat}
    (h : (l, k) ∈ ls.zipIdx 1) (h' : (l', k) ∈ ls.zipIdx 1) : l = l' := by
  rw [List.mk_mem_zipIdx_iff_le_and_getElem?_sub] at h h'
  exact Option.some.inj (h.2.symm.trans h'.2)

theorem mem_zipIdx_append_cons (before : List (List Char)) (l : List Char)
    (after : List (List Char)) :
    (l, before.length + 1) ∈ (before ++ l :: after).zipIdx 1 := by
  rw [List.zipIdx_append, List.zipIdx_cons, Nat.add_comm before.length]
  exact List.mem_append_right _ List.mem_cons_self

/-! ### The first fault -/

theorem not_faulty_of_le {ls : List (List Char)} {m : Nat} (hw : ∀ l ∈ ls.take m, WellFormed l)
    (hd : DistinctNames (ls.take m)) {k : Nat} (hk : k ≤ m) : ¬Faulty ls k := by
  rintro (⟨hl, hm⟩ | ⟨hdk, hlt, hdj⟩)
  · rw [← mem_zipIdx_take_iff hk] at hl
    exact hm (hw _ (List.fst_mem_of_mem_zipIdx hl))
  · rw [← declaredAt_take_iff hk] at hdk
    rw [← declaredAt_take_iff (Nat.le_of_lt (Nat.lt_of_lt_of_le hlt hk))] at hdj
    have hjk := hd _ _ _ hdj hdk
    omega

theorem LineFault.firstFault {ls : List (List Char)} {r : Rejection}
    (hf : LineFault ls r.line r.fault) (hw : ∀ l ∈ ls.take (r.line - 1), WellFormed l)
    (hd : DistinctNames (ls.take (r.line - 1))) : FirstFault ls r := by
  refine ⟨⟨hf.faulty, fun k hk => ?_⟩, hw, hd, hf⟩
  by_contra hlt
  exact not_faulty_of_le hw hd (by omega) hk

theorem lineFault_take_iff {ls : List (List Char)} {k : Nat} {f : Fault} :
    LineFault (ls.take k) k f ↔ LineFault ls k f := by
  constructor
  · rintro (⟨hl, hw, hdiag⟩ | ⟨hdk, hlt, hdj⟩)
    · exact .malformed ((mem_zipIdx_take_iff le_rfl).1 hl) hw hdiag
    · exact .repeated ((declaredAt_take_iff le_rfl).1 hdk) hlt
        ((declaredAt_take_iff hlt.le).1 hdj)
  · rintro (⟨hl, hw, hdiag⟩ | ⟨hdk, hlt, hdj⟩)
    · exact .malformed ((mem_zipIdx_take_iff le_rfl).2 hl) hw hdiag
    · exact .repeated ((declaredAt_take_iff le_rfl).2 hdk) hlt
        ((declaredAt_take_iff hlt.le).2 hdj)

/-- The lines after the first fault have no influence on it. -/
theorem FirstFault.of_take_eq {ls ls' : List (List Char)} {r : Rejection} (h : FirstFault ls r)
    (htake : ls'.take r.line = ls.take r.line) : FirstFault ls' r := by
  have hbefore : ls'.take (r.line - 1) = ls.take (r.line - 1) := by
    have hmin : min (r.line - 1) r.line = r.line - 1 := by omega
    rw [← hmin, ← List.take_take, htake, List.take_take]
  refine LineFault.firstFault ?_ (hbefore ▸ h.wellFormed) (hbefore ▸ h.distinct)
  rw [← lineFault_take_iff, htake, lineFault_take_iff]
  exact h.fault

theorem LineFault.unique {ls : List (List Char)} {k : Nat} {f f' : Fault}
    (hd : DistinctNames (ls.take (k - 1))) (h : LineFault ls k f) (h' : LineFault ls k f') :
    f = f' := by
  obtain ⟨hl, hw, hdiag⟩ | ⟨hdk, hlt, hdj⟩ := h
  · obtain ⟨hl', -, hdiag'⟩ | ⟨⟨l', literal', friendlyName', hl', hdecl'⟩, -, -⟩ := h'
    · obtain rfl := eq_of_mem_zipIdx hl hl'
      have hr := read_eq_error_iff.2 ⟨hw, hdiag⟩
      rw [read_eq_error_iff.2 ⟨hw, hdiag'⟩] at hr
      exact (Except.error.inj hr).symm
    · obtain rfl := eq_of_mem_zipIdx hl hl'
      exact absurd (.inr ⟨_, _, _, hdecl'⟩) hw
  · obtain ⟨l, literal, friendlyName, hl, hdecl⟩ := hdk
    obtain ⟨hl', hw', -⟩ | ⟨⟨l', literal', friendlyName', hl', hdecl'⟩, hlt', hdj'⟩ := h'
    · obtain rfl := eq_of_mem_zipIdx hl hl'
      exact absurd (.inr ⟨_, _, _, hdecl⟩) hw'
    · obtain rfl := eq_of_mem_zipIdx hl hl'
      obtain ⟨rfl, -, -⟩ := hdecl.unique hdecl'
      rw [← declaredAt_take_iff (Nat.le_sub_one_of_lt hlt)] at hdj
      rw [← declaredAt_take_iff (Nat.le_sub_one_of_lt hlt')] at hdj'
      rw [hd _ _ _ hdj hdj']

theorem FirstFault.unique {ls : List (List Char)} {r r' : Rejection} (h : FirstFault ls r)
    (h' : FirstFault ls r') : r = r' := by
  obtain ⟨k, f⟩ := r
  obtain ⟨k', f'⟩ := r'
  obtain rfl : k = k' := h.least.unique h'.least
  have hf : f = f' := LineFault.unique h.distinct h.fault h'.fault
  rw [hf]

/-! ### Loading -/

/-- Where loading halts with a fault, the line has that fault. -/
theorem HaltsAt.lineFault {ls before after : List (List Char)} {es : List Entry} {r : Rejection}
    (h : HaltsAt [] 1 ls before after es (.error r)) :
    r.line = before.length + 1 ∧ LineFault ls r.line r.fault := by
  obtain ⟨rfl, he, -, hx⟩ := h
  rw [List.nil_append, Nat.add_comm] at hx
  cases hx with
  | @refused l rest f hr =>
    obtain ⟨hw, hdiag⟩ := read_eq_error_iff.1 hr
    exact ⟨rfl, .malformed (mem_zipIdx_append_cons before l rest) hw hdiag⟩
  | @repeated l name literal friendlyName rest k hdecl hk hname =>
    obtain ⟨e, hem, rfl⟩ := List.mem_map.1 hk
    have hlt : e.line < before.length + 1 := by
      have := he.line_lt e hem
      omega
    have hfirst : DeclaredAt before e.line name :=
      he.declaredAt_iff.2 ⟨e, hem, rfl, String.ofList_injective hname⟩
    have htake : (before ++ l :: rest).take before.length = before := List.take_left
    rw [← htake, declaredAt_take_iff (by omega)] at hfirst
    have hsecond : DeclaredAt (before ++ l :: rest) (before.length + 1) name :=
      ⟨l, literal, friendlyName, mem_zipIdx_append_cons before l rest, hdecl⟩
    exact ⟨rfl, .repeated hsecond hlt hfirst⟩

/-- It is the first fault, since the lines before it have been kept. -/
theorem HaltsAt.firstFault {ls before after : List (List Char)} {es : List Entry} {r : Rejection}
    (h : HaltsAt [] 1 ls before after es (.error r)) : FirstFault ls r := by
  obtain ⟨hline, hfault⟩ := h.lineFault
  obtain ⟨rfl, he, hn, -⟩ := h
  have htake : (before ++ after).take (r.line - 1) = before := by
    rw [hline, Nat.add_sub_cancel, List.take_left]
  refine hfault.firstFault ?_ ?_
  · rw [htake]
    exact he.wellFormed
  · rw [htake]
    exact he.nodup_iff.1 hn

theorem load_eq_error_iff {text : String} {ls : List (List Char)} (h : HasLines text ls)
    {r : Rejection} : load text = .error r ↔ FirstFault ls r := by
  obtain ⟨before, after, es, hx⟩ := exists_haltsAt_load h
  constructor
  · intro hload
    rw [hload] at hx
    exact hx.firstFault
  · intro hf
    cases hload : load text with
    | error r' =>
      rw [hload] at hx
      rw [hx.firstFault.unique hf]
    | ok kinds =>
      obtain ⟨es, he, hd, -⟩ := (load_eq_ok_iff h).1 hload
      have hall : ls.take (max r.line ls.length) = ls := List.take_of_length_le (by omega)
      refine absurd hf.least.1 (not_faulty_of_le (m := max r.line ls.length) ?_ ?_ (by omega))
      · rw [hall]
        exact he.wellFormed
      · rw [hall]
        exact hd

/-- The fault that is reported is that of the first line that is outside the grammar or repeats a
name, and what stands on the lines after it has no influence. -/
theorem load_refuses_first_fault (text : String) : ∃ ls, HasLines text ls ∧
    (∀ r, load text = .error r ↔ FirstFault ls r) ∧
    ∀ r, load text = .error r → ∀ text' ls', HasLines text' ls' →
      ls'.take r.line = ls.take r.line → load text' = .error r := by
  obtain ⟨ls, h⟩ := exists_hasLines text
  refine ⟨ls, h, fun r => load_eq_error_iff h, fun r hload text' ls' h' htake => ?_⟩
  have hf := (load_eq_error_iff h).1 hload
  exact (load_eq_error_iff h').2 (hf.of_take_eq htake)

end TreeKinds.Description
