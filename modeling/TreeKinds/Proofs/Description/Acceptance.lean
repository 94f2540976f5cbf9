import TreeKinds.Proofs.Description.Entries

/-! What loading does with the lines of a description. It passes over empty lines, keeps the
declarations in order, and halts at the end or at the first line that is refused or repeats a name.
Proved: a description is accepted when all its lines are well-formed and no name is declared twice,
and then its registry lists the declarations from top to bottom. -/
namespace TreeKinds

namespace Registry

/-- In a registry without repetitions a name leads to its one kind. -/
theorem named?_eq_some {kinds : Registry} (hn : (kinds.map Kind.name).Nodup) {k : Kind}
    (hk : k ∈ kinds) : kinds.named? k.name = some k := by
  cases h : kinds.named? k.name with
  | none => exact absurd (List.mem_map_of_mem hk) (named?_eq_none_iff.1 h)
  | some k' =>
    obtain ⟨hk', hname⟩ := named?_mem h
    rw [List.inj_on_of_nodup_map hn hk' hk hname]

theorem nodup_names_concat {kinds : Registry} (hn : (kinds.map Kind.name).Nodup) {k : Kind}
    (hk : k.name ∉ kinds.map Kind.name) : ((kinds ++ [k]).map Kind.name).Nodup := by
  rw [List.map_append, List.nodup_append_comm]
  exact List.nodup_cons.2 ⟨hk, hn⟩

end Registry

namespace Description

/-! ### One line -/

theorem readLines_void {known : Registry} {n : Nat} {l : List Char} (h : Void l)
    (ls : List (List Char)) : readLines known n (l :: ls) = readLines known (n + 1) ls := by
  rw [readLines, read_eq_ok_none_iff.2 h]

theorem readLines_declares {known : Registry} {n : Nat}
    {l name literal friendlyName : List Char} (h : Declares l name literal friendlyName)
    (hk : String.ofList name ∉ known.map Kind.name) (ls : List (List Char)) :
    readLines known n (l :: ls) =
      readLines (known ++ [Entry.kind ⟨n, name, literal, friendlyName⟩]) (n + 1) ls := by
  rw [readLines, h.read_eq]
  simp only [Registry.named?_eq_none_iff.2 hk]
  rfl

/-! ### Halting -/

/-- How loading halts before the lines `ls` when `known` has been declared above them. -/
inductive Halt (known : Registry) (n : Nat) :
    (ls : List (List Char)) → Except Rejection Registry → Prop
  | done : Halt known n [] (.ok known)
  | refused {l : List Char} {ls : List (List Char)} {f : Fault} :
      Declaration.read l = .error f → Halt known n (l :: ls) (.error ⟨n, f⟩)
  | repeated {l name literal friendlyName : List Char} {ls : List (List Char)} {k : Kind} :
      Declares l name literal friendlyName → k ∈ known → k.name = String.ofList name →
      Halt known n (l :: ls) (.error ⟨n, .duplicateName (String.ofList name) k.line⟩)

theorem Halt.readLines_eq {known : Registry} {n : Nat} {ls : List (List Char)}
    {x : Except Rejection Registry} (h : Halt known n ls x)
    (hn : (known.map Kind.name).Nodup) : readLines known n ls = x := by
  cases h with
  | done => rfl
  | refused hr => rw [readLines, hr]
  | repeated hd hk hname =>
    rw [readLines, hd.read_eq]
    simp only [← hname, Registry.named?_eq_some hn hk]

/-- The declarations on a part of the lines are kept, and loading goes on after it. -/
theorem readLines_append {known : Registry} {n : Nat} {ls : List (List Char)} {es : List Entry}
    (h : Entries n ls es) (hn : ((known ++ es.map Entry.kind).map Kind.name).Nodup)
    (ls' : List (List Char)) : readLines known n (ls ++ ls') =
      readLines (known ++ es.map Entry.kind) (n + ls.length) ls' := by
  induction h generalizing known with
  | nil => simp
  | @void n l ls es hv _ ih =>
    rw [List.cons_append, readLines_void hv, ih hn, add_length_cons]
  | @declaration n l name literal friendlyName ls es hd _ ih =>
    have hsplit : known ++ (⟨n, name, literal, friendlyName⟩ :: es : List Entry).map Entry.kind =
        known ++ [Entry.kind ⟨n, name, literal, friendlyName⟩] ++ es.map Entry.kind := by simp
    rw [hsplit] at hn ⊢
    have hnew : String.ofList name ∉ known.map Kind.name := by
      intro hm
      rw [List.map_append, List.map_append] at hn
      exact List.disjoint_of_nodup_append (List.nodup_append.1 hn).1 hm List.mem_cons_self
    rw [List.cons_append, readLines_declares hd hnew, ih hn, add_length_cons]

/-- The lines before `after` are kept as `es`, and there loading halts with `x`. -/
structure HaltsAt (known : Registry) (n : Nat) (ls before after : List (List Char))
    (es : List Entry) (x : Except Rejection Registry) : Prop where
  eq_append : ls = before ++ after
  entries : Entries n before es
  nodup : ((known ++ es.map Entry.kind).map Kind.name).Nodup
  halt : Halt (known ++ es.map Entry.kind) (n + before.length) after x

theorem HaltsAt.readLines_eq {known : Registry} {n : Nat} {ls before after : List (List Char)}
    {es : List Entry} {x : Except Rejection Registry} (h : HaltsAt known n ls before after es x) :
    readLines known n ls = x := by
  rw [h.eq_append, readLines_append h.entries h.nodup, h.halt.readLines_eq h.nodup]

theorem Halt.haltsAt {known : Registry} {n : Nat} {ls : List (List Char)}
    {x : Except Rejection Registry} (h : Halt known n ls x)
    (hn : (known.map Kind.name).Nodup) : HaltsAt known n ls [] ls [] x :=
  ⟨rfl, .nil n, by simpa using hn, by simpa using h⟩

theorem HaltsAt.void {known : Registry} {n : Nat} {l : List Char}
    {ls before after : List (List Char)} {es : List Entry} {x : Except Rejection Registry}
    (hv : Void l) (h : HaltsAt known (n + 1) ls before after es x) :
    HaltsAt known n (l :: ls) (l :: before) after es x := by
  obtain ⟨rfl, he, hn, hx⟩ := h
  refine ⟨rfl, .void hv he, hn, ?_⟩
  rwa [add_length_cons]

theorem HaltsAt.declaration {known : Registry} {n : Nat} {l name literal friendlyName : List Char}
    {ls before after : List (List Char)} {es : List Entry} {x : Except Rejection Registry}
    (hd : Declares l name literal friendlyName)
    (h : HaltsAt (known ++ [Entry.kind ⟨n, name, literal, friendlyName⟩]) (n + 1) ls before after
      es x) :
    HaltsAt known n (l :: ls) (l :: before) after (⟨n, name, literal, friendlyName⟩ :: es) x := by
  obtain ⟨rfl, he, hn, hx⟩ := h
  rw [List.append_assoc, List.singleton_append, ← List.map_cons] at hn hx
  refine ⟨rfl, .declaration hd he, hn, ?_⟩
  rwa [add_length_cons]

/-- Loading halts somewhere, whatever the lines are. -/
theorem exists_haltsAt (known : Registry) (hn : (known.map Kind.name).Nodup) (n : Nat)
    (ls : List (List Char)) : ∃ before after es x, HaltsAt known n ls before after es x := by
  induction ls generalizing known n with
  | nil => exact ⟨_, _, _, _, Halt.done.haltsAt hn⟩
  | cons l ls ih =>
    cases hr : Declaration.read l with
    | error f => exact ⟨_, _, _, _, (Halt.refused hr).haltsAt hn⟩
    | ok d =>
      cases d with
      | none =>
        obtain ⟨before, after, es, x, h⟩ := ih known hn (n + 1)
        exact ⟨_, _, _, _, h.void (read_eq_ok_none_iff.1 hr)⟩
      | some d =>
        obtain ⟨name, literal, friendlyName, hd, -⟩ := read_eq_ok_some_iff.1 hr
        by_cases hm : String.ofList name ∈ known.map Kind.name
        · obtain ⟨k, hk, hname⟩ := List.mem_map.1 hm
          exact ⟨_, _, _, _, (Halt.repeated hd hk hname).haltsAt hn⟩
        · obtain ⟨before, after, es, x, h⟩ := ih
            (known ++ [Entry.kind ⟨n, name, literal, friendlyName⟩])
            (Registry.nodup_names_concat hn hm) (n + 1)
          exact ⟨_, _, _, _, h.declaration hd⟩

/-! ### Loading -/

theorem load_eq {text : String} {ls : List (List Char)} (h : HasLines text ls) :
    load text = readLines [] 1 ls := by
  rw [load, hasLines_iff.1 h]

theorem exists_haltsAt_load {text : String} {ls : List (List Char)} (h : HasLines text ls) :
    ∃ before after es, HaltsAt [] 1 ls before after es (load text) := by
  obtain ⟨before, after, es, x, hx⟩ := exists_haltsAt [] List.nodup_nil 1 ls
  rw [load_eq h, hx.readLines_eq]
  exact ⟨before, after, es, hx⟩

theorem load_eq_ok_iff {text : String} {ls : List (List Char)} (h : HasLines text ls)
    {kinds : Registry} : load text = .ok kinds ↔
      ∃ es, Entries 1 ls es ∧ DistinctNames ls ∧ kinds = es.map Entry.kind := by
  constructor
  · intro hload
    obtain ⟨before, after, es, hls, he, hn, hx⟩ := exists_haltsAt_load h
    rw [hload] at hx
    cases hx
    rw [List.append_nil] at hls
    subst hls
    exact ⟨es, he, he.nodup_iff.1 hn, rfl⟩
  · rintro ⟨es, he, hd, rfl⟩
    have hn := he.nodup_iff.2 hd
    have hx : HaltsAt [] 1 ls ls [] es (.ok (es.map Entry.kind)) :=
      ⟨(List.append_nil ls).symm, he, hn, .done⟩
    rw [load_eq h, hx.readLines_eq]

/-- A description is accepted when all its lines are of the grammar and declare different names,
and its registry then lists the declarations from top to bottom, each with its line number. -/
theorem load_accepts_iff_grammar (text : String) : ∃ ls, HasLines text ls ∧
    ((∃ kinds, load text = .ok kinds) ↔ (∀ l ∈ ls, WellFormed l) ∧ DistinctNames ls) ∧
    ∀ kinds, load text = .ok kinds → ∃ es, Entries 1 ls es ∧ kinds = es.map Entry.kind := by
  obtain ⟨ls, h⟩ := exists_hasLines text
  refine ⟨ls, h, ⟨?_, ?_⟩, ?_⟩
  · rintro ⟨kinds, hload⟩
    obtain ⟨es, he, hd, -⟩ := (load_eq_ok_iff h).1 hload
    exact ⟨he.wellFormed, hd⟩
  · rintro ⟨hw, hd⟩
    obtain ⟨es, he⟩ := exists_entries hw 1
    exact ⟨_, (load_eq_ok_iff h).2 ⟨es, he, hd, rfl⟩⟩
  · intro kinds hload
    obtain ⟨es, he, -, hk⟩ := (load_eq_ok_iff h).1 hload
    exact ⟨es, he, hk⟩

end Description
end TreeKinds
