import Mathlib.Data.List.Nodup
import TreeKinds.Toml.Document

/-! The top-level keys of a document. A pair or a section that is added puts its node in the place
of the node with the same name, or under a new name. Proved: in a document no key stands twice. -/
namespace TreeKinds.Toml

namespace Entries

/-- No two entries have the same name. -/
def Distinct (entries : Entries) : Prop := (entries.map (·.1.name)).Nodup

variable {entries entries' : Entries}

theorem distinct_nil : Distinct [] := List.nodup_nil

theorem mem_names_put {key : Key} {node : Node} {name : String} :
    name ∈ (entries.put key node).map (·.1.name) ↔
      name = key.name ∨ name ∈ entries.map (·.1.name) := by
  induction entries with
  | nil => simp [put]
  | cons e entries ih =>
    rw [put]
    split
    next h => simp [h]
    next h =>
      rw [List.map_cons, List.mem_cons, ih, List.map_cons, List.mem_cons]
      exact or_left_comm

theorem Distinct.put (h : entries.Distinct) (key : Key) (node : Node) :
    (entries.put key node).Distinct := by
  induction entries with
  | nil => exact List.nodup_singleton _
  | cons e entries ih =>
    rw [Distinct, List.map_cons, List.nodup_cons] at h
    obtain ⟨hnew, hrest⟩ := h
    rw [Entries.put]
    split
    next => exact List.nodup_cons.2 ⟨hnew, hrest⟩
    next hne =>
      refine List.nodup_cons.2 ⟨?_, ih hrest⟩
      rw [mem_names_put, not_or]
      exact ⟨hne, hnew⟩

theorem Distinct.erase (h : entries.Distinct) (name : String) : (entries.erase name).Distinct :=
  h.sublist (List.filter_sublist.map _)

theorem Distinct.of_map_put (hd : entries.Distinct) {subs : Option Entries} {key : Key}
    {node : Entries → Node}
    (h : (subs.map fun sub => entries.put key (node sub)) = some entries') :
    entries'.Distinct := by
  obtain ⟨sub, -, rfl⟩ := Option.map_eq_some_iff.1 h
  exact hd.put key (node sub)

/-- A change below the first key of a path puts a node under that key. -/
theorem Distinct.change {byKey : Bool} {f : Origin → Entries → Option Entries} {origin : Origin}
    {stem : List Key} (hd : entries.Distinct)
    (hf : ∀ entries', f origin entries = some entries' → entries'.Distinct)
    (h : entries.change byKey f stem origin = some entries') : entries'.Distinct := by
  cases stem with
  | nil => exact hf entries' h
  | cons key stem =>
    rw [Entries.change] at h
    split at h
    · exact hd.of_map_put h
    · cases h
    · split at h
      · cases h
      · exact hd.of_map_put h
    · split at h
      · exact hd.of_map_put h
      · cases h

theorem Distinct.addPair {p : Pair} (hd : entries.Distinct)
    (h : entries.addPair p = some entries') : entries'.Distinct := by
  refine hd.change (fun sub hsub => ?_) h
  split at hsub
  · cases hsub
  · split at hsub
    · cases hsub
    · cases hsub
      exact hd.put _ _

theorem Distinct.addSection {s : Section} (hd : entries.Distinct)
    (h : entries.addSection s = some entries') : entries'.Distinct := by
  refine hd.change (fun sub hsub => ?_) h
  dsimp only at hsub
  split at hsub
  · obtain ⟨sub', -, hsub⟩ := Option.bind_eq_some_iff.1 hsub
    obtain ⟨node, -, hsub⟩ := Option.bind_eq_some_iff.1 hsub
    cases hsub
    exact hd.put _ _
  · obtain ⟨below, -, hsub⟩ := Option.bind_eq_some_iff.1 hsub
    obtain ⟨sub', -, hsub⟩ := Option.bind_eq_some_iff.1 hsub
    cases hsub
    exact (hd.erase _).put _ _

/-- What every step of a fold keeps is kept by the fold. -/
theorem Distinct.foldlM {α : Type} {add : Entries → α → Option Entries}
    (hadd : ∀ {es es'} {a}, es.Distinct → add es a = some es' → es'.Distinct) {items : List α}
    (hd : entries.Distinct) (h : items.foldlM add entries = some entries') :
    entries'.Distinct := by
  induction items generalizing entries with
  | nil =>
    cases h
    exact hd
  | cons a items ih =>
    rw [List.foldlM_cons] at h
    obtain ⟨es, hes, h⟩ := Option.bind_eq_some_iff.1 h
    exact ih (hadd hd hes) h

end Entries

theorem Entry.key_ofNode (key : Key) (node : Node) : (Entry.ofNode key node).key = key := by
  cases node <;> rfl

/-- No key stands twice at the top of a document. -/
theorem nodup_keys_read {text : String} {d : Document} (h : Document.read text = some d) :
    (d.map (·.key.name)).Nodup := by
  obtain ⟨lines, -, h⟩ := Option.bind_eq_some_iff.1 h
  obtain ⟨root, hroot, h⟩ := Option.bind_eq_some_iff.1 h
  obtain ⟨entries, hentries, h⟩ := Option.bind_eq_some_iff.1 h
  cases h
  have hd : root.Distinct := .foldlM (fun hd => hd.addPair) Entries.distinct_nil hroot
  have hd' : entries.Distinct := .foldlM (fun hd => hd.addSection) hd hentries
  -- the names of the nodes are those of their entries
  rw [List.map_map]
  refine (congrArg List.Nodup (List.map_congr_left fun e _ => ?_)).mpr hd'
  exact congrArg Key.name (Entry.key_ofNode e.1 e.2)

/-! ### Contents -/

namespace Document

variable {d d' : Document} {name : String} {v : Value}

/-- What a document says, without where it says it. -/
def contents (d : Document) : List (String × Value) := d.map fun e => (e.key.name, e.value)

/-- The value of a key, if the document has the key. -/
def value? (d : Document) (name : String) : Option Value :=
  (d.find? (·.key.name == name)).map (·.value)

theorem value?_cons (e : Entry) (d : Document) (name : String) :
    value? (e :: d) name = if e.key.name = name then some e.value else value? d name := by
  by_cases h : e.key.name = name <;> simp [value?, h]

theorem value?_eq_none_of_not_mem (h : name ∉ d.map (·.key.name)) : value? d name = none := by
  simp only [value?, Option.map_eq_none_iff, List.find?_eq_none, beq_iff_eq]
  intro e he hname
  exact h (List.mem_map.2 ⟨e, he, hname⟩)

theorem value?_eq_some_iff (hd : (d.map (·.key.name)).Nodup) :
    value? d name = some v ↔ (name, v) ∈ contents d := by
  induction d with
  | nil => simp [value?, contents]
  | cons e d ih =>
    rw [List.map_cons, List.nodup_cons] at hd
    rw [value?_cons, contents, List.map_cons, List.mem_cons, ← contents, ← ih hd.2]
    split
    next h =>
      subst h
      rw [value?_eq_none_of_not_mem hd.1]
      simp [eq_comm]
    next h => simp [Ne.symm h]

/-- The order of the keys makes no difference to their values. -/
theorem value?_eq_of_perm (hd : (d.map (·.key.name)).Nodup) (hd' : (d'.map (·.key.name)).Nodup)
    (h : (contents d).Perm (contents d')) (name : String) : value? d name = value? d' name := by
  apply Option.ext
  intro v
  rw [value?_eq_some_iff hd, value?_eq_some_iff hd', h.mem_iff]

end Document

end TreeKinds.Toml
