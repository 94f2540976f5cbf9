import TreeKinds.Proofs.Files.Access
import TreeKinds.Proofs.Log.Emission

/-! What is left of a tree when definitions have been written to a file in it. A file is created
past a link at the end of its path, and removed only if there is no such link. Proved: but for the
one file nothing in the tree changes, whether the file is written, cut short or removed. -/
namespace TreeKinds.Files.FileTree

variable {t : FileTree} {p q : Place} {l : Location} {content : Bytes} {path : String}

/-! ### The one file that is written -/

/-- The tree `t'` is `t` but for the file at `p`, which has this content if it is in the tree. -/
structure Rewrites (t : FileTree) (p : Place) (content : Bytes) (t' : FileTree) : Prop where
  elsewhere : ∀ q, q ≠ p → t'.node? q = t.node? q
  holds : ∀ l, p = .inside l → t'.node? p = some (.file content)
  kept : ∀ l, t.node? (.inside l) ≠ none → t'.node? (.inside l) ≠ none
  links : ∀ l target,
    t'.node? (.inside l) = some (.link target) ↔ t.node? (.inside l) = some (.link target)
  directories : ∀ l, t'.node? (.inside l) = some .directory ↔ t.node? (.inside l) = some .directory
  surroundings : t'.surroundings = t.surroundings

/-- What becomes of a file outside leaves the tree alone. -/
theorem rewrites_outside {t' : FileTree} (h : ∀ q, q ≠ .outside l → t'.node? q = t.node? q)
    (hs : t'.surroundings = t.surroundings) (content : Bytes) :
    t.Rewrites (.outside l) content t' where
  elsewhere := h
  holds _ hl := nomatch hl
  kept k hk := by rwa [h _ (by simp)]
  links k target := by rw [h _ (by simp)]
  directories k := by rw [h _ (by simp)]
  surroundings := hs

theorem node?_put_eq_some_iff (h : t.TakesFile p) {n : Node} (hn : ∀ bytes, n ≠ .file bytes) :
    (t.put p (.file content)).node? q = some n ↔ t.node? q = some n := by
  rw [node?_put]
  split
  next hq =>
    subst hq
    obtain ht | ⟨old, ht⟩ := h.file
    · simp [ht, (hn content).symm]
    · simp [ht, (hn content).symm, (hn old).symm]
  next => rfl

theorem rewrites_put (h : t.TakesFile p) (content : Bytes) :
    t.Rewrites p content (t.put p (.file content)) where
  elsewhere q hq := by rw [node?_put, if_neg hq.symm]
  holds l _ := by rw [node?_put, if_pos rfl]
  kept k hk := by
    rw [node?_put]
    split
    · simp
    · exact hk
  links _ _ := node?_put_eq_some_iff h (by simp)
  directories _ := node?_put_eq_some_iff h (by simp)
  surroundings := surroundings_put t p _

/-! ### What the path itself names -/

/-- The path itself, with no link at its end, is that of a file at `l` in the tree, or of none
so far. -/
structure OwnFile (t : FileTree) (path : String) (l : Location) : Prop where
  leads : t.LeadsTo false path (.inside l)
  takes : t.TakesFile (.inside l)

/-- The path itself is that of a link, or leads out of the tree. -/
def Foreign (t : FileTree) (path : String) : Prop :=
  (∃ l target,
    t.LeadsTo false path (.inside l) ∧ t.node? (.inside l) = some (.link target)) ∨
    ∃ l, t.LeadsTo false path (.outside l)

theorem OwnFile.not_foreign (h : t.OwnFile path l) : ¬t.Foreign path := by
  rintro (⟨k, target, hk, hlink⟩ | ⟨k, hk⟩)
  · cases h.leads.unique hk
    obtain hn | ⟨bytes, hn⟩ := h.takes.file
    · simp [hlink] at hn
    · simp [hlink] at hn
  · cases h.leads.unique hk

theorem foreign_of_link {target : String} (h : t.LeadsTo false path p)
    (hlink : t.form? p = some (.link target)) : t.Foreign path := by
  cases p with
  | inside l => exact .inl ⟨l, target, h, node?_of_link hlink⟩
  | outside l => exact .inr ⟨l, h⟩

/-- Where links are followed to the place to create a file at, the path itself is that of the place,
or of a link under which nothing is removed. -/
theorem inspect_or_link_of_create (hr : t.resolve .create path = .ok p)
    (hd : t.form? p ≠ some .directory) : t.resolve .inspect path = .ok p ∨
      t.Foreign path ∧ ∀ u, t.Fills u → (u.remove path).2 = u := by
  obtain hi | ⟨q, target, hi, hlink⟩ := resolve_inspect_of_create hr hd
  · exact .inl hi
  · have hlead : t.LeadsTo false path q := leadsTo_of_resolve hi (by simp [hlink])
    refine .inr ⟨foreign_of_link hlead hlink, fun u hu => ?_⟩
    exact remove_of_link (hu.resolve_eq hi) (hu.form?_eq hlink)

/-- A file that was just written is removed again, or it stays because there is a link to it. -/
theorem Reaches.remove_put (h : t.Reaches path p) (content : Bytes) :
    (t.LeadsTo false path p ∧ ((t.put p (.file content)).remove path).2 = t.erase p) ∨
      t.Foreign path ∧ ((t.put p (.file content)).remove path).2 = t.put p (.file content) := by
  obtain hi | ⟨hf, hrem⟩ := inspect_or_link_of_create h.resolves h.takes.not_directory
  · have hu : (t.put p (.file content)).resolve .inspect path = .ok p :=
      (fills_put h.takes content).resolve_eq hi
    have hfile : (t.put p (.file content)).node? p = some (.file content) := by simp
    rw [remove_of_file hu (h.takes.put content) hfile, erase_put]
    exact .inl ⟨leadsTo_of_resolve hi h.takes.not_directory, rfl⟩
  · exact .inr ⟨hf, hrem _ (fills_put h.takes content)⟩

theorem foreign_of_create_special {s : Special} (hr : t.resolve .create path = .ok p)
    (hd : t.form? p ≠ some .directory) (hs : t.special? p = some s) :
    t.Foreign path ∧ (t.remove path).2 = t := by
  obtain hi | ⟨hf, hrem⟩ := inspect_or_link_of_create hr hd
  · have hlead : t.LeadsTo false path p := leadsTo_of_resolve hi hd
    obtain ⟨l, rfl⟩ := outside_of_special hs
    exact ⟨.inr ⟨l, hlead⟩, remove_of_special hi hs⟩
  · exact ⟨hf, hrem t (fills_refl t)⟩

/-! ### Writing and removing together -/

variable {result : Except WriteFailure Unit} {t' : FileTree}

theorem Writes.eq_of_uncreated {cause : Failure}
    (h : t.Writes path content (.error (.uncreated cause)) t') : t' = t := by
  cases h with
  | uncreated => rfl
  | file _ hne => exact absurd rfl (hne cause)
  | special _ _ _ hne => exact absurd rfl (hne cause)

/-- A file that was created is where the path leads past links, and has a beginning of the
content. -/
theorem Writes.rewrites (h : t.Writes path content result t')
    (hc : ∀ cause, result ≠ .error (.uncreated cause)) :
    ∃ p taken, t.LeadsTo true path p ∧ taken <+: content ∧ (result = .ok () → taken = content) ∧
      t.Rewrites p taken t' := by
  cases h with
  | uncreated cause => exact absurd rfl (hc cause)
  | @file p taken _ h _ hb hok =>
    exact ⟨p, taken, h.leadsTo, hb, hok, rewrites_put h.takes taken⟩
  | @special p s _ hr hd hs =>
    have hto : t.LeadsTo true path p := leadsTo_of_resolve hr hd
    obtain ⟨l, rfl⟩ := outside_of_special hs
    have hsame : t.Rewrites (.outside l) content t :=
      rewrites_outside (fun _ _ => rfl) rfl content
    exact ⟨_, content, hto, List.prefix_rfl, fun _ => rfl, hsame⟩

/-- What removing does under a path under which a file was just created. The path's own file goes
again; any other stays if it is in the tree. -/
theorem Writes.removes (h : t.Writes path content result t')
    (hc : ∀ cause, result ≠ .error (.uncreated cause)) :
    (∃ l, t.OwnFile path l ∧ (t'.remove path).2 = t.erase (.inside l)) ∨
      t.Foreign path ∧ ∀ p taken, t.LeadsTo true path p → t.Rewrites p taken t' →
        t.Rewrites p taken (t'.remove path).2 := by
  cases h with
  | uncreated cause => exact absurd rfl (hc cause)
  | @file p taken _ h _ _ _ =>
    obtain ⟨hown, he⟩ | ⟨hf, hk⟩ := h.remove_put taken
    · cases p with
      | inside l => exact .inl ⟨l, ⟨hown, h.takes⟩, he⟩
      | outside l =>
        refine .inr ⟨.inr ⟨l, hown⟩, fun q content hq _ => ?_⟩
        cases h.leadsTo.unique hq
        rw [he]
        exact rewrites_outside (fun q hq => by rw [node?_erase, if_neg hq.symm])
          (surroundings_erase t _) content
    · refine .inr ⟨hf, fun _ _ _ hrew => ?_⟩
      rw [hk]
      exact hrew
  | special hr hd hs =>
    obtain ⟨hf, hk⟩ := foreign_of_create_special hr hd hs
    refine .inr ⟨hf, fun _ _ _ hrew => ?_⟩
    rw [hk]
    exact hrew

end TreeKinds.Files.FileTree

namespace TreeKinds.Definitions

open Files (FileTree Failure WriteFailure)

/-! ### Runs -/

variable {t t' : FileTree} {kinds : Registry} {o : Settings.Output}

theorem writeFile_run (t : FileTree) (limit : Option Nat) (kinds : Registry)
    (o : Settings.Output) : (writeFile (FileTree.disk limit) kinds o).run t =
      ((t.write limit o.path (blocks kinds)).1,
        cleaned o (t.write limit o.path (blocks kinds))) :=
  (logs_writeFile t limit kinds o).silent

theorem writeFile_of_uncreated {limit : Option Nat} {cause : Failure}
    (h : (t.write limit o.path (blocks kinds)).1 = .error (.uncreated cause)) :
    ((writeFile (FileTree.disk limit) kinds o).run t).2 = t := by
  have hw := t.writes_write limit o.path (blocks kinds)
  rw [writeFile_run]
  generalize t.write limit o.path (blocks kinds) = w at h hw ⊢
  obtain ⟨result, t'⟩ := w
  cases h
  exact hw.eq_of_uncreated

/-! ### What is left of the tree -/

/-- What is left of the tree `t` when writing definitions to a file ends with this result. -/
structure Aftermath (t : FileTree) (kinds : Registry) (o : Settings.Output)
    (result : Except WriteFailure Unit) (t' : FileTree) : Prop where
  uncreated : ∀ cause, result = .error (.uncreated cause) → t' = t
  written : result = .ok () → ∃ p, t.LeadsTo true o.path p ∧ t.Rewrites p (bytes kinds) t'
  /-- The path's own file goes again. -/
  removed : ∀ cause l, result = .error (.unwritten cause) → o.removeOnFailure = true →
    t.OwnFile o.path l → t' = t.erase (.inside l)
  /-- Any other file stays, cut short. -/
  kept : ∀ cause, result = .error (.unwritten cause) →
    o.removeOnFailure = false ∨ (∀ l, ¬t.OwnFile o.path l) →
    ∃ p content, t.LeadsTo true o.path p ∧ content <+: bytes kinds ∧ t.Rewrites p content t'
  foreign : ∀ cause, result = .error (.unwritten cause) → (∀ l, ¬t.OwnFile o.path l) →
    t.Foreign o.path

/-- The tree that is left when the file is removed, where that is asked for. -/
theorem aftermath_unwritten {cause : Failure}
    (h : t.Writes o.path (bytes kinds) (.error (.unwritten cause)) t') :
    Aftermath t kinds o (.error (.unwritten cause))
      (if o.removeOnFailure then (t'.remove o.path).2 else t') := by
  have hc (c : Failure) :
      (.error (.unwritten cause) : Except WriteFailure Unit) ≠ .error (.uncreated c) := by simp
  obtain ⟨p, taken, hto, hbegins, -, hrew⟩ := h.rewrites hc
  have hrem := h.removes hc
  refine ⟨nofun, nofun, fun _ l _ hremove hown => ?_, fun _ _ hkeep => ?_, fun _ _ hnone => ?_⟩
  · rw [if_pos hremove]
    obtain ⟨k, hk, heq⟩ | ⟨hf, -⟩ := hrem
    · cases hown.leads.unique hk.leads
      exact heq
    · exact absurd hf hown.not_foreign
  · refine ⟨p, taken, hto, hbegins, ?_⟩
    split
    next hremove =>
      obtain ⟨k, hk, -⟩ | ⟨-, hstays⟩ := hrem
      · obtain hk' | hnone := hkeep
        · simp [hk'] at hremove
        · exact absurd hk (hnone k)
      · exact hstays p taken hto hrew
    next => exact hrew
  · obtain ⟨k, hk, -⟩ | ⟨hf, -⟩ := hrem
    · exact absurd hk (hnone k)
    · exact hf

/-- Whatever becomes of the file, the rest of the tree is as it was. -/
theorem writeFile_frame (t : FileTree) (limit : Option Nat) (kinds : Registry)
    (o : Settings.Output) :
    Aftermath t kinds o ((writeFile (FileTree.disk limit) kinds o).run t).1
      ((writeFile (FileTree.disk limit) kinds o).run t).2 := by
  have hw := t.writes_write limit o.path (blocks kinds)
  rw [blocks_flatten] at hw
  rw [writeFile_run]
  generalize t.write limit o.path (blocks kinds) = w at hw ⊢
  obtain ⟨result, t'⟩ := w
  match result, hw with
  | .ok (), hw =>
    obtain ⟨p, taken, hto, -, hall, hrew⟩ := hw.rewrites nofun
    rw [hall rfl] at hrew
    exact ⟨nofun, fun _ => ⟨p, hto, hrew⟩, nofun, nofun, nofun⟩
  | .error (.uncreated cause), hw =>
    exact ⟨fun _ _ => hw.eq_of_uncreated, nofun, nofun, nofun, nofun⟩
  | .error (.unwritten cause), hw =>
    exact aftermath_unwritten hw

/-- A file that is cut short stays where a link leads to it, and the link stays too. -/
example :
    ((writeFile (FileTree.disk (some 1)) [] ⟨"a", true⟩).run
        (FileTree.ofList [(["a"], .link "b")])).2.toList =
      [(["a"], .link "b"), (["b"], .file [47])] := by
  decide +kernel

end TreeKinds.Definitions
