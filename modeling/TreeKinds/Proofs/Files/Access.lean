import TreeKinds.Files.Access
import TreeKinds.Proofs.Files.Resolution

/-! What writing a file and removing one do to a tree. Proved: writing touches at most the place
that the path leads to, and a path that leads to a link or a special file removes nothing. -/
namespace TreeKinds.Files.FileTree

variable {t u : FileTree} {bytes : Bytes} {path : String} {p q : Place}

/-! ### What a place looks like -/

theorem form?_of_ordinary (ha : t.isAbove p = false) (hs : t.special? p = none) :
    t.form? p = (t.node? p).map Node.form := by
  simp [form?, ha, hs]

theorem isAbove_eq_false (hd : t.form? p ≠ some .directory) : t.isAbove p = false :=
  Bool.eq_false_iff.2 fun h => hd (form?_of_isAbove h)

theorem isAbove_congr (hs : u.surroundings = t.surroundings) (q : Place) :
    u.isAbove q = t.isAbove q := by
  cases q <;> simp [isAbove, hs]

theorem special?_congr (hs : u.surroundings = t.surroundings) (q : Place) :
    u.special? q = t.special? q := by
  cases q <;> simp [special?, hs]

theorem form?_congr (hs : u.surroundings = t.surroundings) (h : u.node? q = t.node? q) :
    u.form? q = t.form? q := by
  rw [form?, form?, isAbove_congr hs, special?_congr hs, h]

/-- Links are entries. -/
theorem node?_of_link {target : String} (h : t.form? p = some (.link target)) :
    t.node? p = some (.link target) := by
  have ha : t.isAbove p = false := isAbove_eq_false (by simp [h])
  cases hs : t.special? p with
  | some s =>
    simp [form?, ha, hs] at h
  | none =>
    rw [form?_of_ordinary ha hs] at h
    obtain ⟨n, hn, hf⟩ := Option.map_eq_some_iff.1 h
    cases n <;> cases hf
    exact hn

/-- Special files are not in the tree. -/
theorem outside_of_special {s : Special} (h : t.special? p = some s) : ∃ l, p = .outside l := by
  cases p with
  | inside l => cases h
  | outside l => exact ⟨l, rfl⟩

/-! ### Where a file can be -/

/-- A regular file stands at an ordinary place, or nothing at all. -/
structure TakesFile (t : FileTree) (p : Place) : Prop where
  below : t.isAbove p = false
  ordinary : t.special? p = none
  file : t.node? p = none ∨ ∃ bytes, t.node? p = some (.file bytes)

theorem TakesFile.form?_eq (h : t.TakesFile p) : t.form? p = (t.node? p).map Node.form :=
  form?_of_ordinary h.below h.ordinary

theorem TakesFile.not_directory (h : t.TakesFile p) : t.form? p ≠ some .directory := by
  rw [h.form?_eq]
  obtain hn | ⟨bytes, hn⟩ := h.file
  · simp [hn]
  · simp [hn, Node.form]

/-- An ordinary place that is neither a directory nor a link takes a file. -/
theorem takesFile_of_form? (hd : t.form? p ≠ some .directory) (hs : t.special? p = none)
    (hlink : ∀ target, t.form? p ≠ some (.link target)) : t.TakesFile p := by
  have ha : t.isAbove p = false := isAbove_eq_false hd
  refine ⟨ha, hs, ?_⟩
  rw [form?_of_ordinary ha hs] at hd hlink
  cases hn : t.node? p with
  | none => exact .inl rfl
  | some n =>
    rw [hn] at hd hlink
    cases n with
    | directory => exact absurd rfl hd
    | file bytes => exact .inr ⟨bytes, rfl⟩
    | link target => exact absurd rfl (hlink target)

theorem TakesFile.congr (h : t.TakesFile p) (hs : u.surroundings = t.surroundings)
    (hn : u.node? p = none ∨ ∃ bytes, u.node? p = some (.file bytes)) : u.TakesFile p where
  below := (isAbove_congr hs p).trans h.below
  ordinary := (special?_congr hs p).trans h.ordinary
  file := hn

theorem TakesFile.put (h : t.TakesFile p) (bytes : Bytes) : (t.put p (.file bytes)).TakesFile p :=
  h.congr (by simp) (.inr ⟨bytes, by simp⟩)

theorem TakesFile.erase (h : t.TakesFile p) : (t.erase p).TakesFile p :=
  h.congr (by simp) (.inl (by simp))

theorem form?_put_of_ne (h : q ≠ p) (n : Node) : (t.put p n).form? q = t.form? q :=
  form?_congr (by simp) (by rw [node?_put, if_neg h.symm])

theorem form?_erase_of_ne (h : q ≠ p) : (t.erase p).form? q = t.form? q :=
  form?_congr (by simp) (by rw [node?_erase, if_neg h.symm])

theorem TakesFile.form?_put (h : t.TakesFile p) (bytes : Bytes) :
    (t.put p (.file bytes)).form? p = some .leaf := by
  simp [(h.put bytes).form?_eq, Node.form]

/-- A file that is written where there is one or none is a new file at most. -/
theorem fills_put (h : t.TakesFile p) (bytes : Bytes) : t.Fills (t.put p (.file bytes)) := by
  refine ⟨surroundings_put t p _, fun q => ?_⟩
  by_cases hq : q = p
  · subst hq
    rw [h.form?_put, h.form?_eq]
    obtain hn | ⟨old, hn⟩ := h.file
    · exact .inr ⟨by rw [hn]; rfl, rfl⟩
    · exact .inl (by rw [hn]; rfl)
  · exact .inl (form?_put_of_ne hq _)

/-- Without a file in it a tree has room for that file at most. -/
theorem fills_erase (h : t.TakesFile p) : (t.erase p).Fills t := by
  refine ⟨(surroundings_erase t p).symm, fun q => ?_⟩
  by_cases hq : q = p
  · subst hq
    have hgone : (t.erase q).form? q = none := by simp [h.erase.form?_eq]
    rw [hgone, h.form?_eq]
    obtain hn | ⟨old, hn⟩ := h.file
    · exact .inl (by rw [hn]; rfl)
    · exact .inr ⟨rfl, by rw [hn]; rfl⟩
  · exact .inl (form?_erase_of_ne hq).symm

/-! ### The file under a path -/

/-- The path is that of a regular file, or of one that can be made. -/
structure Reaches (t : FileTree) (path : String) (p : Place) : Prop where
  resolves : t.resolve .create path = .ok p
  takes : t.TakesFile p

theorem reaches_of_resolve (hr : t.resolve .create path = .ok p)
    (hd : t.form? p ≠ some .directory) (hs : t.special? p = none) : t.Reaches path p := by
  have hto : t.LeadsTo true path p := leadsTo_of_resolve hr hd
  exact ⟨hr, takesFile_of_form? hd hs hto.not_link⟩

theorem Reaches.leadsTo (h : t.Reaches path p) : t.LeadsTo true path p :=
  leadsTo_of_resolve h.resolves h.takes.not_directory

theorem Reaches.put (h : t.Reaches path p) (bytes : Bytes) :
    (t.put p (.file bytes)).Reaches path p :=
  ⟨(fills_put h.takes bytes).resolve_eq h.resolves, h.takes.put bytes⟩

theorem Reaches.erase (h : t.Reaches path p) : (t.erase p).Reaches path p :=
  ⟨(fills_erase h.takes).resolve_eq_ok_iff.2 h.resolves, h.takes.erase⟩

/-! ### Writing -/

theorem Reaches.write_eq (h : t.Reaches path p) (limit : Option Nat) (blocks : List Bytes) :
    t.write limit path blocks =
      (outcome (fill limit blocks), t.put p (.file (fill limit blocks).taken)) := by
  rw [write, h.resolves]
  dsimp only
  rw [if_neg h.takes.not_directory, h.takes.ordinary]

theorem taken_fill_begins (limit : Option Nat) (blocks : List Bytes) :
    (fill limit blocks).taken <+: blocks.flatten := by
  rw [fill, Definitions.Sink.deliver_taken]
  cases limit with
  | none => exact List.prefix_rfl
  | some n => exact List.take_prefix n _

theorem outcome_eq_ok_iff {d : Definitions.Delivery} : outcome d = .ok () ↔ d.failure = none := by
  rw [outcome, ← Option.isNone_iff_eq_none]
  split
  next h => simp [h]
  next h => simp [h]

/-- A file whose writing succeeds takes everything. -/
theorem taken_fill_of_outcome {limit : Option Nat} {blocks : List Bytes}
    (h : outcome (fill limit blocks) = .ok ()) : (fill limit blocks).taken = blocks.flatten := by
  rw [outcome_eq_ok_iff, fill, Definitions.Sink.deliver_failure] at h
  split at h
  next hfits => rw [fill, Definitions.Sink.deliver_taken, Definitions.Sink.share_of_fits hfits]
  next => cases h

theorem outcome_ne_uncreated (d : Definitions.Delivery) (cause : Failure) :
    outcome d ≠ .error (.uncreated cause) := by
  rw [outcome]
  split <;> simp

/-- The ways in which writing can end, and the trees that it leaves. -/
inductive Writes (t : FileTree) (path : String) (content : Bytes) :
    Except WriteFailure Unit → FileTree → Prop
  | uncreated (cause : Failure) : Writes t path content (.error (.uncreated cause)) t
  | file {p : Place} {taken : Bytes} {result : Except WriteFailure Unit} : t.Reaches path p →
      (∀ cause, result ≠ .error (.uncreated cause)) → taken <+: content →
      (result = .ok () → taken = content) →
      Writes t path content result (t.put p (.file taken))
  | special {p : Place} {s : Special} {result : Except WriteFailure Unit} :
      t.resolve .create path = .ok p → t.form? p ≠ some .directory → t.special? p = some s →
      (∀ cause, result ≠ .error (.uncreated cause)) → Writes t path content result t

theorem writes_write (t : FileTree) (limit : Option Nat) (path : String) (blocks : List Bytes) :
    t.Writes path blocks.flatten (t.write limit path blocks).1 (t.write limit path blocks).2 := by
  rw [write]
  split
  next f _ => exact .uncreated f
  next p hr =>
    split
    next => exact .uncreated _
    next hd =>
      split
      next s hs =>
        by_cases hw : ∃ cause, s.write blocks = .error (.uncreated cause)
        · obtain ⟨cause, hw⟩ := hw
          rw [hw]
          exact .uncreated cause
        · exact .special hr hd hs (not_exists.1 hw)
      next hs =>
        exact .file (reaches_of_resolve hr hd hs) (outcome_ne_uncreated _)
          (taken_fill_begins limit blocks) taken_fill_of_outcome

/-! ### One node after another -/

theorem erase_put (t : FileTree) (p : Place) (n : Node) : (t.put p n).erase p = t.erase p := by
  refine ext_node? (by simp) fun q => ?_
  simp only [node?_erase, node?_put]
  split <;> rfl

theorem put_put (t : FileTree) (p : Place) (m n : Node) : (t.put p m).put p n = t.put p n := by
  refine ext_node? (by simp) fun q => ?_
  simp only [node?_put]
  split <;> rfl

theorem put_erase (t : FileTree) (p : Place) (n : Node) : (t.erase p).put p n = t.put p n := by
  refine ext_node? (by simp) fun q => ?_
  simp only [node?_erase, node?_put]
  split <;> rfl

/-! ### Removing -/

theorem remove_of_file (hr : t.resolve .inspect path = .ok p) (h : t.TakesFile p)
    (hf : t.node? p = some (.file bytes)) : t.remove path = (.removed, t.erase p) := by
  rw [remove, hr]
  dsimp only
  rw [if_neg h.not_directory, h.ordinary, hf]

theorem remove_of_link {target : String} (hr : t.resolve .inspect path = .ok p)
    (hf : t.form? p = some (.link target)) : (t.remove path).2 = t := by
  rw [remove, hr]
  dsimp only
  rw [if_neg (by simp [hf]), node?_of_link hf]
  split
  next => rfl
  next h => cases h
  next h => cases h
  next => rfl

theorem remove_of_special {s : Special} (hr : t.resolve .inspect path = .ok p)
    (hs : t.special? p = some s) : (t.remove path).2 = t := by
  rw [remove, hr]
  dsimp only
  rw [hs]
  split <;> rfl

end TreeKinds.Files.FileTree
