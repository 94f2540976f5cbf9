import TreeKinds.Files.Resolution

/-! Where a path leads, told without a function and without a limit on links. Proved: resolving
finds the one place that a path leads to, links at the end followed or not, and a file that is made
where there was none changes nothing about it. -/
namespace TreeKinds.Files

/-! ### Leading -/

namespace FileTree

/-- From the place `p` one gets along `names` to `q`. A link at the end is followed if `past` says
so, and else it is where one gets to. -/
inductive Leads (t : FileTree) (past : Bool) : (p : Place) → List String → (q : Place) → Prop
  | here (p : Place) : Leads t past p [] p
  | step {p q : Place} {name : String} {names : List String} : t.form? p = some .directory →
      (∀ target, t.form? (t.enter p name) = some (.link target) → past = false ∧ names = []) →
      Leads t past (t.enter p name) names q → Leads t past p (name :: names) q
  | link {p q : Place} {name target : String} {names : List String} :
      t.form? p = some .directory → t.form? (t.enter p name) = some (.link target) →
      (names = [] → past = true) →
      Leads t past (t.origin p (Route.ofPath target)) ((Route.ofPath target).steps .reach ++ names)
        q →
      Leads t past p (name :: names) q

variable {t u : FileTree} {past : Bool} {p q : Place} {names : List String}

theorem Leads.unique {q' : Place} (h : t.Leads past p names q) (h' : t.Leads past p names q') :
    q = q' := by
  induction h with
  | here p =>
    cases h'
    rfl
  | step _ hend _ ih =>
    cases h' with
    | step _ _ h' => exact ih h'
    | link _ hl hpast _ =>
      obtain ⟨hfalse, hnil⟩ := hend _ hl
      exact absurd (hpast hnil) (by rw [hfalse]; decide)
  | link _ hl hpast _ ih =>
    cases h' with
    | step _ hend _ =>
      obtain ⟨hfalse, hnil⟩ := hend _ hl
      exact absurd (hpast hnil) (by rw [hfalse]; decide)
    | link _ hl' _ h' =>
      rw [hl] at hl'
      cases hl'
      exact ih h'

theorem form?_of_isAbove (h : t.isAbove p = true) : t.form? p = some .directory := by
  rw [form?, if_pos h]

theorem isAbove_place {l : Location} (h : l <+: t.surroundings.home) :
    t.isAbove (t.surroundings.place l) = true := by
  rw [Surroundings.place]
  split
  next hhome =>
    have hl : t.surroundings.home.length = l.length := Nat.le_antisymm hhome.length_le h.length_le
    simp [isAbove, hl]
  next => exact decide_eq_true h

theorem form?_origin (h : t.form? p = some .directory) (r : Route) :
    t.form? (t.origin p r) = some .directory := by
  rw [origin]
  split
  · exact form?_of_isAbove (isAbove_place (List.nil_prefix))
  · exact h

/-- Where links are followed none stands at the end. -/
theorem Leads.not_link (h : t.Leads true p names q)
    (hp : ∀ target, t.form? p ≠ some (.link target)) :
    ∀ target, t.form? q ≠ some (.link target) := by
  induction h with
  | here p => exact hp
  | step _ hend _ ih =>
    refine ih fun target hl => ?_
    exact absurd (hend target hl).1 (by decide)
  | link hd _ _ _ ih =>
    refine ih fun target hl => ?_
    rw [form?_origin hd] at hl
    cases hl

/-! ### Walking -/

/-- A walk can go on from the place with the name. -/
structure Admits (t : FileTree) (p : Place) (name : String) : Prop where
  directory : t.form? p = some .directory
  size_le : name.utf8ByteSize ≤ nameLimit

theorem Admits.walk_cons {name : String} (h : t.Admits p name) (rest : List String) :
    t.walk p (name :: rest) =
      match t.form? (t.enter p name) with
      | none => if rest = [] then .ok (.at (t.enter p name)) else .error .notFound
      | some (.link target) => .ok (.link (t.enter p name) target p rest)
      | some _ => t.walk (t.enter p name) rest := by
  rw [walk]
  exact (if_neg (Decidable.not_not.2 h.directory)).trans (if_neg (Nat.not_lt.2 h.size_le))

/-- The walks that come to a halt, and where they do. -/
inductive Walks (t : FileTree) : Place → List String → Halt → Prop
  | here (p : Place) : Walks t p [] (.at p)
  | missing {p : Place} {name : String} : t.Admits p name → t.form? (t.enter p name) = none →
      Walks t p [name] (.at (t.enter p name))
  | link {p : Place} {name target : String} {rest : List String} : t.Admits p name →
      t.form? (t.enter p name) = some (.link target) →
      Walks t p (name :: rest) (.link (t.enter p name) target p rest)
  | on {p : Place} {name : String} {rest : List String} {f : Form} {x : Halt} : t.Admits p name →
      t.form? (t.enter p name) = some f → (∀ target, f ≠ .link target) →
      Walks t (t.enter p name) rest x → Walks t p (name :: rest) x

theorem walks_of_walk {x : Halt} (h : t.walk p names = .ok x) : t.Walks p names x := by
  induction names generalizing p with
  | nil =>
    cases h
    exact .here _
  | cons name rest ih =>
    rw [walk] at h
    split at h
    next => cases h
    next hd =>
      split at h
      next => cases h
      next hn =>
        have ha : t.Admits p name := ⟨Decidable.not_not.1 hd, Nat.not_lt.1 hn⟩
        dsimp only at h
        split at h
        next hf =>
          split at h
          next hr =>
            cases h
            subst hr
            exact .missing ha hf
          next => cases h
        next hf =>
          cases h
          exact .link ha hf
        next hlink hf => exact .on ha hf hlink (ih h)

theorem Walks.walk_eq {x : Halt} (h : t.Walks p names x) : t.walk p names = .ok x := by
  induction h with
  | here p => rfl
  | missing ha hf => rw [ha.walk_cons, hf, if_pos rfl]
  | link ha hf => rw [ha.walk_cons, hf]
  | @on p name rest f x ha hf hlink _ ih =>
    rw [ha.walk_cons, hf]
    cases f with
    | link target => exact absurd rfl (hlink target)
    | _ => exact ih

theorem walk_eq_ok_iff {x : Halt} : t.walk p names = .ok x ↔ t.Walks p names x :=
  ⟨walks_of_walk, Walks.walk_eq⟩

theorem Walks.leads (h : t.Walks p names (.at q)) : t.Leads past p names q := by
  generalize hx : Halt.at q = x at h
  induction h with
  | here p =>
    cases hx
    exact .here _
  | missing ha hf =>
    cases hx
    exact .step ha.directory (fun target hl => by rw [hf] at hl; cases hl) (.here _)
  | link => cases hx
  | on ha hf hlink _ ih =>
    refine .step ha.directory (fun target hl => ?_) (ih hx)
    rw [hf] at hl
    exact absurd (Option.some.inj hl) (hlink target)

/-- Along `names` one comes to a link in the directory `d`, with the names of `rest` left. -/
structure Meets (t : FileTree) (p : Place) (names : List String) (l : Place) (target : String)
    (d : Place) (rest : List String) : Prop where
  isLink : t.form? l = some (.link target)
  itself : rest = [] → t.Leads false p names l
  past {past : Bool} {q : Place} : (rest = [] → past = true) →
    t.Leads past (t.origin d (Route.ofPath target)) ((Route.ofPath target).steps .reach ++ rest) q →
    t.Leads past p names q

theorem Walks.meets {l d : Place} {target : String} {rest : List String}
    (h : t.Walks p names (.link l target d rest)) : t.Meets p names l target d rest := by
  generalize hx : Halt.link l target d rest = x at h
  induction h with
  | here => cases hx
  | missing => cases hx
  | link ha hl =>
    cases hx
    refine ⟨hl, ?_, fun hpast => .link ha.directory hl hpast⟩
    rintro rfl
    exact .step ha.directory (fun _ _ => ⟨rfl, rfl⟩) (.here _)
  | @on p name rest' f x ha hf hlink _ ih =>
    obtain ⟨hl, hself, hpast⟩ := ih hx
    have hend (target : String) : t.form? (t.enter p name) ≠ some (.link target) := by
      rw [hf]
      exact fun hl => hlink target (Option.some.inj hl)
    refine ⟨hl, fun hr => ?_, fun hp hq => ?_⟩
    · exact .step ha.directory (fun target hl => absurd hl (hend target)) (hself hr)
    · exact .step ha.directory (fun target hl => absurd hl (hend target)) (hpast hp hq)

/-- Names of which the last stands for the directory itself lead to a directory, or to a link
before the end. -/
theorem Walks.last_dot {x : Halt} (h : t.Walks p names x) (hdot : names.getLast? = some ".") :
    (∃ q, x = .at q ∧ t.form? q = some .directory) ∨
      ∃ l target d rest, x = .link l target d rest ∧ rest.getLast? = some "." := by
  induction h with
  | here => cases hdot
  | missing ha hf =>
    cases hdot
    exact absurd (hf.symm.trans ha.directory) (by simp)
  | @link p name target rest ha hf =>
    rw [List.getLast?_cons] at hdot
    cases hr : rest.getLast? with
    | none =>
      rw [hr] at hdot
      cases hdot
      exact absurd (hf.symm.trans ha.directory) (by simp)
    | some last =>
      rw [hr] at hdot
      exact .inr ⟨_, _, _, _, rfl, hr.trans hdot⟩
  | @on p name rest f x ha hf hlink hw ih =>
    rw [List.getLast?_cons] at hdot
    cases hr : rest.getLast? with
    | none =>
      rw [hr] at hdot
      cases hdot
      rw [List.getLast?_eq_none_iff] at hr
      subst hr
      cases hw
      exact .inl ⟨_, rfl, ha.directory⟩
    | some last =>
      rw [hr] at hdot
      exact ih (hr.trans hdot)

/-! ### Following links -/

/-- The walks that come to a place when at most `links` links are followed on the way. -/
inductive Follows (t : FileTree) (purpose : Purpose) :
    (links : Nat) → Place → List String → Place → Prop
  | at {n : Nat} {p q : Place} {names : List String} : t.Walks p names (.at q) →
      Follows t purpose n p names q
  | itself {n : Nat} {p l d : Place} {names : List String} {target : String} :
      t.Walks p names (.link l target d []) → purpose = .inspect → Follows t purpose n p names l
  | past {n : Nat} {p l d q : Place} {names rest : List String} {target : String} :
      t.Walks p names (.link l target d rest) → ¬(purpose = .inspect ∧ rest = []) →
      Follows t purpose n (t.origin d (Route.ofPath target))
        (if rest = [] then (Route.ofPath target).steps purpose
          else (Route.ofPath target).steps .reach ++ rest) q →
      Follows t purpose (n + 1) p names q

variable {purpose : Purpose} {links : Nat}

theorem follows_of_follow (h : t.follow purpose links p names = .ok q) :
    t.Follows purpose links p names q := by
  fun_induction follow t purpose links p names with
  | case1 => cases h
  | case2 links p names p' hw =>
    cases h
    exact .at (walk_eq_ok_iff.1 hw)
  | case3 links p names l target d rest hw hi =>
    cases h
    obtain ⟨hp, rfl⟩ := hi
    exact .itself (walk_eq_ok_iff.1 hw) hp
  | case4 => cases h
  | case5 p names l target d rest hw hi links r names' ih =>
    exact .past (walk_eq_ok_iff.1 hw) hi (ih h)

theorem Follows.follow_eq (h : t.Follows purpose links p names q) :
    t.follow purpose links p names = .ok q := by
  induction h with
  | «at» hw => rw [follow, hw.walk_eq]
  | itself hw hp =>
    rw [follow, hw.walk_eq]
    exact if_pos ⟨hp, rfl⟩
  | past hw hi _ ih =>
    rw [follow, hw.walk_eq]
    exact (if_neg hi).trans ih

theorem follow_eq_ok_iff :
    t.follow purpose links p names = .ok q ↔ t.Follows purpose links p names q :=
  ⟨follows_of_follow, Follows.follow_eq⟩

/-- Following never goes past names of which the last stands for the directory itself. -/
theorem Follows.last_dot (h : t.Follows purpose links p names q)
    (hdot : names.getLast? = some ".") : t.form? q = some .directory := by
  induction h with
  | «at» hw =>
    obtain ⟨_, hx, hd⟩ | ⟨_, _, _, _, hx, -⟩ := hw.last_dot hdot
    · cases hx
      exact hd
    · cases hx
  | itself hw _ =>
    obtain ⟨_, hx, -⟩ | ⟨_, _, _, _, hx, hrest⟩ := hw.last_dot hdot
    · cases hx
    · cases hx
      cases hrest
  | @past n p l d q names rest target hw _ _ ih =>
    obtain ⟨_, hx, -⟩ | ⟨_, _, _, _, hx, hrest⟩ := hw.last_dot hdot
    · cases hx
    · cases hx
      have hne : rest ≠ [] := by
        rintro rfl
        cases hrest
      refine ih ?_
      rw [if_neg hne, List.getLast?_append, hrest, Option.some_or]

theorem getLast?_steps {r : Route} (h : r.asDirectory = true) :
    (r.steps purpose).getLast? = some "." := by
  cases purpose <;> simp [Route.steps, h]

/-- The purpose makes no difference to the names of a path that does not lead to a directory. -/
theorem Follows.steps_eq {r : Route} (hq : t.form? q ≠ some .directory)
    (h : t.Follows purpose links p (r.steps purpose) q) : r.steps purpose = r.steps .reach := by
  have hr : r.asDirectory = false :=
    Bool.eq_false_iff.2 fun hr => hq (h.last_dot (getLast?_steps hr))
  cases purpose <;> simp [Route.steps, hr]

/-- Following goes where the names lead. -/
theorem Follows.leads (h : t.Follows purpose links p names q)
    (hq : t.form? q ≠ some .directory) : t.Leads (decide (purpose ≠ .inspect)) p names q := by
  induction h with
  | «at» hw => exact hw.leads
  | itself hw hp =>
    subst hp
    exact hw.meets.itself rfl
  | @past n p l d q names rest target hw hi h ih =>
    refine hw.meets.past (fun hr => decide_eq_true fun hp => hi ⟨hp, hr⟩) ?_
    by_cases hr : rest = []
    · rw [if_pos hr] at h ih
      rw [hr, List.append_nil, ← h.steps_eq hq]
      exact ih hq
    · rw [if_neg hr] at ih
      exact ih hq

/-- If a link at the end is not followed, one comes to the same place or to the link. -/
theorem Follows.inspect (h : t.Follows .create links p names q) :
    t.Follows .inspect links p names q ∨
      ∃ l target, t.Follows .inspect links p names l ∧ t.form? l = some (.link target) := by
  induction h with
  | «at» hw => exact .inl (.at hw)
  | itself _ hp => cases hp
  | @past n p l d q names rest target hw _ _ ih =>
    by_cases hr : rest = []
    · subst hr
      exact .inr ⟨l, target, .itself hw rfl, hw.meets.isLink⟩
    · have hi : ¬(Purpose.inspect = .inspect ∧ rest = []) := fun hi => hr hi.2
      rw [if_neg hr] at ih
      obtain h' | ⟨l', target', h', hl⟩ := ih
      · exact .inl (.past hw hi (by rwa [if_neg hr]))
      · exact .inr ⟨l', target', .past hw hi (by rwa [if_neg hr]), hl⟩

/-! ### Resolving -/

/-- A path that the system looks at: no zero character, not empty and not too long. -/
structure Usable (path : String) : Prop where
  noZero : path.toList.contains '\x00' = false
  nonempty : path.isEmpty = false
  size_le : path.utf8ByteSize ≤ pathLimit

theorem resolve_eq_ok_iff {path : String} : t.resolve purpose path = .ok q ↔ Usable path ∧
    t.Follows purpose linkLimit (t.origin (.inside []) (Route.ofPath path))
      ((Route.ofPath path).steps purpose) q := by
  rw [resolve]
  constructor
  · intro h
    split at h
    next => cases h
    next hz =>
      split at h
      next => cases h
      next he =>
        split at h
        next => cases h
        next hs =>
          refine ⟨⟨?_, ?_, Nat.not_lt.1 hs⟩, follow_eq_ok_iff.1 h⟩
          · exact Bool.eq_false_iff.2 hz
          · exact Bool.eq_false_iff.2 he
  · rintro ⟨⟨hz, he, hs⟩, h⟩
    rw [if_neg (Bool.eq_false_iff.1 hz), if_neg (Bool.eq_false_iff.1 he),
      if_neg (Nat.not_lt.2 hs)]
    exact h.follow_eq

/-- Where a path leads from the root of the tree; `past` says whether a link at its end is
followed. -/
def LeadsTo (t : FileTree) (past : Bool) (path : String) (q : Place) : Prop :=
  t.Leads past (t.origin (.inside []) (Route.ofPath path)) ((Route.ofPath path).steps .reach) q

theorem LeadsTo.unique {path : String} {q' : Place} (h : t.LeadsTo past path q)
    (h' : t.LeadsTo past path q') : q = q' :=
  Leads.unique h h'

theorem LeadsTo.not_link {path : String} (h : t.LeadsTo true path q) :
    ∀ target, t.form? q ≠ some (.link target) := by
  refine Leads.not_link h fun target hl => ?_
  rw [form?_origin (p := .inside []) (form?_of_isAbove rfl)] at hl
  cases hl

/-- Resolving finds where a path leads, directories apart. -/
theorem leadsTo_of_resolve {path : String} (h : t.resolve purpose path = .ok q)
    (hq : t.form? q ≠ some .directory) : t.LeadsTo (decide (purpose ≠ .inspect)) path q := by
  obtain ⟨-, h⟩ := resolve_eq_ok_iff.1 h
  have hl := h.leads hq
  rwa [h.steps_eq hq] at hl

theorem resolve_inspect_of_create {path : String} (h : t.resolve .create path = .ok q)
    (hq : t.form? q ≠ some .directory) : t.resolve .inspect path = .ok q ∨
      ∃ l target, t.resolve .inspect path = .ok l ∧ t.form? l = some (.link target) := by
  obtain ⟨hu, h⟩ := resolve_eq_ok_iff.1 h
  have hsteps : (Route.ofPath path).steps .create = (Route.ofPath path).steps .inspect :=
    h.steps_eq hq
  obtain h' | ⟨l, target, h', hl⟩ := h.inspect
  · rw [hsteps] at h'
    exact .inl (resolve_eq_ok_iff.2 ⟨hu, h'⟩)
  · rw [hsteps] at h'
    exact .inr ⟨l, target, resolve_eq_ok_iff.2 ⟨hu, h'⟩, hl⟩

/-! ### New files -/

/-- The trees are alike to one who follows paths, but where `t` has nothing `u` may have a file. -/
structure Fills (t u : FileTree) : Prop where
  surroundings : u.surroundings = t.surroundings
  forms : ∀ q, u.form? q = t.form? q ∨ t.form? q = none ∧ u.form? q = some .leaf

theorem fills_refl (t : FileTree) : t.Fills t := ⟨rfl, fun _ => .inl rfl⟩

theorem Fills.enter_eq (h : Fills t u) (p : Place) (name : String) :
    u.enter p name = t.enter p name := by
  rw [enter, enter, h.surroundings]

theorem Fills.origin_eq (h : Fills t u) (p : Place) (r : Route) : u.origin p r = t.origin p r := by
  rw [origin, origin, h.surroundings]

theorem Fills.form?_eq {f : Form} (h : Fills t u) (hq : t.form? q = some f) :
    u.form? q = some f := by
  obtain he | ⟨hn, -⟩ := h.forms q
  · rw [he, hq]
  · rw [hq] at hn
    cases hn

theorem Fills.form?_eq_of_ne_leaf {f : Form} (h : Fills t u) (hf : f ≠ .leaf)
    (hq : u.form? q = some f) : t.form? q = some f := by
  obtain he | ⟨-, hleaf⟩ := h.forms q
  · rw [← he, hq]
  · rw [hq] at hleaf
    exact absurd (Option.some.inj hleaf) hf

theorem Fills.admits_iff {name : String} (h : Fills t u) :
    t.Admits p name ↔ u.Admits p name := by
  constructor
  · intro ha
    exact ⟨h.form?_eq ha.directory, ha.size_le⟩
  · intro ha
    exact ⟨h.form?_eq_of_ne_leaf (by simp) ha.directory, ha.size_le⟩

theorem Fills.walks {x : Halt} (h : Fills t u) (hw : t.Walks p names x) : u.Walks p names x := by
  induction hw with
  | here p => exact .here p
  | @missing p name ha hf =>
    rw [← h.enter_eq] at hf ⊢
    -- a file that has been made there ends the walk at the same place
    obtain he | ⟨-, hleaf⟩ := h.forms (u.enter p name)
    · exact .missing (h.admits_iff.1 ha) (he.trans hf)
    · exact .on (h.admits_iff.1 ha) hleaf (by simp) (.here _)
  | link ha hf =>
    rw [← h.enter_eq] at hf ⊢
    exact .link (h.admits_iff.1 ha) (h.form?_eq hf)
  | on ha hf hlink _ ih =>
    rw [← h.enter_eq] at hf ih
    exact .on (h.admits_iff.1 ha) (h.form?_eq hf) hlink ih

theorem Fills.walks_of_walks {x : Halt} (h : Fills t u) (hw : u.Walks p names x) :
    t.Walks p names x := by
  induction hw with
  | here p => exact .here p
  | @missing p name ha hf =>
    rw [h.enter_eq] at hf ⊢
    have hnone : t.form? (t.enter p name) = none := by
      obtain he | ⟨hn, -⟩ := h.forms (t.enter p name)
      · rw [← he, hf]
      · exact hn
    exact .missing (h.admits_iff.2 ha) hnone
  | link ha hf =>
    rw [h.enter_eq] at hf ⊢
    exact .link (h.admits_iff.2 ha) (h.form?_eq_of_ne_leaf (by simp) hf)
  | @on p name rest f x ha hf hlink hw ih =>
    rw [h.enter_eq] at hf hw ih
    obtain he | ⟨hn, hleaf⟩ := h.forms (t.enter p name)
    · exact .on (h.admits_iff.2 ha) (he.symm.trans hf) hlink ih
    · -- the walk ends here, since it cannot go on from a file
      have hstop (next : String) : ¬u.Admits (t.enter p name) next := fun ha' => by
        have hd := ha'.directory
        rw [hleaf] at hd
        cases hd
      cases hw with
      | here => exact .missing (h.admits_iff.2 ha) hn
      | missing ha' => exact absurd ha' (hstop _)
      | link ha' => exact absurd ha' (hstop _)
      | on ha' => exact absurd ha' (hstop _)

theorem Follows.mono (h : t.Follows purpose links p names q)
    (hwalks : ∀ p names x, t.Walks p names x → u.Walks p names x)
    (horigin : ∀ p r, u.origin p r = t.origin p r) : u.Follows purpose links p names q := by
  induction h with
  | «at» hw => exact .at (hwalks _ _ _ hw)
  | itself hw hp => exact .itself (hwalks _ _ _ hw) hp
  | past hw hi _ ih =>
    rw [← horigin] at ih
    exact .past (hwalks _ _ _ hw) hi ih

/-- Paths lead to the same places whether a file is there already or still to be made. -/
theorem Fills.resolve_eq_ok_iff {path : String} (h : Fills t u) :
    t.resolve purpose path = .ok q ↔ u.resolve purpose path = .ok q := by
  rw [FileTree.resolve_eq_ok_iff, FileTree.resolve_eq_ok_iff, h.origin_eq]
  refine and_congr_right fun _ => ⟨fun hf => ?_, fun hf => ?_⟩
  · exact hf.mono (fun _ _ _ => h.walks) h.origin_eq
  · exact hf.mono (fun _ _ _ => h.walks_of_walks) fun p r => (h.origin_eq p r).symm

theorem Fills.resolve_eq {path : String} (h : Fills t u) (hr : t.resolve purpose path = .ok q) :
    u.resolve purpose path = .ok q :=
  h.resolve_eq_ok_iff.1 hr

end FileTree
end TreeKinds.Files
