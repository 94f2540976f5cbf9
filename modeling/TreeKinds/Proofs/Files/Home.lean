import TreeKinds.Files.Access
import TreeKinds.Proofs.Files.Path
import TreeKinds.Proofs.Files.Resolution

/-! Paths into the tree from the root of all files. The names of the directories that the tree lies
in lead to its root. Proved: a path with these names in front resolves as it does alone, whatever it
is resolved for, and so it reads, writes and removes the same. -/
namespace TreeKinds.Files

/-- A name that a directory can have. -/
structure IsPlain (name : String) : Prop where
  nonempty : name ≠ ""
  noSlash : '/' ∉ name.toList
  noZero : '\x00' ∉ name.toList
  notHere : name ≠ "."
  notUp : name ≠ ".."
  size_le : name.utf8ByteSize ≤ nameLimit

/-- A path that begins at the root of the tree. -/
structure Route.IsRelative (path : String) : Prop where
  nonempty : path ≠ ""
  notAbsolute : (ofPath path).absolute = false

theorem Route.IsRelative.names_ne_nil {path : String} (h : IsRelative path) :
    (ofPath path).names ≠ [] := by
  obtain ⟨p, ps, hcut⟩ := exists_cutAtSlash_eq path.toList
  have htext := (cutAtSlash_eq_cons_iff.1 hcut).1
  -- without a first piece the path is empty or begins with a slash
  have hp : p ≠ [] := by
    rintro rfl
    cases ps with
    | nil => exact h.nonempty (by simpa using htext)
    | cons q ps => simpa [ofPath, htext] using h.notAbsolute
  simp [ofPath, hcut, hp]

/-! ### The way to the tree -/

namespace Surroundings

variable {s : Surroundings} {path : String}

theorem absolute_place (s : Surroundings) (l : Location) : s.absolute (s.place l) = l := by
  rw [place]
  split
  next h => exact List.prefix_iff_eq_append.1 h
  next => rfl

theorem place_home (s : Surroundings) : s.place s.home = .inside [] := by
  simp [place]

/-- The path from the root of all files to that of the tree, without a slash at the end. -/
def way (s : Surroundings) : String := String.join (s.home.map ("/" ++ ·))

/-- The path with the way to the tree in front. -/
def behind (s : Surroundings) (path : String) : String := s.way ++ "/" ++ path

theorem ofPath_behind (hplain : ∀ name ∈ s.home, IsPlain name) (hne : path ≠ "") :
    Route.ofPath (s.behind path) =
      ⟨true, s.home ++ (Route.ofPath path).names, (Route.ofPath path).asDirectory⟩ := by
  obtain ⟨p, ps, hcut⟩ := exists_cutAtSlash_eq path.toList
  obtain ⟨htext, hp, hps⟩ := cutAtSlash_eq_cons_iff.1 hcut
  have hbehind : (s.behind path).toList =
      (s.home.map String.toList ++ p :: ps).flatMap ('/' :: ·) := by
    simp [behind, way, htext, List.flatMap_map]
  have hcut' : cutAtSlash (s.behind path).toList = [] :: (s.home.map String.toList ++ p :: ps) := by
    refine cutAtSlash_eq_cons_iff.2 ⟨hbehind, List.not_mem_nil, ?_⟩
    refine List.forall_mem_append.2 ⟨?_, List.forall_mem_cons.2 ⟨hp, hps⟩⟩
    exact List.forall_mem_map.2 fun name hn => (hplain name hn).noSlash
  have hhead : (s.behind path).toList.head? = some '/' := by
    rw [hbehind]
    cases s.home <;> rfl
  have hlast : (s.behind path).toList.getLast? = path.toList.getLast? := by
    have hpath : path.toList ≠ [] := by simpa using hne
    rw [behind, String.toList_append, List.getLast?_append_of_ne_nil _ hpath]
  have hkept : (s.home.map String.toList).filter (· ≠ []) = s.home.map String.toList := by
    refine List.filter_eq_self.2 (List.forall_mem_map.2 fun name hn => ?_)
    simpa using (hplain name hn).nonempty
  have hnames : ((cutAtSlash (s.behind path).toList).filter (· ≠ [])).map String.ofList =
      s.home ++ (Route.ofPath path).names := by
    rw [hcut', List.filter_cons_of_neg (by simp), List.filter_append, hkept, List.map_append]
    simp [Route.ofPath, hcut, Function.comp_def]
  rw [Route.ofPath, hhead, hlast, hnames]
  rfl

theorem steps_behind (hplain : ∀ name ∈ s.home, IsPlain name) (hpath : Route.IsRelative path)
    (purpose : Purpose) : (Route.ofPath (s.behind path)).steps purpose =
      s.home ++ (Route.ofPath path).steps purpose := by
  rw [ofPath_behind hplain hpath.nonempty]
  cases purpose <;> simp only [Route.steps] <;> split <;>
    simp [List.dropLast_append_of_ne_nil hpath.names_ne_nil]

theorem zero_mem_behind_iff (hplain : ∀ name ∈ s.home, IsPlain name) :
    '\x00' ∈ (s.behind path).toList ↔ '\x00' ∈ path.toList := by
  have hway : '\x00' ∉ s.way.toList := by
    simpa [way, String.toList_join] using fun name hn => (hplain name hn).noZero
  simp [behind, hway]

end Surroundings

/-! ### Walking in -/

namespace FileTree

variable {t : FileTree} {name path : String} {names rest : List String} {l : Location}
  {p q : Place}

theorem enter_place (h : IsPlain name) (t : FileTree) (l : Location) :
    t.enter (t.surroundings.place l) name = t.surroundings.place (l ++ [name]) := by
  rw [enter, if_neg h.notHere, if_neg h.notUp, Surroundings.absolute_place]

/-- From a directory that the tree lies in, the rest of the way leads to the root of the tree. -/
theorem walk_place (hplain : ∀ name ∈ rest, IsPlain name)
    (hhome : t.surroundings.home = l ++ rest) (names : List String) :
    t.walk (t.surroundings.place l) (rest ++ names) = t.walk (.inside []) names := by
  induction rest generalizing l with
  | nil => rw [List.nil_append, ← List.append_nil l, ← hhome, Surroundings.place_home]
  | cons name rest ih =>
    rw [List.forall_mem_cons] at hplain
    have hnext : t.surroundings.home = (l ++ [name]) ++ rest := by
      rw [hhome, List.append_assoc, List.singleton_append]
    have hd : t.form? (t.surroundings.place l) = some .directory :=
      form?_of_isAbove (isAbove_place ⟨_, hhome.symm⟩)
    have hd' : t.form? (t.surroundings.place (l ++ [name])) = some .directory :=
      form?_of_isAbove (isAbove_place ⟨_, hnext.symm⟩)
    have ha : t.Admits (t.surroundings.place l) name := ⟨hd, hplain.1.size_le⟩
    rw [List.cons_append, ha.walk_cons, enter_place hplain.1, hd']
    exact ih hplain.2 hnext

theorem follow_congr {purpose : Purpose} {links : Nat} {names' : List String}
    (h : t.walk p names = t.walk q names') :
    t.follow purpose links p names = t.follow purpose links q names' := by
  rw [follow, follow, h]

/-! ### Files by such paths -/

section Behind

variable (hplain : ∀ name ∈ t.surroundings.home, IsPlain name) (hpath : Route.IsRelative path)
  (hsize : (t.surroundings.behind path).utf8ByteSize ≤ pathLimit)

include hplain hpath hsize

/-- The way to the tree in front of a path makes no difference, if the whole is not too long. -/
theorem resolve_behind (purpose : Purpose) :
    t.resolve purpose (t.surroundings.behind path) = t.resolve purpose path := by
  have hzero : (t.surroundings.behind path).toList.contains '\x00' =
      path.toList.contains '\x00' := by
    simpa using Surroundings.zero_mem_behind_iff hplain
  have hnonempty {s : String} (hs : s ≠ "") : ¬s.isEmpty = true := fun h =>
    hs (String.isEmpty_iff.1 h)
  have hbehind : t.surroundings.behind path ≠ "" := by simp [Surroundings.behind]
  have hsize' : path.utf8ByteSize ≤ pathLimit := by
    rw [Surroundings.behind, String.utf8ByteSize_append] at hsize
    omega
  have hout : t.origin (.inside []) (Route.ofPath (t.surroundings.behind path)) =
      t.surroundings.place [] := by
    rw [Surroundings.ofPath_behind hplain hpath.nonempty]
    rfl
  have hin : t.origin (.inside []) (Route.ofPath path) = .inside [] := by
    rw [origin, hpath.notAbsolute]
    rfl
  have hwalk : t.walk (t.surroundings.place [])
      (t.surroundings.home ++ (Route.ofPath path).steps purpose) =
        t.walk (.inside []) ((Route.ofPath path).steps purpose) := walk_place hplain rfl _
  rw [resolve, resolve, hzero, if_neg (hnonempty hbehind), if_neg (hnonempty hpath.nonempty),
    if_neg (Nat.not_lt.2 hsize), if_neg (Nat.not_lt.2 hsize')]
  dsimp only
  rw [Surroundings.steps_behind hplain hpath, hout, hin, follow_congr hwalk]

theorem read_behind : t.read (t.surroundings.behind path) = t.read path := by
  rw [read, read, resolve_behind hplain hpath hsize]

theorem write_behind (limit : Option Nat) (blocks : List Bytes) :
    t.write limit (t.surroundings.behind path) blocks = t.write limit path blocks := by
  rw [write, write, resolve_behind hplain hpath hsize]

theorem remove_behind : t.remove (t.surroundings.behind path) = t.remove path := by
  rw [remove, remove, resolve_behind hplain hpath hsize]

end Behind

/-- The path behind the way may leave the tree and come back. -/
example : (ofList [(["a"], .file [1])]).read "/tmp/tree/../tree/a" = .ok [1] := by decide +kernel

end FileTree
end TreeKinds.Files
