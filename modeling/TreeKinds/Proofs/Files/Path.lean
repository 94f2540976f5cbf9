import Mathlib.Data.List.Basic
import TreeKinds.Files.Path

/-! Which texts are the same path. Cutting at slashes is undone by putting them back. Proved: the
texts that name one thing in the current directory are its name with slashes, and points behind
slashes, at the end. -/
namespace TreeKinds.Files

variable {s p q : List Char} {ps qs : List (List Char)}

/-! ### Pieces -/

theorem cutAtSlash_slash (s : List Char) : cutAtSlash ('/' :: s) = [] :: cutAtSlash s := rfl

theorem cutAtSlash_cons {c : Char} (hc : c ≠ '/') (h : cutAtSlash s = q :: qs) :
    cutAtSlash (c :: s) = (c :: q) :: qs := by
  rw [cutAtSlash, if_neg hc, h]

theorem exists_cutAtSlash_eq (s : List Char) : ∃ p ps, cutAtSlash s = p :: ps := by
  induction s with
  | nil => exact ⟨[], [], rfl⟩
  | cons c s ih =>
    by_cases hc : c = '/'
    · subst hc
      exact ⟨[], _, cutAtSlash_slash s⟩
    · obtain ⟨p, ps, h⟩ := ih
      exact ⟨c :: p, ps, cutAtSlash_cons hc h⟩

theorem cutAtSlash_append (hp : '/' ∉ p) (h : cutAtSlash s = q :: qs) :
    cutAtSlash (p ++ s) = (p ++ q) :: qs := by
  induction p with
  | nil => exact h
  | cons c p ih =>
    rw [List.mem_cons, not_or] at hp
    exact cutAtSlash_cons (Ne.symm hp.1) (ih hp.2)

/-- Pieces have no slashes, and with one before each but the first they are the text. -/
theorem cutAtSlash_eq_cons_iff : cutAtSlash s = p :: ps ↔
    s = p ++ ps.flatMap ('/' :: ·) ∧ '/' ∉ p ∧ ∀ q ∈ ps, '/' ∉ q := by
  constructor
  · intro h
    induction s generalizing p ps with
    | nil =>
      cases h
      simp
    | cons c s ih =>
      obtain ⟨q, qs, hs⟩ := exists_cutAtSlash_eq s
      obtain ⟨hjoin, hq, hqs⟩ := ih hs
      by_cases hc : c = '/'
      · subst hc
        rw [cutAtSlash_slash, hs] at h
        cases h
        exact ⟨by simp [hjoin], by simp, List.forall_mem_cons.2 ⟨hq, hqs⟩⟩
      · rw [cutAtSlash_cons hc hs] at h
        cases h
        exact ⟨by simp [hjoin], by simp [hq, Ne.symm hc], hqs⟩
  · rintro ⟨rfl, hp, hps⟩
    induction ps generalizing p with
    | nil => simpa using cutAtSlash_append hp (s := []) rfl
    | cons q ps ih =>
      rw [List.forall_mem_cons] at hps
      have h := cutAtSlash_append hp ((cutAtSlash_slash _).trans
        (congrArg ([] :: ·) (ih hps.1 hps.2)))
      simpa using h

/-! ### One name -/

variable {path name : String}

/-- The names that count, of pieces behind the first. -/
def countedNames (ps : List (List Char)) : List String :=
  ((ps.filter (· ≠ [])).map String.ofList).filter (· ≠ ".")

theorem countedNames_eq_nil_iff : countedNames ps = [] ↔ ∀ p ∈ ps, p = [] ∨ p = ['.'] := by
  simp only [countedNames, List.filter_eq_nil_iff, List.forall_mem_map, List.mem_filter]
  refine forall_congr' fun p => ?_
  have hdot : String.ofList p = "." ↔ p = ['.'] := by
    rw [← String.toList_inj, String.toList_ofList]
    rfl
  simp [hdot, or_iff_not_imp_left]

theorem Shape.ofPath_of_cut (h : cutAtSlash path.toList = p :: ps) (hp : p ≠ [])
    (hdot : p ≠ ['.']) :
    Shape.ofPath path = ⟨false, false, String.ofList p :: countedNames ps⟩ := by
  obtain ⟨htext, hslash, -⟩ := cutAtSlash_eq_cons_iff.1 h
  have hhead : path.toList.head? ≠ some '/' := by
    obtain ⟨c, p, rfl⟩ := List.exists_cons_of_ne_nil hp
    rw [htext]
    simp only [List.mem_cons, not_or] at hslash
    simpa using Ne.symm hslash.1
  have hname : String.ofList p ≠ "." := fun h => hdot (by simpa using congrArg String.toList h)
  simp [Shape.ofPath, Route.ofPath, h, hhead, hp, hname, countedNames]

/-- A text names one thing in the current directory when it is the name, with slashes and points
behind slashes at the end. -/
theorem Shape.ofPath_eq_name_iff (hname : name ≠ "") (hdot : name ≠ ".")
    (hslash : '/' ∉ name.toList) :
    Shape.ofPath path = ⟨false, false, [name]⟩ ↔
      ∃ ends : List String, (∀ e ∈ ends, e = "/" ∨ e = "/.") ∧ path = name ++ String.join ends := by
  constructor
  · intro h
    obtain ⟨p, ps, hcut⟩ := exists_cutAtSlash_eq path.toList
    have htext := (cutAtSlash_eq_cons_iff.1 hcut).1
    have hp : p ≠ [] := by
      rintro rfl
      -- without a first piece there is no name, or a slash in front
      cases ps with
      | nil => simp [Shape.ofPath, Route.ofPath, hcut] at h
      | cons q ps => simp [Shape.ofPath, Route.ofPath, htext] at h
    have hd : p ≠ ['.'] := by
      rintro rfl
      have hhead : path.toList.head? = some '.' := by simp [htext]
      simp [Shape.ofPath, Route.ofPath, hcut, hhead] at h
    rw [Shape.ofPath_of_cut hcut hp hd] at h
    injection h with _ _ hnames
    injection hnames with hfirst hrest
    rw [countedNames_eq_nil_iff] at hrest
    refine ⟨ps.map fun q => String.ofList ('/' :: q), List.forall_mem_map.2 fun q hq => ?_, ?_⟩
    · obtain rfl | rfl := hrest q hq
      · exact .inl rfl
      · exact .inr rfl
    · rw [← String.toList_inj, htext, ← hfirst]
      simp [List.flatMap_map]
  · rintro ⟨ends, hends, rfl⟩
    have hend : ∀ e ∈ ends, e.toList = '/' :: e.toList.tail ∧
        (e.toList.tail = [] ∨ e.toList.tail = ['.']) := by
      intro e he
      obtain rfl | rfl := hends e he
      · exact ⟨rfl, .inl rfl⟩
      · exact ⟨rfl, .inr rfl⟩
    have hcut : cutAtSlash (name ++ String.join ends).toList =
        name.toList :: ends.map fun e => e.toList.tail := by
      refine cutAtSlash_eq_cons_iff.2 ⟨?_, hslash, List.forall_mem_map.2 fun e he => ?_⟩
      · rw [String.toList_append, String.toList_join, List.flatMap_map]
        congr 1
        exact List.flatMap_congr fun e he => (hend e he).1
      · obtain h | h := (hend e he).2 <;> simp [h]
    have hnone : countedNames (ends.map fun e => e.toList.tail) = [] :=
      countedNames_eq_nil_iff.2 (List.forall_mem_map.2 fun e he => (hend e he).2)
    rw [Shape.ofPath_of_cut hcut (by simpa using hname)
      (fun h => hdot (String.toList_injective h)), hnone, String.ofList_toList]

end TreeKinds.Files
