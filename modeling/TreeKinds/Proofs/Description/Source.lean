import TreeKinds.Description.Load
import TreeKinds.Proofs.Description.FirstFault
import TreeKinds.Proofs.Text.IllFormed

/-! Descriptions as bytes and as reads from a source. Proved: bytes are loaded as the text that they
encode, and bytes that encode none are refused where they stop encoding one; and reads make up the
bytes before the end of input, cut and interrupted in any way, unless one of them fails. -/
namespace TreeKinds.Description

open Utf8 (Encoded LongestEncoded IllFormed encode)
open Files (Failure)

/-! ### Bytes -/

theorem loadBytes_encode (s : List Char) : loadBytes (encode s) = load (String.ofList s) := by
  rw [loadBytes, Utf8.decode_encode]

/-- Ill-formed bytes are reported on the line on which the text before them ends. -/
theorem loadBytes_of_illFormed {rest : Bytes} (h : IllFormed rest) (s : List Char) :
    loadBytes (encode s ++ rest) = .error ⟨1 + (encode s).count 0x0a, .invalidUtf8⟩ := by
  rw [loadBytes, h.decode_encode_append, Utf8.count_encode, Nat.add_comm]
  cases rest with
  | nil => cases h
  | cons b rest => rfl

/-- The fault of ill-formed bytes is not the fault of any text. -/
theorem load_ne_invalidUtf8 (text : String) (line : Nat) :
    load text ≠ .error ⟨line, .invalidUtf8⟩ := by
  obtain ⟨ls, hls⟩ := exists_hasLines text
  intro h
  have hfault := ((load_eq_error_iff hls).1 h).fault
  cases hfault with
  | malformed _ _ hd => cases hd

theorem loadBytes_of_not_encoded {bytes : Bytes} (h : ¬Encoded bytes) :
    ∃ s rest, bytes = encode s ++ rest ∧ IllFormed rest ∧ LongestEncoded bytes (encode s) ∧
      loadBytes bytes = .error ⟨1 + (encode s).count 0x0a, .invalidUtf8⟩ := by
  obtain ⟨s, rest, rfl, hrest⟩ := Utf8.not_encoded_iff.1 h
  exact ⟨s, rest, rfl, hrest, hrest.longestEncoded s, loadBytes_of_illFormed hrest s⟩

theorem encoded_iff {bytes : Bytes} :
    Encoded bytes ↔ ∀ line, loadBytes bytes ≠ .error ⟨line, .invalidUtf8⟩ := by
  constructor
  · rintro ⟨s, rfl⟩ line
    rw [loadBytes_encode]
    exact load_ne_invalidUtf8 _ line
  · intro h
    by_contra hb
    obtain ⟨s, rest, -, -, -, hload⟩ := loadBytes_of_not_encoded hb
    exact h _ hload

/-- Bytes are loaded as the text that they encode. Bytes that encode none are those that are
ill-formed behind some text. They are refused on the line on which this text ends, and no longer
text is encoded by their beginning. -/
theorem loadBytes_locates (bytes : Bytes) :
    (∀ text : String, bytes = encode text.toList → loadBytes bytes = load text) ∧
    (¬Encoded bytes → ∃ s rest, bytes = encode s ++ rest ∧ IllFormed rest ∧
      LongestEncoded bytes (encode s) ∧
      loadBytes bytes = .error ⟨1 + (encode s).count 0x0a, .invalidUtf8⟩) ∧
    (∀ s rest, bytes = encode s ++ rest → IllFormed rest → ¬Encoded bytes) ∧
    (Encoded bytes ↔ ∀ line, loadBytes bytes ≠ .error ⟨line, .invalidUtf8⟩) := by
  refine ⟨?_, loadBytes_of_not_encoded, ?_, encoded_iff⟩
  · rintro text rfl
    rw [loadBytes_encode, String.ofList_toList]
  · rintro s rest rfl h
    exact h.not_encoded s

/-- A surrogate on the second line, behind a string that is not closed. -/
theorem loadBytes_locates_surrogate : ∃ bytes rest : Bytes,
    rest = [0xed, 0xa0, 0x80, 0x0a] ∧ bytes = encode "A \"\né".toList ++ rest ∧ IllFormed rest ∧
    ¬Encoded bytes ∧ loadBytes bytes = .error ⟨2, .invalidUtf8⟩ := by
  have hc : Utf8.Complete 0xed [0xa0, 0x80] :=
    ⟨.three (by decide) (by decide), by simp [Utf8.Continues]⟩
  have h : IllFormed (0xed :: ([0xa0, 0x80] ++ [0x0a])) :=
    .surrogate hc (by decide) (by decide)
  have hnot := (loadBytes_locates _).2.2.1 "A \"\né".toList _ rfl h
  exact ⟨_, _, rfl, rfl, h, hnot, loadBytes_of_illFormed h _⟩

/-! ### Reads -/

/-- The reads before the end of input, which the first read of no bytes shows. -/
def effective (steps : List Step) : List Step := steps.takeWhile (· ≠ .chunk [])

def Step.bytes : Step → Bytes
  | .chunk bytes => bytes
  | _ => []

/-- All bytes that were read, in order. -/
def received (steps : List Step) : Bytes := steps.flatMap Step.bytes

/-- The first of the reads that fail is one for this cause. -/
inductive FirstFailure (cause : Failure) : List Step → Prop
  | here {steps : List Step} : FirstFailure cause (.failure cause :: steps)
  | later {step : Step} {steps : List Step} : (∀ c, step ≠ .failure c) →
      FirstFailure cause steps → FirstFailure cause (step :: steps)

/-- None of the reads fails. -/
def Unfailing (steps : List Step) : Prop := ∀ cause, .failure cause ∉ steps

variable {step : Step} {steps steps' : List Step} {cause : Failure}

theorem firstFailure_or_unfailing (steps : List Step) :
    (∃ cause, FirstFailure cause steps) ∨ Unfailing steps := by
  induction steps with
  | nil => exact .inr fun _ => List.not_mem_nil
  | cons step steps ih =>
    by_cases hs : ∃ c, step = .failure c
    · obtain ⟨c, rfl⟩ := hs
      exact .inl ⟨c, .here⟩
    rw [not_exists] at hs
    obtain ⟨c, h⟩ | h := ih
    · exact .inl ⟨c, .later hs h⟩
    · refine .inr fun c hm => ?_
      obtain hm | hm := List.mem_cons.1 hm
      · exact hs c hm.symm
      · exact h c hm

theorem effective_cons (h : step ≠ .chunk []) (steps : List Step) :
    effective (step :: steps) = step :: effective steps := by
  rw [effective, List.takeWhile_cons_of_pos (by simpa using h), ← effective]

/-- One read adds its bytes to those of the reads after it. -/
theorem readAll_cons (hend : step ≠ .chunk []) (hs : ∀ c, step ≠ .failure c) (steps : List Step) :
    readAll (step :: steps) = (readAll steps).map (step.bytes ++ ·) := by
  cases step with
  | chunk bytes =>
    rw [readAll]
    · rfl
    · rintro rfl
      exact hend rfl
  | interrupted =>
    rw [readAll]
    cases readAll steps <;> rfl
  | failure c => exact absurd rfl (hs c)

theorem readAll_of_firstFailure (h : FirstFailure cause (effective steps)) :
    readAll steps = .error cause := by
  induction steps with
  | nil => cases h
  | cons step steps ih =>
    by_cases hend : step = .chunk []
    · subst hend
      cases h
    rw [effective_cons hend] at h
    cases h with
    | here => rfl
    | later hs h =>
      rw [readAll_cons hend hs, ih h]
      rfl

theorem readAll_of_unfailing (h : Unfailing (effective steps)) :
    readAll steps = .ok (received (effective steps)) := by
  induction steps with
  | nil => rfl
  | cons step steps ih =>
    by_cases hend : step = .chunk []
    · subst hend
      rfl
    rw [effective_cons hend] at h ⊢
    have hs : ∀ c, step ≠ .failure c := fun c hc => h c (hc ▸ List.mem_cons_self)
    have hsteps : Unfailing (effective steps) := fun c hc => h c (List.mem_cons_of_mem _ hc)
    rw [readAll_cons hend hs, ih hsteps]
    rfl

theorem loadSteps_of_unfailing (h : Unfailing (effective steps)) :
    loadSteps steps = (loadBytes (received (effective steps))).mapError .rejected := by
  rw [loadSteps, readAll_of_unfailing h]

/-- The first failure before the end of input is reported, whatever was read before it. Without one,
the bytes that were read are loaded, however they were cut and wherever reading was interrupted. -/
theorem loadSteps_effective (steps : List Step) :
    ((∃ cause, FirstFailure cause (effective steps)) ∨ Unfailing (effective steps)) ∧
    (∀ cause, FirstFailure cause (effective steps) → loadSteps steps = .error (.unread cause)) ∧
    (Unfailing (effective steps) →
      loadSteps steps = (loadBytes (received (effective steps))).mapError .rejected ∧
      ∀ steps', Unfailing (effective steps') →
        received (effective steps') = received (effective steps) →
        loadSteps steps' = loadSteps steps) := by
  refine ⟨firstFailure_or_unfailing _, fun cause h => ?_, fun h => ?_⟩
  · rw [loadSteps, readAll_of_firstFailure h]
  · refine ⟨loadSteps_of_unfailing h, fun steps' h' heq => ?_⟩
    rw [loadSteps_of_unfailing h, loadSteps_of_unfailing h', heq]

/-- A character cut in two and interrupted, and a failure after the end of input. -/
theorem loadSteps_effective_cut_character : ∃ steps steps' : List Step,
    steps = [.chunk [0x41, 0x20, 0x22, 0xc3], .interrupted, .chunk [0xa9, 0x22, 0x0d],
      .chunk [0x0a], .chunk [], .failure .isADirectory] ∧
    steps' = [.chunk [0x41, 0x20, 0x22, 0xc3, 0xa9, 0x22, 0x0d, 0x0a]] ∧
    Unfailing (effective steps) ∧ Unfailing (effective steps') ∧
    loadSteps steps = loadSteps steps' ∧ loadSteps steps' = .ok [⟨"A", "é", 1⟩] := by
  have h : Unfailing (effective [.chunk [0x41, 0x20, 0x22, 0xc3], .interrupted,
      .chunk [0xa9, 0x22, 0x0d], .chunk [0x0a], .chunk [], .failure .isADirectory]) := by
    simp [Unfailing, effective]
  have h' : Unfailing (effective [.chunk [0x41, 0x20, 0x22, 0xc3, 0xa9, 0x22, 0x0d, 0x0a]]) := by
    simp [Unfailing, effective]
  exact ⟨_, _, rfl, rfl, h, h', ((loadSteps_effective _).2.2 h').2 _ h (by decide +kernel),
    by decide +kernel⟩

end TreeKinds.Description
