import TreeKinds.Proofs.Definitions.Artifact

/-! Definitions handed to a writer call by call. A call may take less than it was offered, and then
the rest is offered again; a full writer ends the delivery. Proved: however the calls were cut
short, a writer with limited room holds as much of the definitions as fits, and it fails exactly
when there are more of them. -/
namespace TreeKinds.Definitions

namespace Sink

/-! ### Calls -/

/-- What a writer may answer to the offer of some bytes: the number of those it takes, or no number
if it fails. -/
inductive Answers (s : Sink) (offered : Bytes) : Option Nat → Prop
  | takes {n : Nat} : 0 < n → n ≤ offered.length → s.fits (offered.take n) = true →
      Answers s offered (some n)
  | refuses : s.room = some 0 → s.whenFull = .refuses → Answers s offered none
  | takesNothing : s.room = some 0 → s.whenFull = .takesNothing → Answers s offered (some 0)

/-- A piece is offered until nothing is left of it, the writer fails or takes nothing. -/
inductive HandsOver : Sink → Bytes → Delivery → Prop
  | done {s : Sink} : HandsOver s [] ⟨[], none⟩
  | again {s : Sink} {offered : Bytes} {n : Nat} {d : Delivery} : offered ≠ [] →
      Answers s offered (some n) → n ≠ 0 → HandsOver (s.less n) (offered.drop n) d →
      HandsOver s offered ⟨offered.take n ++ d.taken, d.failure⟩
  | failed {s : Sink} {offered : Bytes} : offered ≠ [] → Answers s offered none →
      HandsOver s offered ⟨[], some .refuses⟩
  | stuck {s : Sink} {offered : Bytes} : offered ≠ [] → Answers s offered (some 0) →
      HandsOver s offered ⟨[], some .takesNothing⟩

/-- Pieces are handed over one after the other, up to the first that is not taken whole. -/
inductive Delivers : Sink → List Bytes → Delivery → Prop
  | done {s : Sink} : Delivers s [] ⟨[], none⟩
  | piece {s : Sink} {piece taken : Bytes} {pieces : List Bytes} {d : Delivery} :
      HandsOver s piece ⟨taken, none⟩ → Delivers (s.less taken.length) pieces d →
      Delivers s (piece :: pieces) ⟨taken ++ d.taken, d.failure⟩
  | cut {s : Sink} {piece taken : Bytes} {pieces : List Bytes} {w : WhenFull} :
      HandsOver s piece ⟨taken, some w⟩ → Delivers s (piece :: pieces) ⟨taken, some w⟩

variable {s : Sink} {offered : Bytes} {n : Nat} {d : Delivery} {pieces : List Bytes}

/-- What comes of a piece in one go. -/
def hand (s : Sink) (offered : Bytes) : Delivery :=
  ⟨s.share offered, if s.fits offered then none else some s.whenFull⟩

theorem hand_nil (s : Sink) : s.hand [] = ⟨[], none⟩ := by
  obtain ⟨room, whenFull⟩ := s
  cases room <;> simp [hand, share, fits]

theorem hand_of_full (hs : s.room = some 0) (h : offered ≠ []) :
    s.hand offered = ⟨[], some s.whenFull⟩ := by
  simp [hand, share, fits, hs, h]

theorem fits_singleton (hs : s.room ≠ some 0) (b : UInt8) : s.fits [b] = true := by
  obtain ⟨room, whenFull⟩ := s
  cases room with
  | none => rfl
  | some n =>
    have hn : n ≠ 0 := fun h => hs (congrArg some h)
    simp only [fits, List.length_singleton, decide_eq_true_eq]
    omega

/-- A piece that is handed over in two parts comes to the same. -/
theorem hand_drop (h : s.fits (offered.take n) = true) (hn : n ≤ offered.length) :
    s.hand offered = ⟨offered.take n ++ ((s.less n).hand (offered.drop n)).taken,
      ((s.less n).hand (offered.drop n)).failure⟩ := by
  have hlen : (offered.take n).length = n := List.length_take_of_le hn
  have hshare := share_append_of_fits h (offered.drop n)
  have hfits := fits_append s (offered.take n) (offered.drop n)
  rw [List.take_append_drop, hlen] at hshare hfits
  rw [h, Bool.true_and] at hfits
  rw [hand, hshare, hfits]
  rfl

theorem HandsOver.eq_hand (h : HandsOver s offered d) : d = s.hand offered := by
  induction h with
  | done => exact (hand_nil _).symm
  | again hne ha hn _ ih =>
    subst ih
    cases ha with
    | takes h0 hle hfits => exact (hand_drop hfits hle).symm
    | takesNothing => exact absurd rfl hn
  | failed hne ha =>
    cases ha with
    | refuses hs hw => rw [hand_of_full hs hne, hw]
  | stuck hne ha =>
    cases ha with
    | takes h0 => omega
    | takesNothing hs hw => rw [hand_of_full hs hne, hw]

/-- A writer that takes one byte with each call is one way to hand a piece over. -/
theorem exists_handsOver (s : Sink) (offered : Bytes) : ∃ d, HandsOver s offered d := by
  induction offered generalizing s with
  | nil => exact ⟨_, .done⟩
  | cons b offered ih =>
    by_cases hs : s.room = some 0
    · cases hw : s.whenFull with
      | refuses => exact ⟨_, .failed (by simp) (.refuses hs hw)⟩
      | takesNothing => exact ⟨_, .stuck (by simp) (.takesNothing hs hw)⟩
    · obtain ⟨d, hd⟩ := ih (s.less 1)
      have hfits : s.fits ((b :: offered).take 1) = true := fits_singleton hs b
      exact ⟨_, .again (by simp) (.takes Nat.one_pos (by simp) hfits) Nat.one_ne_zero hd⟩

theorem handsOver_iff : HandsOver s offered d ↔ d = s.hand offered := by
  constructor
  · exact HandsOver.eq_hand
  · rintro rfl
    obtain ⟨d, hd⟩ := exists_handsOver s offered
    rwa [← hd.eq_hand]

theorem handsOver_none_iff {taken : Bytes} :
    HandsOver s offered ⟨taken, none⟩ ↔ s.fits offered = true ∧ taken = offered := by
  rw [handsOver_iff, hand, Delivery.mk.injEq]
  cases hfits : s.fits offered with
  | true => simp [share_of_fits hfits]
  | false => simp

theorem handsOver_some_iff {taken : Bytes} {w : WhenFull} : HandsOver s offered ⟨taken, some w⟩ ↔
    s.fits offered = false ∧ taken = s.share offered ∧ w = s.whenFull := by
  rw [handsOver_iff, hand, Delivery.mk.injEq]
  cases hfits : s.fits offered with
  | true => simp
  | false => simp

/-- The calls in which the pieces are handed over make no difference. -/
theorem delivers_iff : Delivers s pieces d ↔ d = s.deliver pieces := by
  induction pieces generalizing s d with
  | nil =>
    constructor
    · rintro ⟨⟩
      rfl
    · rintro rfl
      exact .done
  | cons piece pieces ih =>
    constructor
    · intro h
      cases h with
      | piece hp hd =>
        obtain ⟨hfits, rfl⟩ := handsOver_none_iff.1 hp
        rw [deliver, if_pos hfits, ih.1 hd]
      | cut hp =>
        obtain ⟨hfits, rfl, rfl⟩ := handsOver_some_iff.1 hp
        rw [deliver, hfits]
        rfl
    · rintro rfl
      cases hfits : s.fits piece with
      | true =>
        rw [deliver, if_pos hfits]
        exact .piece (handsOver_none_iff.2 ⟨hfits, rfl⟩) (ih.2 rfl)
      | false =>
        rw [deliver, hfits]
        exact .cut (handsOver_some_iff.2 ⟨hfits, rfl, rfl⟩)

end Sink

/-! ### Limited room -/

theorem deliver_unlimited (kinds : Registry) (w : WhenFull) :
    deliver kinds ⟨none, w⟩ = ⟨bytes kinds, none⟩ := deliver_of_fits rfl

theorem taken_deliver_limited (kinds : Registry) (n : Nat) (w : WhenFull) :
    (deliver kinds ⟨some n, w⟩).taken = (bytes kinds).take n :=
  Sink.deliver_taken _ _

theorem failure_deliver_limited (kinds : Registry) (n : Nat) (w : WhenFull) :
    (deliver kinds ⟨some n, w⟩).failure = if (bytes kinds).length ≤ n then none else some w := by
  rw [deliver, Sink.deliver_failure, ← bytes]
  simp [Sink.fits]

/-- A writer with room for `n` bytes takes the first `n` of those that an unlimited writer takes,
in whatever calls they are handed to it, and fails in its way when there are more. -/
theorem deliver_limited (kinds : Registry) (n : Nat) (w : WhenFull) :
    ∃ out, (∀ w', deliver kinds ⟨none, w'⟩ = ⟨out, none⟩) ∧
      ((deliver kinds ⟨some n, w⟩).failure = none ↔ out.length ≤ n) ∧
      ((deliver kinds ⟨some n, w⟩).failure = some w ↔ n < out.length) ∧
      (deliver kinds ⟨some n, w⟩).taken = out.take (min n out.length) ∧
      (∀ more w', (deliver kinds ⟨some n, w⟩).taken <+:
        (deliver kinds ⟨some (n + more), w'⟩).taken) ∧
      ∀ d, Sink.Delivers ⟨some n, w⟩ (bytePieces kinds) d ↔ d = deliver kinds ⟨some n, w⟩ := by
  refine ⟨bytes kinds, deliver_unlimited kinds, ?_, ?_, ?_, fun more w' => ?_, fun d => ?_⟩
  · simp [failure_deliver_limited]
  · simp [failure_deliver_limited]
  · rw [taken_deliver_limited, List.take_eq_take_min]
  · rw [taken_deliver_limited, taken_deliver_limited]
    exact List.take_prefix_take_left (Nat.le_add_right n more)
  · exact Sink.delivers_iff

end TreeKinds.Definitions
