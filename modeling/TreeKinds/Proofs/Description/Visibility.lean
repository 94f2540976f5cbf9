import TreeKinds.Proofs.Description.FirstFault
import TreeKinds.Proofs.Description.Message

/-! What can be seen of a message. Names and quoted parts of a description show no hidden character;
the character after a backslash is shown as it is. Proved: the message of a rejected description
stays on one line, and the only control character that it can hold is that of a bad escape. -/
namespace TreeKinds.Description

open Text

/-- The controls: those of C0, delete, and those of C1. -/
def Control (c : Char) : Prop := c.toNat ≤ 0x1f ∨ c.toNat = 0x7f ∨ 0x80 ≤ c.toNat ∧ c.toNat ≤ 0x9f

instance (c : Char) : Decidable (Control c) :=
  inferInstanceAs (Decidable (c.toNat ≤ 0x1f ∨ c.toNat = 0x7f ∨ 0x80 ≤ c.toNat ∧ c.toNat ≤ 0x9f))

theorem isHidden_of_control {c : Char} (h : Control c) : isHidden c = true := by
  apply isHidden_of_isControl
  simp only [isControl, Bool.or_eq_true, Bool.and_eq_true, decide_eq_true_eq]
  unfold Control at h
  omega

/-! ### Parts of a description -/

theorem isHidden_of_nameRest {c : Char} (h : NameRest c) : isHidden c = false := by
  simp only [NameRest, NameStart, Char.le_def, UInt32.le_iff_toNat_le, ← Char.toNat_inj,
    Char.toNat_val, Char.reduceToNat] at h
  apply isHidden_of_ascii
  · omega
  · omega

theorem Name.visible {s : List Char} (h : Name s) : Visible s := by
  obtain ⟨hc, hs⟩ := h
  rw [visible_cons]
  exact ⟨isHidden_of_nameRest (.inl hc), fun d hd => isHidden_of_nameRest (hs d hd)⟩

theorem Named.isName {line name rest : List Char} (h : Named line name rest) : Name name := by
  obtain ⟨-, -, hn, -⟩ := h
  exact hn

/-- What follows the name is part of the line. -/
theorem Named.mem_line {line name rest : List Char} (h : Named line name rest) {c : Char}
    (hc : c ∈ rest) : c ∈ line := by
  obtain ⟨hi, hw, -, hg⟩ := h
  rw [hi.eq_append, hw.eq_append, hg.eq_append]
  simp [hc]

theorem BadEscape.mem {s : List Char} {c : Char} (h : BadEscape s c) : c ∈ s := by
  obtain ⟨-, -, -⟩ := h
  simp

/-! ### Messages -/

theorem visible_missingFriendlyName {name : List Char} (h : Name name) :
    Visible (Fault.missingFriendlyName (String.ofList name)).message.toList := by
  dsimp only [Fault.message]
  simp only [String.toList_append, String.toList_ofList, visible_append]
  exact ⟨⟨by decide, h.visible⟩, by decide⟩

theorem visible_duplicateName {name : List Char} (h : Name name) (k : Nat) :
    Visible (Fault.duplicateName (String.ofList name) k).message.toList := by
  dsimp only [Fault.message]
  simp only [String.toList_append, String.toList_ofList, visible_append]
  exact ⟨⟨⟨⟨by decide, h.visible⟩, by decide⟩, visible_toString k⟩, by decide⟩

/-- Only a bad escape is shown as it stands in the description, and it stands on a line of it. -/
theorem LineFault.visible {ls : List (List Char)} {k : Nat} {f : Fault} (h : LineFault ls k f) :
    Visible f.message.toList ∨ ∃ c l, f = .invalidEscape c ∧ l ∈ ls ∧ c ∈ l := by
  obtain ⟨hl, -, hdiag⟩ | ⟨⟨l, literal, friendlyName, hl, hd⟩, -, -⟩ := h
  · cases hdiag with
    | @invalidName _ _ found =>
      left
      dsimp only [Fault.message]
      rw [String.toList_append, visible_append]
      exact ⟨visible_append_quoted (by decide) _, by decide⟩
    | missingFriendlyName hn => exact .inl (visible_missingFriendlyName hn.isName)
    | expectedString => exact .inl (visible_append_quoted (by decide) _)
    | invalidEscape hn hs =>
      exact .inr ⟨_, _, rfl, List.fst_mem_of_mem_zipIdx hl,
        hn.mem_line (List.mem_cons_of_mem _ hs.mem)⟩
    | unterminatedString => exact .inl (by decide)
    | trailingInput => exact .inl (visible_append_quoted (by decide) _)
  · exact .inl (visible_duplicateName hd.isName _)

theorem mem_message_invalidEscape_iff {c d : Char} (hc : isHidden c = true) :
    c ∈ (Fault.invalidEscape d).message.toList ↔ c = d := by
  have hbefore : Visible "invalid escape sequence '\\".toList := by decide
  have hafter : Visible "'".toList := by decide
  dsimp only [Fault.message]
  simp only [String.toList_append, List.mem_append, hbefore.not_mem hc, hafter.not_mem hc,
    Char.toString_eq_singleton, String.toList_singleton, List.mem_singleton, false_or, or_false]

/-- The line number and what stands around it hide nothing. -/
theorem mem_reason_iff {r : Rejection} {c : Char} (hc : isHidden c = true) :
    c ∈ r.reason.toList ↔ c ∈ r.fault.message.toList := by
  have hcolon : Visible ":".toList := by decide
  have hgap : Visible ": ".toList := by decide
  simp only [Rejection.reason, String.toList_append, List.mem_append, hcolon.not_mem hc,
    (visible_toString r.line).not_mem hc, hgap.not_mem hc, false_or]

theorem mem_reason_iff_of_hidden {text : String} {r : Rejection} (h : load text = .error r)
    {c : Char} (hc : isHidden c = true) : c ∈ r.reason.toList ↔ r.fault = .invalidEscape c := by
  obtain ⟨ls, hls⟩ := exists_hasLines text
  rw [mem_reason_iff hc]
  obtain hv | ⟨d, -, hf, -, -⟩ := ((load_eq_error_iff hls).1 h).fault.visible
  · refine iff_of_false (hv.not_mem hc) fun hf => ?_
    rw [hf] at hv
    exact hv.not_mem hc ((mem_message_invalidEscape_iff hc).2 rfl)
  · rw [hf, mem_message_invalidEscape_iff hc, Fault.invalidEscape.injEq, eq_comm]

/-- No line holds the character that ends it. -/
theorem fault_ne_invalidEscape_feed {text : String} {r : Rejection} (h : load text = .error r) :
    r.fault ≠ .invalidEscape '\n' := by
  intro hf
  obtain ⟨ls, hls⟩ := exists_hasLines text
  obtain hv | ⟨c, l, hc, hl, hm⟩ := ((load_eq_error_iff hls).1 h).fault.visible
  · rw [hf] at hv
    exact hv.not_mem (by decide) ((mem_message_invalidEscape_iff (by decide)).2 rfl)
  · rw [hf, Fault.invalidEscape.injEq] at hc
    subst hc
    exact hls.not_mem l hl hm

/-- The message of a rejected description is a single line, whatever the label. A control or another
hidden character stands in it only where it is the character of a bad escape. -/
theorem hidden_mem_message_iff {text : String} {r : Rejection} (h : load text = .error r) :
    ∃ reason : String, (∀ label, r.message label = label ++ reason) ∧ '\n' ∉ reason.toList ∧
      ∀ c, Control c ∨ isHidden c = true → (c ∈ reason.toList ↔ r.fault = .invalidEscape c) := by
  refine ⟨r.reason, fun label => r.message_eq label, ?_, fun c hc => ?_⟩
  · rw [mem_reason_iff_of_hidden h (by decide)]
    exact fault_ne_invalidEscape_feed h
  · exact mem_reason_iff_of_hidden h (hc.elim isHidden_of_control id)

/-- What clears a terminal is spelled out. -/
theorem hidden_mem_message_iff_clear_screen :
    load "A \"a\"\n\x1b[2J" = .error ⟨2, .invalidName "\x1b[2J"⟩ ∧
    ∃ reason : String, (∀ label, (Rejection.mk 2 (.invalidName "\x1b[2J")).message label =
        label ++ reason) ∧ '\n' ∉ reason.toList ∧
      ∀ c, Control c ∨ isHidden c = true →
        (c ∈ reason.toList ↔ Fault.invalidName "\x1b[2J" = .invalidEscape c) := by
  have h : load "A \"a\"\n\x1b[2J" = .error ⟨2, .invalidName "\x1b[2J"⟩ := by decide +kernel
  exact ⟨h, hidden_mem_message_iff h⟩

/-- A bell after a backslash rings from the message. -/
theorem load_shows_bell :
    ¬∀ (text : String) (r : Rejection), load text = .error r →
      ∀ c, Control c → c ∉ r.reason.toList := by
  intro h
  have hload : load "A \"\\\x07\"" = .error ⟨1, .invalidEscape '\x07'⟩ := by decide +kernel
  exact h _ _ hload '\x07' (by decide) (by decide)

end TreeKinds.Description
