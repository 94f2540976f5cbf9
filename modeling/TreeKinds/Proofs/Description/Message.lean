import TreeKinds.Description.Load
import TreeKinds.Proofs.Text.Quoted

/-! What the message of a rejection tells. It begins with words that no other kind of fault shares,
and what it quotes can be read back from it. Proved: under one label different rejections have
different messages, and the label is nothing but the beginning of the message. -/
namespace TreeKinds.Description

/-! ### The kind of a fault -/

/-- The beginning of a message, which the messages of all faults of the kind share. -/
def Fault.beginning : Fault → String
  | invalidName _ => "invalid t"
  | missingFriendlyName _ => "missing f"
  | expectedString _ => "expected "
  | unterminatedString => "untermina"
  | invalidEscape _ => "invalid e"
  | trailingInput _ => "unexpecte"
  | invalidUtf8 => "invalid U"
  | duplicateName _ _ => "duplicate"

theorem begins_append {p s : String} (h : p.toList <+: s.toList) (t : String) :
    p.toList <+: (s ++ t).toList := by
  rw [String.toList_append]
  exact h.trans (List.prefix_append _ _)

theorem Fault.begins (f : Fault) : f.beginning.toList <+: f.message.toList := by
  cases f with
  | invalidName =>
    have h : "invalid t".toList <+: "invalid type name ".toList := by decide
    exact begins_append (begins_append h _) _
  | missingFriendlyName =>
    have h : "missing f".toList <+: "missing friendly name for type '".toList := by decide
    exact begins_append (begins_append h _) _
  | expectedString =>
    have h : "expected ".toList <+: "expected a quoted friendly name, found ".toList := by decide
    exact begins_append h _
  | unterminatedString => decide
  | invalidEscape =>
    have h : "invalid e".toList <+: "invalid escape sequence '\\".toList := by decide
    exact begins_append (begins_append h _) _
  | trailingInput =>
    have h : "unexpecte".toList <+: "unexpected input after friendly name: ".toList := by decide
    exact begins_append h _
  | invalidUtf8 => decide
  | duplicateName =>
    have h : "duplicate".toList <+: "duplicate type name '".toList := by decide
    exact begins_append (begins_append (begins_append (begins_append h _) _) _) _

theorem Fault.length_beginning (f : Fault) : f.beginning.toList.length = 9 := by
  cases f <;> dsimp only [beginning] <;> decide

theorem Fault.beginning_eq_of_message_eq {f g : Fault} (h : f.message = g.message) :
    f.beginning = g.beginning := by
  have hlen : f.beginning.toList.length = g.beginning.toList.length := by
    rw [f.length_beginning, g.length_beginning]
  have hbegins : f.beginning.toList <+: g.beginning.toList :=
    List.prefix_of_prefix_length_le f.begins (h ▸ g.begins) (Nat.le_of_eq hlen)
  exact String.toList_inj.1 (hbegins.eq_of_length hlen)

/-! ### What a message quotes -/

/-- The number is the last word of the message, and the name is all that stands before the words in
between. -/
theorem Fault.duplicateName_message_inj {name name' : String} {k k' : Nat}
    (h : (duplicateName name k).message = (duplicateName name' k').message) :
    name = name' ∧ k = k' := by
  have hlast (name : String) (k : Nat) :
      ("duplicate type name '" ++ name ++ "' (first declared on line " ++ toString k).toList =
        ("duplicate type name '" ++ name ++ "' (first declared on line").toList ++
          ' ' :: (toString k).toList := by
    simp
  dsimp only [message] at h
  rw [String.append_left_inj, ← String.toList_inj, hlast, hlast] at h
  obtain ⟨hname, hk⟩ := Text.append_cons_inj_right (Text.not_mem_toString (by decide) k)
    (Text.not_mem_toString (by decide) k') h
  rw [String.toList_inj, String.append_left_inj, String.append_right_inj] at hname
  exact ⟨hname, Text.toString_inj.1 (String.toList_inj.1 hk)⟩

theorem Fault.message_inj {f g : Fault} (h : f.message = g.message) : f = g := by
  have hb := beginning_eq_of_message_eq h
  cases f with
  | invalidName =>
    cases g with
    | invalidName =>
      dsimp only [message] at h
      rw [String.append_left_inj, String.append_right_inj, Text.quoted_inj] at h
      rw [h]
    | _ => simp [beginning] at hb
  | missingFriendlyName =>
    cases g with
    | missingFriendlyName =>
      dsimp only [message] at h
      rw [String.append_left_inj, String.append_right_inj] at h
      rw [h]
    | _ => simp [beginning] at hb
  | expectedString =>
    cases g with
    | expectedString =>
      dsimp only [message] at h
      rw [String.append_right_inj, Text.quoted_inj] at h
      rw [h]
    | _ => simp [beginning] at hb
  | unterminatedString =>
    cases g with
    | unterminatedString => rfl
    | _ => simp [beginning] at hb
  | invalidEscape =>
    cases g with
    | invalidEscape =>
      dsimp only [message] at h
      rw [String.append_left_inj, String.append_right_inj, Char.toString_eq_singleton,
        Char.toString_eq_singleton, String.singleton_inj] at h
      rw [h]
    | _ => simp [beginning] at hb
  | trailingInput =>
    cases g with
    | trailingInput =>
      dsimp only [message] at h
      rw [String.append_right_inj, Text.quoted_inj] at h
      rw [h]
    | _ => simp [beginning] at hb
  | invalidUtf8 =>
    cases g with
    | invalidUtf8 => rfl
    | _ => simp [beginning] at hb
  | duplicateName =>
    cases g with
    | duplicateName =>
      obtain ⟨rfl, rfl⟩ := duplicateName_message_inj h
      rfl
    | _ => simp [beginning] at hb

/-! ### The message of a rejection -/

/-- What a message says after its label. -/
def Rejection.reason (r : Rejection) : String := ":" ++ toString r.line ++ ": " ++ r.fault.message

theorem Rejection.message_eq (label : String) (r : Rejection) :
    r.message label = label ++ r.reason := by
  simp only [message, reason, String.append_assoc]

/-- The line is told by the digits before the second colon. -/
theorem Rejection.reason_inj {r r' : Rejection} : r.reason = r'.reason ↔ r = r' := by
  constructor
  · intro h
    obtain ⟨line, fault⟩ := r
    obtain ⟨line', fault'⟩ := r'
    have hcolon (k : Nat) (f : Fault) : (toString k ++ (": " ++ f.message)).toList =
        (toString k).toList ++ ':' :: (" " ++ f.message).toList := by
      simp
    dsimp only [reason] at h
    rw [String.append_assoc, String.append_assoc, String.append_assoc, String.append_assoc,
      String.append_right_inj, ← String.toList_inj, hcolon, hcolon] at h
    obtain ⟨hline, hmessage⟩ := Text.append_cons_inj (Text.not_mem_toString (by decide) line)
      (Text.not_mem_toString (by decide) line') h
    rw [String.toList_inj, Text.toString_inj] at hline
    rw [String.toList_inj, String.append_right_inj] at hmessage
    rw [hline, Fault.message_inj hmessage]
  · rintro rfl
    rfl

/-- A description loaded under a label: its registry, or the rejection with its message. -/
def loadUnder (label text : String) : Except (Rejection × String) Registry :=
  (load text).mapError fun r => (r, r.message label)

/-- Under one label the message determines the rejection, the line and the fault with all that it
quotes; and which label it is makes a difference to the beginning of the message only. -/
theorem message_determines_rejection (label label' : String) :
    (∀ r r' : Rejection, r.message label = r'.message label ↔ r = r') ∧
    ∀ text, (∃ kinds, loadUnder label text = .ok kinds ∧ loadUnder label' text = .ok kinds) ∨
      ∃ r reason, loadUnder label text = .error (r, label ++ reason) ∧
        loadUnder label' text = .error (r, label' ++ reason) := by
  constructor
  · intro r r'
    rw [r.message_eq, r'.message_eq, String.append_right_inj, Rejection.reason_inj]
  · intro text
    cases h : load text with
    | ok kinds =>
      refine .inl ⟨kinds, ?_, ?_⟩
      · rw [loadUnder, h]
        rfl
      · rw [loadUnder, h]
        rfl
    | error r =>
      refine .inr ⟨r, r.reason, ?_, ?_⟩
      · rw [← r.message_eq, loadUnder, h]
        rfl
      · rw [← r.message_eq, loadUnder, h]
        rfl

end TreeKinds.Description
