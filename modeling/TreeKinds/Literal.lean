/-! The text between the quotes of a friendly name. A quote and a backslash are written with a
backslash before them, every other character stands for itself, and no other escape exists.
Main statements: what `escape` writes `readBody` reads back, and it reads nothing else. -/
namespace TreeKinds.Literal

/-- The characters that are written with a backslash before them. -/
def isSpecial (c : Char) : Bool := c == '"' || c == '\\'

def escapeChar (c : Char) : List Char := if isSpecial c then ['\\', c] else [c]

def escape (s : List Char) : List Char := s.flatMap escapeChar

def quote (s : List Char) : List Char := '"' :: (escape s ++ ['"'])

/-- Why a quoted text cannot be read. -/
inductive Fault where
  | unterminated
  | badEscape (c : Char)
  deriving DecidableEq, Repr

/-- Reads from after the opening quote: the text, and what follows the closing quote. -/
def readBody : List Char → Except Fault (List Char × List Char)
  | [] => .error .unterminated
  | '\\' :: [] => .error .unterminated
  | '\\' :: c :: s =>
    if isSpecial c then (readBody s).map fun (text, rest) => (c :: text, rest)
    else .error (.badEscape c)
  | c :: s =>
    if c = '"' then .ok ([], s)
    else (readBody s).map fun (text, rest) => (c :: text, rest)

/-- Reads a quoted text from its opening quote on. -/
def read : List Char → Except Fault (List Char × List Char)
  | '"' :: s => readBody s
  | _ => .error .unterminated

theorem isSpecial_iff {c : Char} : isSpecial c = true ↔ c = '"' ∨ c = '\\' := by
  simp [isSpecial]

@[simp] theorem escape_nil : escape [] = [] := rfl

@[simp] theorem escape_cons (c : Char) (s : List Char) :
    escape (c :: s) = escapeChar c ++ escape s := rfl

theorem read_cons_quote (s : List Char) : read ('"' :: s) = readBody s := rfl

theorem readBody_escape (s rest : List Char) :
    readBody (escape s ++ '"' :: rest) = .ok (s, rest) := by
  induction s with
  | nil => rfl
  | cons c s ih =>
    by_cases h : isSpecial c = true
    · simp [escapeChar, h, readBody, ih, Except.map]
    · have hq : c ≠ '"' := fun e => h (isSpecial_iff.2 (.inl e))
      have hb : c ≠ '\\' := fun e => h (isSpecial_iff.2 (.inr e))
      simp [escapeChar, h, readBody, hq, hb, ih, Except.map]

theorem eq_escape_of_readBody {i s rest : List Char} (h : readBody i = .ok (s, rest)) :
    i = escape s ++ '"' :: rest := by
  fun_induction readBody i generalizing s with
  | case1 => simp at h
  | case2 => simp at h
  | case3 c i hc ih =>
    cases hr : readBody i with
    | error e => simp [hr, Except.map] at h
    | ok r =>
      simp only [hr, Except.map, Except.ok.injEq, Prod.mk.injEq] at h
      obtain ⟨rfl, rfl⟩ := h
      simp [escapeChar, hc, ih hr]
  | case4 => simp at h
  | case5 i =>
    simp only [Except.ok.injEq, Prod.mk.injEq] at h
    obtain ⟨rfl, rfl⟩ := h
    rfl
  | case6 c i hend hmore hq ih =>
    cases hr : readBody i with
    | error e => simp [hr, Except.map] at h
    | ok r =>
      simp only [hr, Except.map, Except.ok.injEq, Prod.mk.injEq] at h
      obtain ⟨rfl, rfl⟩ := h
      have hb : c ≠ '\\' := by
        intro hc
        cases i with
        | nil => exact hend hc rfl
        | cons d i => exact hmore d i hc rfl
      have hs : isSpecial c = false := by
        rw [Bool.eq_false_iff]
        exact fun hs => (isSpecial_iff.1 hs).elim hq hb
      simp [escapeChar, hs, ih hr]

/-- Quoting adds no characters but quotes and backslashes. -/
theorem mem_quote_iff {s : List Char} {c : Char} (hq : c ≠ '"') (hb : c ≠ '\\') :
    c ∈ quote s ↔ c ∈ s := by
  have hchar (d : Char) : c ∈ escapeChar d ↔ d = c := by
    rw [escapeChar]
    split <;> simp [hb, eq_comm]
  simp [quote, escape, hq, hchar]

/-! ### Spelling -/

/-- A spelling of a text: the text itself when nothing in it is special, else a new text. -/
inductive Spelling where
  | unchanged (text : String)
  | escaped (text : String)
  deriving DecidableEq, Repr

def Spelling.text : Spelling → String
  | .unchanged s => s
  | .escaped s => s

def Spelling.isUnchanged : Spelling → Bool
  | .unchanged _ => true
  | .escaped _ => false

def spell (s : String) : Spelling :=
  if s.toList.any isSpecial then .escaped (String.ofList (escape s.toList)) else .unchanged s

theorem escape_eq_self {s : List Char} (h : ∀ c ∈ s, isSpecial c = false) : escape s = s := by
  induction s with
  | nil => rfl
  | cons c s ih =>
    obtain ⟨hc, hs⟩ := List.forall_mem_cons.1 h
    have hchar : escapeChar c = [c] := by rw [escapeChar, hc]; rfl
    rw [escape_cons, hchar, ih hs, List.singleton_append]

/-- Leaving a text as it is where nothing in it is special makes no difference. -/
theorem spell_text (s : String) : (spell s).text.toList = escape s.toList := by
  rw [spell]
  split
  · rw [Spelling.text, String.toList_ofList]
  · next h =>
    rw [Spelling.text, escape_eq_self]
    intro c hc
    rw [Bool.eq_false_iff]
    exact fun hs => h (List.any_eq_true.2 ⟨c, hc, hs⟩)

theorem escape_append (s t : List Char) : escape (s ++ t) = escape s ++ escape t :=
  List.flatMap_append

end TreeKinds.Literal
