import TreeKinds.Toml.String

/-! Numbers. Digits may be grouped by single underscores, whole numbers fit into 64 bits and have no
leading zeros, and a float has a fraction, an exponent or both. -/
namespace TreeKinds.Toml

/-- Digits with single underscores between them; the underscores are dropped. -/
def digitRun (isDigit : Char → Bool) : List Char → List Char × List Char
  | [] => ([], [])
  | '_' :: c :: s =>
    if isDigit c then
      let (digits, rest) := digitRun isDigit s
      (c :: digits, rest)
    else ([], '_' :: c :: s)
  | c :: s =>
    if isDigit c then
      let (digits, rest) := digitRun isDigit s
      (c :: digits, rest)
    else ([], c :: s)

/-- At least one digit, and no underscore in front. -/
def readDigits (isDigit : Char → Bool) : Reader (List Char)
  | c :: s => if isDigit c then some (digitRun isDigit (c :: s)) else none
  | [] => none

/-- Tells whether a minus stands in front, and skips the sign. -/
def readSign : List Char → Bool × List Char
  | '-' :: s => (true, s)
  | '+' :: s => (false, s)
  | s => (false, s)

/-- A decimal whole number: a zero on its own, or digits that begin with another one. -/
def readWhole : Reader (List Char)
  | '0' :: s => some (['0'], s)
  | s => readDigits Char.isDigit s

def readFraction (s : List Char) : Option (List Char × List Char) :=
  match s with
  | '.' :: rest => readDigits Char.isDigit rest
  | _ => none

def readExponent (s : List Char) : Option (Int × List Char) :=
  match s with
  | c :: rest =>
    if c = 'e' || c = 'E' then
      let (negative, rest) := readSign rest
      (readDigits Char.isDigit rest).map fun (digits, rest) =>
        (if negative then -(numeral 10 digits : Int) else numeral 10 digits, rest)
    else none
  | [] => none

/-- A float in digits. One beyond all bounds is refused when it is positive. -/
def readDecimalFloat (s : List Char) : Option (Value × List Char) := do
  let (negative, s) := readSign s
  let (whole, s) ← readWhole s
  let (fraction, exponent, s) ←
    match readFraction s with
    | some (fraction, s) =>
      let (exponent, s) := (readExponent s).getD (0, s)
      some (fraction, exponent, s)
    | none => (readExponent s).map fun (exponent, s) => ([], exponent, s)
  let x := Decimal.Binary64.ofDecimal negative (numeral 10 (whole ++ fraction))
    (exponent - fraction.length)
  if x = .infinite false then none else some (.float x, s)

def readSpecialFloat (s : List Char) : Option (Value × List Char) :=
  match readSign s with
  | (negative, 'i' :: 'n' :: 'f' :: rest) => some (.float (.infinite negative), rest)
  | (_, 'n' :: 'a' :: 'n' :: rest) => some (.float .nan, rest)
  | _ => none

def fitsInteger (n : Int) : Bool := Int64.minValue.toInt ≤ n && n ≤ Int64.maxValue.toInt

def readInteger (s : List Char) : Option (Value × List Char) := do
  let (n, rest) ←
    match s with
    | '0' :: 'x' :: s => (readDigits isHexDigit s).map fun (d, rest) => ((numeral 16 d : Int), rest)
    | '0' :: 'o' :: s =>
      (readDigits (fun c => '0' ≤ c && c ≤ '7') s).map fun (d, rest) =>
        ((numeral 8 d : Int), rest)
    | '0' :: 'b' :: s =>
      (readDigits (fun c => c == '0' || c == '1') s).map fun (d, rest) =>
        ((numeral 2 d : Int), rest)
    | s =>
      let (negative, s) := readSign s
      (readWhole s).map fun (d, rest) =>
        (if negative then -(numeral 10 d : Int) else numeral 10 d, rest)
  if fitsInteger n then some (.integer n, rest) else none

/-! ### Points in time -/

/-- Exactly `count` digits. -/
def readField (count : Nat) : Reader Nat := fun s =>
  let digits := s.take count
  if digits.length = count && digits.all Char.isDigit then some (numeral 10 digits, s.drop count)
  else none

def skipChar? (c : Char) : List Char → Option (List Char)
  | d :: s => if d = c then some s else none
  | [] => none

def daysInMonth (year month : Nat) : Nat :=
  if month = 2 then
    if year % 4 = 0 && (year % 100 ≠ 0 || year % 400 = 0) then 29 else 28
  else if month = 4 || month = 6 || month = 9 || month = 11 then 30
  else 31

def skipDate? (s : List Char) : Option (List Char) := do
  let (year, s) ← readField 4 s
  let (month, s) ← readField 2 (← skipChar? '-' s)
  let (day, s) ← readField 2 (← skipChar? '-' s)
  if 1 ≤ month && month ≤ 12 && 1 ≤ day && day ≤ daysInMonth year month then some s else none

/-- Hours, minutes and seconds, with an optional fraction. There may be a leap second. -/
def skipTime? (s : List Char) : Option (List Char) := do
  let (hour, s) ← readField 2 s
  let (minute, s) ← readField 2 (← skipChar? ':' s)
  let (second, s) ← readField 2 (← skipChar? ':' s)
  if hour ≤ 23 && minute ≤ 59 && second ≤ 60 then
    match s with
    | '.' :: c :: rest => if c.isDigit then some (rest.dropWhile Char.isDigit) else some s
    | _ => some s
  else none

/-- The distance from universal time. -/
def skipOffset (s : List Char) : List Char :=
  match s with
  | [] => []
  | c :: rest =>
    if c = 'Z' || c = 'z' then rest
    else if c = '+' || c = '-' then
      (do
        let (hour, s) ← readField 2 rest
        let (minute, s) ← readField 2 (← skipChar? ':' s)
        if hour ≤ 23 && minute ≤ 59 then some s else none).getD (c :: rest)
    else c :: rest

/-- A date, a time, or a date and a time with an optional offset. -/
def readMoment (s : List Char) : Option (Value × List Char) :=
  match skipDate? s with
  | some (c :: rest) =>
    let time := if c = 'T' || c = 't' || c = ' ' then skipTime? rest else none
    some (.moment, (time.map skipOffset).getD (c :: rest))
  | some [] => some (.moment, [])
  | none => (skipTime? s).map fun rest => (.moment, rest)

/-- The first of the notations that fits. -/
def readNumber (s : List Char) : Option (Value × List Char) :=
  readMoment s <|> readDecimalFloat s <|> readSpecialFloat s <|> readInteger s

end TreeKinds.Toml
