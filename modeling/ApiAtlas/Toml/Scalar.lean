import ApiAtlas.Toml.Text

/-!
# Numbers, dates and times in TOML

Of these values only the form is checked: whether they are written as they have
to be, whether a whole number fits into 64 bits and a fraction into the doubles,
and whether there is such a day and such a time. Each function answers what is
left of the text behind the value.
-/

set_option autoImplicit false

namespace ApiAtlas.Toml

/-! ## Digits -/

/-- Whether a character is a digit in a base. -/
def isDigit (base : Nat) (character : Char) : Bool :=
  match hexValue? character with
  | some value => value < base
  | none => false

/-- The digits that continue a number. Single underscores may stand between them. -/
def moreDigits (base : Nat) : List Char → List Char × List Char
  | '_' :: digit :: rest =>
    if isDigit base digit then
      let (digits, left) := moreDigits base rest
      (digit :: digits, left)
    else
      ([], '_' :: digit :: rest)
  | digit :: rest =>
    if isDigit base digit then
      let (digits, left) := moreDigits base rest
      (digit :: digits, left)
    else
      ([], digit :: rest)
  | [] => ([], [])

/-- The digits of a number, at least one. -/
def digits? (base : Nat) (input : List Char) : Option (List Char × List Char) :=
  match input with
  | digit :: _ => if isDigit base digit then some (moreDigits base input) else none
  | [] => none

/-- The number of digits in a base. -/
def valueOf (base : Nat) (digits : List Char) : Nat :=
  digits.foldl (fun sofar digit => sofar * base + (hexValue? digit).getD 0) 0

/-- A sign, if there is one: whether it is a minus, and what is left. -/
def sign : List Char → Bool × List Char
  | '-' :: rest => (true, rest)
  | '+' :: rest => (false, rest)
  | other => (false, other)

/-- The digits of a decimal number without a fraction. None but zero begins with a zero. -/
def decimalDigits? (input : List Char) : Option (List Char × List Char) :=
  match input with
  | '0' :: rest => some (['0'], rest)
  | other => digits? 10 other

/-! ## Whole numbers -/

/-- Passes a whole number in another base behind its mark. -/
def basedNumber? (base : Nat) (input : List Char) : Option (List Char) := do
  let (digits, rest) ← digits? base input
  if valueOf base digits < 9223372036854775808 then some rest else none

/-- Passes a whole number. -/
def wholeNumber? (input : List Char) : Option (List Char) :=
  match input with
  | '0' :: 'x' :: rest => basedNumber? 16 rest
  | '0' :: 'o' :: rest => basedNumber? 8 rest
  | '0' :: 'b' :: rest => basedNumber? 2 rest
  | other => do
    let (negative, unsigned) := sign other
    let (digits, rest) ← decimalDigits? unsigned
    let limit := if negative then 9223372036854775809 else 9223372036854775808
    if valueOf 10 digits < limit then some rest else none

/-! ## Fractions -/

/-- The exponent of a fraction, and what is left. -/
def exponent? : List Char → Option (Int × List Char)
  | 'e' :: rest | 'E' :: rest => do
    let (negative, unsigned) := sign rest
    let (digits, left) ← digits? 10 unsigned
    let size : Int := valueOf 10 digits
    some (if negative then -size else size, left)
  | _ => none

/-- Whether a number times a power of ten is beyond the doubles: at least half a step above the
greatest of them. -/
def isBeyondDoubles (number : Nat) (power : Int) : Bool :=
  let limit := (18014398509481984 - 1) * Nat.pow 2 970
  let size : Int := (Nat.toDigits 10 number).length + power
  if number = 0 ∨ size < 300 then false
  else if 320 < size then true
  else if power < 0 then limit * Nat.pow 10 power.natAbs ≤ number
  else limit ≤ number * Nat.pow 10 power.natAbs

/-- Passes a fraction: a decimal number with a point, an exponent or both, or one of the words for
infinity and what is no number. -/
def fraction? (input : List Char) : Option (List Char) :=
  let (negative, unsigned) := sign input
  match unsigned with
  | 'i' :: 'n' :: 'f' :: rest => some rest
  | 'n' :: 'a' :: 'n' :: rest => some rest
  | _ => do
    let (whole, rest) ← decimalDigits? unsigned
    let (digits, power, left) ←
      match rest with
      | '.' :: places => do
        let (fraction, left) ← digits? 10 places
        let (power, left) := (exponent? left).getD (0, left)
        some (whole ++ fraction, power - fraction.length, left)
      | other => do
        let (power, left) ← exponent? other
        some (whole, power, left)
    if ¬ negative ∧ isBeyondDoubles (valueOf 10 digits) power then none else some left

/-! ## Dates and times -/

/-- A number of exactly so many digits, and what is left. -/
def fixedDigits? (count : Nat) (input : List Char) : Option (Nat × List Char) :=
  let digits := input.take count
  if digits.length = count ∧ digits.all (isDigit 10) then
    some (valueOf 10 digits, input.drop count)
  else
    none

/-- A number of two digits within bounds, and what is left. -/
def pair? (least greatest : Nat) (input : List Char) : Option (Nat × List Char) := do
  let (value, rest) ← fixedDigits? 2 input
  if least ≤ value ∧ value ≤ greatest then some (value, rest) else none

/-- What is left behind a mark. -/
def mark? (mark : Char) : List Char → Option (List Char)
  | character :: rest => if character = mark then some rest else none
  | [] => none

/-- The number of days of a month. -/
def daysOfMonth (year month : Nat) : Nat :=
  if month = 2 then
    if year % 4 = 0 ∧ (year % 100 ≠ 0 ∨ year % 400 = 0) then 29 else 28
  else if month = 4 ∨ month = 6 ∨ month = 9 ∨ month = 11 then
    30
  else
    31

/-- Passes a date. -/
def date? (input : List Char) : Option (List Char) := do
  let (year, rest) ← fixedDigits? 4 input
  let (month, rest) ← pair? 1 12 (← mark? '-' rest)
  let (_, rest) ← pair? 1 (daysOfMonth year month) (← mark? '-' rest)
  return rest

/-- Passes a time of day. -/
def time? (input : List Char) : Option (List Char) := do
  let (_, rest) ← pair? 0 23 input
  let (_, rest) ← pair? 0 59 (← mark? ':' rest)
  let (_, rest) ← pair? 0 60 (← mark? ':' rest)
  match rest with
  | '.' :: digit :: more =>
    if isDigit 10 digit then return more.dropWhile (isDigit 10) else return rest
  | _ => return rest

/-- Passes the distance of a time from the one at Greenwich, if it is there. -/
def offset (input : List Char) : List Char :=
  let distance? (rest : List Char) : Option (List Char) := do
    let (_, rest) ← pair? 0 23 rest
    let (_, rest) ← pair? 0 59 (← mark? ':' rest)
    return rest
  match input with
  | 'Z' :: rest | 'z' :: rest => rest
  | '+' :: rest | '-' :: rest => (distance? rest).getD input
  | _ => input

/-- Passes a date with or without a time, or a time. -/
def moment? (input : List Char) : Option (List Char) :=
  match date? input with
  | none => time? input
  | some rest =>
    match rest with
    | 'T' :: time | 't' :: time | ' ' :: time =>
      match time? time with
      | some left => some (offset left)
      | none => some rest
    | _ => some rest

/-- Passes a number, a date or a time. -/
def scalar? (input : List Char) : Option (List Char) :=
  ((moment? input).or (fraction? input)).or (wholeNumber? input)

end ApiAtlas.Toml
