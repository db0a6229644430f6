import SpriteBytecode.Text.Decimal

/-!
Dates and times of TOML: a date, a time of day, or both with an offset at most. Only their form and
their ranges are checked, because no setting is a date.
-/

set_option autoImplicit false
set_option relaxedAutoImplicit false

namespace SpriteBytecode.Toml

/-- Reads a number of two digits. -/
def readPair : List Char → Option (Nat × List Char)
  | a :: b :: rest => (Decimal.digits? [a, b]).map (·, rest)
  | _ => none

def isLeapYear (year : Nat) : Bool := year % 4 == 0 && (year % 100 != 0 || year % 400 == 0)

def daysOf (year month : Nat) : Nat :=
  if month = 2 then if isLeapYear year then 29 else 28
  else if month = 4 ∨ month = 6 ∨ month = 9 ∨ month = 11 then 30
  else 31

/-- Reads a date and gives what follows it. -/
def readDate : List Char → Option (List Char)
  | a :: b :: c :: d :: '-' :: rest => do
    let year ← Decimal.digits? [a, b, c, d]
    let (month, '-' :: rest) ← readPair rest | none
    let (day, rest) ← readPair rest
    if 1 ≤ month ∧ month ≤ 12 ∧ 1 ≤ day ∧ day ≤ daysOf year month then some rest else none
  | _ => none

/-- Reads hours and minutes with a colon between them. -/
def readHourMinute (text : List Char) : Option (List Char) := do
  let (hour, ':' :: rest) ← readPair text | none
  let (minute, rest) ← readPair rest
  if hour ≤ 23 ∧ minute ≤ 59 then some rest else none

/-- Reads a time of day. Seconds may be missing, there may be a leap second, and a fraction stands
only behind seconds. -/
def readTime (text : List Char) : Option (List Char) := do
  match ← readHourMinute text with
  | ':' :: rest =>
    let (second, rest) ← readPair rest
    if 60 < second then none
    else
      match rest with
      | '.' :: c :: rest => if c.isDigit then some (rest.dropWhile Char.isDigit) else none
      | rest => some rest
  | rest => some rest

def isOffset : List Char → Bool
  | [] => true
  | ['Z'] => true
  | ['z'] => true
  | sign :: rest => (sign == '+' || sign == '-') && readHourMinute rest == some []

def isMoment (text : List Char) : Bool :=
  match readDate text with
  | some [] => true
  | some (mark :: rest) =>
    (mark == 'T' || mark == 't' || mark == ' ') && ((readTime rest).map isOffset).getD false
  | none => readTime text == some []

end SpriteBytecode.Toml
