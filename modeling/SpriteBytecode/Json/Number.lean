import SpriteBytecode.Text.Decimal

/-!
Numbers as JSON writes them. What a number means is judged by a significand of 64 bits: a number
whose digits fit in it, with neither a fraction nor an exponent, is an integer, and any other has
to stay below the point from which on its double would be infinite.
-/

set_option autoImplicit false
set_option relaxedAutoImplicit false

namespace SpriteBytecode

/-- The parts of a number. An exponent is kept with its sign and without its mark. -/
structure JsonNumber where
  negative : Bool
  whole : List Char
  fraction : List Char
  exponent? : Option (Bool × List Char)
  deriving DecidableEq

namespace JsonNumber

/-- The digits of the integral part: a zero alone, or digits that do not start with a zero. -/
def readWhole : List Char → Option (List Char × List Char)
  | '0' :: rest => if (rest.head?.map Char.isDigit).getD false then none else some (['0'], rest)
  | text =>
    match text.takeWhile Char.isDigit with
    | [] => none
    | digits => some (digits, text.dropWhile Char.isDigit)

/-- The digits behind the point, if there is one. -/
def readFraction : List Char → Option (List Char × List Char)
  | '.' :: rest =>
    match rest.takeWhile Char.isDigit with
    | [] => none
    | digits => some (digits, rest.dropWhile Char.isDigit)
  | text => some ([], text)

/-- A minus or plus sign, or none. -/
def splitSign : List Char → Bool × List Char
  | '-' :: rest => (true, rest)
  | '+' :: rest => (false, rest)
  | text => (false, text)

/-- The exponent, if there is one. -/
def readExponent : List Char → Option (Option (Bool × List Char) × List Char)
  | [] => some (none, [])
  | mark :: rest =>
    if mark = 'e' ∨ mark = 'E' then
      let (negative, rest) := splitSign rest
      match rest.takeWhile Char.isDigit with
      | [] => none
      | digits => some (some (negative, digits), rest.dropWhile Char.isDigit)
    else some (none, mark :: rest)

/-- Reads a number. Only a minus sign may stand in front. -/
def read (text : List Char) : Option (JsonNumber × List Char) :=
  let (negative, unsigned) :=
    match text with
    | '-' :: rest => (true, rest)
    | _ => (false, text)
  match readWhole unsigned with
  | none => none
  | some (whole, rest) =>
    match readFraction rest with
    | none => none
    | some (fraction, rest) =>
      (readExponent rest).map fun (exponent?, rest) ↦
        (⟨negative, whole, fraction, exponent?⟩, rest)

def render (number : JsonNumber) : String :=
  let sign (negative : Bool) : String := if negative then "-" else ""
  sign number.negative ++ String.ofList number.whole
    ++ (if number.fraction.isEmpty then "" else "." ++ String.ofList number.fraction)
    ++ (number.exponent?.map fun (negative, digits) ↦
      "e" ++ sign negative ++ String.ofList digits).getD ""

/-- What a significand stays below. -/
def significandBound : Nat := 0x10000000000000000

/-- Takes digits into a significand up to the first one that it cannot hold. -/
def collect (significand : Nat) : List Char → Nat × List Char
  | [] => (significand, [])
  | digit :: rest =>
    let next := 10 * significand + (digit.toNat - 48)
    if next < significandBound then collect next rest else (significand, digit :: rest)

theorem collect_eq_nil {significand : Nat} {digits : List Char}
    (h : (collect significand digits).2 = []) :
    (collect significand digits).1 =
      digits.foldl (fun n c ↦ 10 * n + (c.toNat - 48)) significand := by
  induction digits generalizing significand with
  | nil => rfl
  | cons digit rest ih =>
    unfold collect at h ⊢
    simp only at h ⊢
    split at h
    · next hlt => rw [if_pos hlt, List.foldl_cons, ih h]
    · cases h

/-- The integer that a number is. A negative zero is none, and a negative integer has 64 bits with
its sign. -/
def integer? (number : JsonNumber) : Option Int :=
  match number.fraction, number.exponent?, collect 0 number.whole with
  | [], none, (size, []) =>
    if !number.negative then some size
    else if 0 < size ∧ size ≤ 0x8000000000000000 then some (-(size : Int))
    else none
  | _, _, _ => none

/-- The nearest number with a significand of 53 bits; of two, the one with an even significand. -/
def roundToDouble (n : Nat) : Nat :=
  let shift := n.log2 + 1 - 53
  let unit := Nat.pow 2 shift
  let (quotient, rest) := (n / unit, n % unit)
  let up := unit < 2 * rest || (unit == 2 * rest && quotient % 2 == 1)
  (if up then quotient + 1 else quotient) * unit

/-- From here on a number is nearer to infinity than to the largest double. -/
def overflowBound : Nat := Nat.pow 2 1024 - Nat.pow 2 970

/-- The significand and the power of ten that a number is judged by. Digits in front of the point
that the significand cannot hold count by their number alone; digits behind it are tried anew. -/
def scaled (number : JsonNumber) : Nat × Int :=
  let (front, skipped) := collect 0 number.whole
  let (significand, ignored) := collect front number.fraction
  let shift : Int :=
    match number.exponent? with
    | none => 0
    | some (negative, digits) =>
      if negative then -((collect 0 digits).1 : Int) else (collect 0 digits).1
  (significand, shift + skipped.length - (number.fraction.length - ignored.length : Nat))

/-- The product of the significand and the power, each rounded to a double, is finite. -/
def isFinite (number : JsonNumber) : Bool :=
  let (significand, exponent) := number.scaled
  if significand = 0 || exponent < 0 then true
  else if 308 < exponent then false
  else roundToDouble significand * roundToDouble (Nat.pow 10 exponent.toNat) < overflowBound

end JsonNumber

end SpriteBytecode
