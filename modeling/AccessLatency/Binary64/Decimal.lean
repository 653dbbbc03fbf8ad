import AccessLatency.Binary64.Basic
import AccessLatency.Text.Digits

/-!
# Reading decimal literals

A literal is an optional sign followed by digits with at most one point and at least one digit, and
an optional exponent; or by one of the names `inf`, `infinity` and `nan` in letters of either case.
`Decimal` holds the exact value that the digits write, and `Decimal.toBinary64` takes it to the
nearest number, so the reader rounds once, however long the literal.
-/

set_option autoImplicit false

namespace AccessLatency

/-- The exact decimal number `± digits · 10 ^ exponent`. -/
structure Decimal where
  negative : Bool
  digits : Nat
  exponent : Int
  deriving DecidableEq

namespace Decimal

/-- The number of digits of a natural number; one for zero. -/
def length (n : Nat) : Nat := (Text.decimal n).length

/-- The nearest number to an exact decimal one, by the exact quotient of quanta. -/
def round (d : Decimal) : Binary64 :=
  if 0 ≤ d.exponent then
    Binary64.ofQuotient d.negative (d.digits * 10 ^ d.exponent.toNat * Binary64.unit) 1
  else
    Binary64.ofQuotient d.negative (d.digits * Binary64.unit) (10 ^ (-d.exponent).toNat)

/-- The nearest number to an exact decimal one. A number of `10 ^ 310` or more is beyond all finite
ones, and one below `10 ^ (-330)` is nearer to zero than to any other, so neither needs its power
of ten. -/
def toBinary64 (d : Decimal) : Binary64 :=
  let magnitude := d.exponent + length d.digits
  if d.digits = 0 ∨ magnitude < -330 then Binary64.zero d.negative
  else if 310 < magnitude then .infinity d.negative
  else d.round

/-- The exponent that follows the digits of a literal: none, or the letter `e` in either case, an
optional sign and at least one digit, up to the end of the text. -/
def exponentSuffix? : List Char → Option Int
  | [] => some 0
  | c :: rest =>
    if c = 'e' ∨ c = 'E' then
      let (negative, digits) := match rest with
        | '+' :: r => (false, r)
        | '-' :: r => (true, r)
        | r => (false, r)
      if digits.isEmpty ∨ !digits.all Char.isDigit then none
      else
        let n : Int := Text.digitsValue digits
        some (if negative then -n else n)
    else none

/-- The digits in front of a text with at most one point among them: those before the point, those
after it, and the rest of the text. -/
def pointedDigits (s : List Char) : List Char × List Char × List Char :=
  let whole := Text.leadingDigits s
  match Text.afterDigits s with
  | '.' :: r => (whole, Text.leadingDigits r, Text.afterDigits r)
  | r => (whole, [], r)

/-- Read the digits, point and exponent of a literal whose sign has been taken. -/
def ofUnsigned? (negative : Bool) (s : List Char) : Option Decimal :=
  match pointedDigits s with
  | (whole, fraction, rest) =>
    if whole.isEmpty ∧ fraction.isEmpty then none
    else (exponentSuffix? rest).map fun e =>
      ⟨negative, Text.digitsValue (whole ++ fraction), e - fraction.length⟩

end Decimal

namespace Binary64

/-- The sign in front of a text, and what follows it. -/
def takeSign : List Char → Bool × List Char
  | '+' :: r => (false, r)
  | '-' :: r => (true, r)
  | r => (false, r)

/-- The numbers that are written by name. -/
def named? (negative : Bool) (s : List Char) : Option Binary64 :=
  let name := String.ofList (s.map Char.toLower)
  if name = "inf" ∨ name = "infinity" then some (.infinity negative)
  else if name = "nan" then some (.nan negative)
  else none

/-- The number written by a literal. -/
def ofChars? (s : List Char) : Option Binary64 :=
  match takeSign s with
  | (negative, body) =>
    match named? negative body with
    | some v => some v
    | none => (Decimal.ofUnsigned? negative body).map Decimal.toBinary64

/-- The number written by a literal. -/
def ofText? (s : String) : Option Binary64 := ofChars? s.toList

end Binary64

end AccessLatency
