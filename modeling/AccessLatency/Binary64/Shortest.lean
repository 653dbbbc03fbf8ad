import AccessLatency.Binary64.Decimal

/-!
# The shortest decimal text

The text of a finite number has the fewest significant digits that read back as the number, and of
the decimals with so few digits the nearest. For one, two, … seventeen digits the two neighbours of
the exact value on the grid of that many digits are tried; the first grid with a neighbour that
reads back wins. Of two neighbours that are equally near, a rule picks one.

`text` writes the digits in full, without an exponent, and picks the upper neighbour.
`scientificText` writes numbers that are very large or very small with an exponent, marks whole
numbers by `.0`, and picks the neighbour whose last digit is even.
-/

set_option autoImplicit false

namespace AccessLatency

namespace Binary64

/-- Decimal digits and the power of ten that scales them. -/
structure Digits where
  digits : Nat
  exponent : Int
  deriving DecidableEq

/-- Which of two decimals to take that are equally near. -/
inductive TieRule where
  | upper
  | even
  deriving DecidableEq, Repr

/-- Whether digits read back as a positive number of quanta. -/
def Digits.readsBack (d : Digits) (quanta : Nat) : Bool :=
  match Decimal.toBinary64 ⟨false, d.digits, d.exponent⟩ with
  | .finite false m => m.quanta == quanta
  | _ => false

/-- The number of digits before the decimal point of a positive number of quanta: zero from one
tenth up to one, and negative below. -/
def decimalPoint (quanta : Nat) : Int :=
  (Decimal.length (quanta * 10 ^ 400 / unit) : Int) - 400

/-- The decimal one step above the given digits. Above the largest number of `count` digits that is
a power of ten, and needs only one. -/
def Digits.next (count : Nat) (d : Digits) : Digits :=
  if d.digits + 1 = 10 ^ count then ⟨1, d.exponent + count⟩ else ⟨d.digits + 1, d.exponent⟩

/-- The decimals of `count` digits on both sides of a number of quanta, the nearer one first. -/
def neighbours (rule : TieRule) (quanta count : Nat) : List Digits :=
  let exponent := decimalPoint quanta - count
  let p := if exponent < 0 then quanta * 10 ^ (-exponent).toNat else quanta
  let d := if exponent < 0 then unit else unit * 10 ^ exponent.toNat
  let below : Digits := ⟨p / d, exponent⟩
  let above := below.next count
  if 2 * (p % d) < d then [below, above]
  else if 2 * (p % d) = d ∧ rule = .even ∧ below.digits % 2 = 0 then [below, above]
  else [above, below]

/-- The shortest digits that read back as a positive number of quanta. -/
def shortest (rule : TieRule) (quanta : Nat) : Digits :=
  ((List.range 17).findSome? fun i =>
    (neighbours rule quanta (i + 1)).find? fun d => d.readsBack quanta).getD ⟨quanta, 0⟩

/-- Digits written in full: zeros up to the decimal point, or a point inside the digits, or a zero,
a point and zeros in front of them. -/
def Digits.positional (d : Digits) : List Char :=
  let digits := Text.decimal d.digits
  let point : Int := d.exponent + digits.length
  if 0 ≤ d.exponent then digits ++ List.replicate d.exponent.toNat '0'
  else if 0 < point then digits.take point.toNat ++ '.' :: digits.drop point.toNat
  else '0' :: '.' :: (List.replicate (-point).toNat '0' ++ digits)

/-- The sign in front of a written number. -/
def signText (negative : Bool) : List Char := if negative then ['-'] else []

/-- The digits of a finite number without its sign, written in full. -/
def magnitudeText (m : Magnitude) : List Char :=
  if m.quanta = 0 then ['0'] else (shortest .upper m.quanta).positional

/-- The text of a number, its digits written in full. -/
def chars : Binary64 → List Char
  | .nan _ _ => ['N', 'a', 'N']
  | .infinity s => signText s ++ ['i', 'n', 'f']
  | .finite s m => signText s ++ magnitudeText m

/-- The text of a number, its digits written in full. -/
def text (v : Binary64) : String := String.ofList v.chars

/-- Digits with one of them before the point and a power of ten behind them. -/
def Digits.scientific (d : Digits) : List Char :=
  let digits := Text.decimal d.digits
  let power : Int := d.exponent + digits.length - 1
  let fraction := digits.drop 1
  digits.take 1 ++ (if fraction.isEmpty then [] else '.' :: fraction)
    ++ 'e' :: (if power < 0 then '-' else '+') :: Text.decimal power.natAbs

/-- The text of a number, with an exponent below `10 ^ (-5)` and from `10 ^ 16` on, and with at
least one digit after the point where there is none. -/
def scientificText : Binary64 → String
  | .finite s m =>
    let body :=
      if m.quanta = 0 then ['0', '.', '0']
      else
        let d := shortest .even m.quanta
        let power : Int := d.exponent + (Text.decimal d.digits).length - 1
        if power < -5 ∨ 16 ≤ power then d.scientific
        else if 0 ≤ d.exponent then d.positional ++ ['.', '0']
        else d.positional
    String.ofList (signText s ++ body)
  | v => v.text

end Binary64

end AccessLatency
