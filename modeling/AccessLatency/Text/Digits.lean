import AccessLatency.Power

/-!
# Decimal digits

Reading runs of ASCII digits as natural numbers, and reading whole-number literals into words of a
limited range. The literal reader takes the digits from the left and reports the first thing that
goes wrong: a character that is no digit, or a value that has left the range, whichever comes
first.
-/

set_option autoImplicit false

namespace AccessLatency

namespace Text

/-- The value of a digit. -/
def digitValue (c : Char) : Nat := c.toNat - '0'.toNat

/-- The number written by a run of digits, read on from a value of the digits before it. -/
def digitsValueFrom (start : Nat) (digits : List Char) : Nat :=
  digits.foldl (fun n c => 10 * n + digitValue c) start

/-- The number written by a run of digits. -/
def digitsValue (digits : List Char) : Nat := digitsValueFrom 0 digits

/-- The digits in front of a text. -/
def leadingDigits (s : List Char) : List Char := s.takeWhile Char.isDigit

/-- What follows the digits in front of a text. -/
def afterDigits (s : List Char) : List Char := s.dropWhile Char.isDigit

/-- The leading digits and what is behind them are the whole text. -/
theorem leadingDigits_append_afterDigits (s : List Char) :
    leadingDigits s ++ afterDigits s = s := List.takeWhile_append_dropWhile

/-- The decimal digits of a number, without leading zeros. -/
def decimal (n : Nat) : List Char := Nat.toDigits 10 n

/-- Why a text is not a whole-number literal of the wanted range. -/
inductive IntegerFault where
  | empty
  | invalidDigit
  | tooLarge
  | tooSmall
  deriving DecidableEq

/-- The wording of a whole-number fault. -/
def IntegerFault.message : IntegerFault → String
  | .empty => "cannot parse integer from empty string"
  | .invalidDigit => "invalid digit found in string"
  | .tooLarge => "number too large to fit in target type"
  | .tooSmall => "number too small to fit in target type"

/-- Read digits up to the end of the text, staying at or below `bound`; `overflow` is the fault of
a value beyond it. -/
def boundedDigits (bound : Nat) (overflow : IntegerFault) :
    Nat → List Char → Except IntegerFault Nat
  | n, [] => .ok n
  | n, c :: rest =>
    if c.isDigit then
      let next := 10 * n + digitValue c
      if next ≤ bound then boundedDigits bound overflow next rest else .error overflow
    else .error .invalidDigit

/-- Read a literal without a minus sign: an optional plus sign and at least one digit, with a value
of at most `bound`. -/
def naturalLiteral (bound : Nat) : List Char → Except IntegerFault Nat
  | [] => .error .empty
  | ['+'] => .error .invalidDigit
  | '+' :: rest => boundedDigits bound .tooLarge 0 rest
  | s => boundedDigits bound .tooLarge 0 s

/-- Read a literal with an optional sign of either kind and a value of 64 bits. -/
def integerLiteral : List Char → Except IntegerFault Int
  | [] => .error .empty
  | ['+'] => .error .invalidDigit
  | ['-'] => .error .invalidDigit
  | '+' :: rest => (boundedDigits (2 ^ 63 - 1) .tooLarge 0 rest).map Int.ofNat
  | '-' :: rest => (boundedDigits (2 ^ 63) .tooSmall 0 rest).map (fun n => -(n : Int))
  | s => (boundedDigits (2 ^ 63 - 1) .tooLarge 0 s).map Int.ofNat

/-- The largest word of 64 bits. -/
def wordBound : Nat := 2 ^ 64 - 1

/-- The word written by a literal, if it is one. -/
def word? (s : List Char) : Option UInt64 :=
  match naturalLiteral wordBound s with
  | .ok n => some (UInt64.ofNat n)
  | .error _ => none

end Text

end AccessLatency
