import AccessLatency.Binary64.Arithmetic
import AccessLatency.Binary64.Decimal
import AccessLatency.Text.Blank
import AccessLatency.Text.Quoted

/-!
# Sizes in bytes, as people write them

A size is written as a number and a unit. Units are binary: a kibibyte has 1024 bytes, a mebibyte
1024 of those and a gibibyte 1024 of these, and the short suffixes mean the same as the long ones.
`ByteSize.toText` picks the largest unit that divides the size exactly; `ByteSize.ofText` reads a
whole number of units exactly and a fractional one through a floating-point number.
-/

set_option autoImplicit false

namespace AccessLatency

/-- The units of a written size. -/
inductive ByteUnit where
  | byte
  | kibibyte
  | mebibyte
  | gibibyte
  deriving DecidableEq

namespace ByteUnit

/-- The number of bytes in a unit. -/
def bytes : ByteUnit → Nat
  | .byte => 1
  | .kibibyte => 2 ^ 10
  | .mebibyte => 2 ^ 20
  | .gibibyte => 2 ^ 30

/-- The name of a unit behind a number. -/
def symbol : ByteUnit → String
  | .byte => "B"
  | .kibibyte => "KiB"
  | .mebibyte => "MiB"
  | .gibibyte => "GiB"

/-- The units a size can be printed in, the largest first; bytes are the last resort. -/
def multiples : List ByteUnit := [.gibibyte, .mebibyte, .kibibyte]

/-- The unit that a suffix in small letters stands for. -/
def ofSuffix? (suffix : String) : Option ByteUnit :=
  if suffix = "" ∨ suffix = "b" then some .byte
  else if suffix = "k" ∨ suffix = "kb" ∨ suffix = "kib" then some .kibibyte
  else if suffix = "m" ∨ suffix = "mb" ∨ suffix = "mib" then some .mebibyte
  else if suffix = "g" ∨ suffix = "gb" ∨ suffix = "gib" then some .gibibyte
  else none

/-- Whether a size is a positive whole number of units. -/
def divides (unit : ByteUnit) (size : UInt64) : Bool :=
  unit.bytes ≤ size.toNat && size.toNat % unit.bytes == 0

/-- The largest unit that divides a size. -/
def largest (size : UInt64) : ByteUnit :=
  (multiples.find? fun unit => unit.divides size).getD .byte

end ByteUnit

namespace ByteSize

/-- Why a text is not a size; the texts are trimmed, and the suffix is in small letters. -/
inductive Fault where
  | unknownSuffix (suffix : List Char)
  | invalid (size : List Char)
  | overflows (size : List Char)
  | notWhole (size : List Char)
  deriving DecidableEq

/-- The wording of a size fault. -/
def Fault.message : Fault → String
  | .unknownSuffix suffix => "unknown size suffix " ++ Text.quoted suffix
  | .invalid size => "invalid size " ++ Text.quoted size
  | .overflows size => "size " ++ Text.quoted size ++ " overflows"
  | .notWhole size => "size " ++ Text.quoted size ++ " is not a whole number of bytes"

/-- The text of a size, in the largest unit that divides it. -/
def toText (size : UInt64) : String :=
  let unit := ByteUnit.largest size
  toString (size.toNat / unit.bytes) ++ " " ++ unit.symbol

/-- The characters that a number is made of. -/
def isNumeric (c : Char) : Bool := c.isDigit || c == '.'

/-- The number in front of a trimmed text, and the suffix behind it. -/
def splitNumber (s : List Char) : List Char × List Char :=
  (s.takeWhile isNumeric, s.dropWhile isNumeric)

/-- The size that a number of units makes; `shown` is the text that a fault quotes. A whole number
is multiplied exactly, anything else as a floating-point number whose product has to be whole. -/
def ofNumber (shown number : List Char) (unit : ByteUnit) : Except Fault UInt64 :=
  match Text.word? number with
  | some n =>
    let size := n.toNat * unit.bytes
    if size ≤ Text.wordBound then .ok (UInt64.ofNat size) else .error (.overflows shown)
  | none =>
    match Binary64.ofChars? number with
    | none => .error (.invalid shown)
    | some v =>
      let size := Binary64.mul v (Binary64.ofNat unit.bytes)
      if size.isWhole && !Binary64.lt (Binary64.ofNat Text.wordBound) size then .ok size.toWord
      else .error (.notWhole shown)

/-- Read a size. -/
def ofChars (s : List Char) : Except Fault UInt64 :=
  let shown := Text.trim s
  let (number, rest) := splitNumber shown
  let suffix := Text.lower (Text.trim rest)
  match ByteUnit.ofSuffix? (String.ofList suffix) with
  | none => .error (.unknownSuffix suffix)
  | some unit => ofNumber shown number unit

/-- Read a size. -/
def ofText (s : String) : Except Fault UInt64 := ofChars s.toList

end ByteSize

end AccessLatency
