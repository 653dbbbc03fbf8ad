import AccessLatency.Binary64.Decimal
import AccessLatency.ByteSize
import AccessLatency.Chart.Scale
import AccessLatency.CommandLine.Parser
import AccessLatency.Text.Digits

/-!
# Values on command lines

How the text of an argument becomes a value: paths, texts, scales, sizes and numbers.
-/

set_option autoImplicit false

namespace AccessLatency

namespace CommandLine

/-- A path; it is not empty. -/
def pathValue (s : String) : Except ValueFault String := if s = "" then .error .absent else .ok s

/-- Any text. -/
def textValue (s : String) : Except ValueFault String := .ok s

/-- The name of a scale; no name counts as no value. -/
def scaleValue (s : String) : Except ValueFault AxisScale :=
  if s = "" then .error .absent
  else
    match AxisScale.all.find? fun scale => scale.name == s with
    | some scale => .ok scale
    | none => .error .notAChoice

/-- A size in bytes. -/
def sizeValue (s : String) : Except ValueFault UInt64 :=
  match ByteSize.ofText s with
  | .ok size => .ok size
  | .error why => .error (.invalid why.message)

/-- A natural number of 64 bits. -/
def wordValue (s : String) : Except ValueFault UInt64 :=
  match Text.naturalLiteral Text.wordBound s.toList with
  | .ok n => .ok (UInt64.ofNat n)
  | .error why => .error (.invalid why.message)

/-- The largest number of pixels. -/
def pixelBound : Nat := 2 ^ 32 - 1

/-- A number of pixels; it is read as an integer of 64 bits before its range is checked. -/
def pixelValue (s : String) : Except ValueFault UInt32 :=
  match Text.integerLiteral s.toList with
  | .error why => .error (.invalid why.message)
  | .ok i =>
    if 0 ≤ i ∧ i ≤ pixelBound then .ok (UInt32.ofNat i.toNat)
    else .error (.invalid (toString i ++ " is not in 0..=" ++ toString pixelBound))

/-- A floating-point number. -/
def factorValue (s : String) : Except ValueFault Binary64 :=
  match Binary64.ofText? s with
  | some v => .ok v
  | none =>
    .error (.invalid
      (if s = "" then "cannot parse float from empty string" else "invalid float literal"))

variable {σ α : Type}

/-- The role of a parameter that reads a value and stores it. -/
def valueRole (read : String → Except ValueFault α) (store : α → σ → σ) : Role σ :=
  .value fun s values => (read s).map fun a => store a values

end CommandLine

end AccessLatency
