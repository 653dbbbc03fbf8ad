import AccessLatency.Json.Basic
import AccessLatency.Text.Quoted

/-!
# Reading typed values out of JSON values

A `Mismatch` says why a value is not of the expected kind. The readers here are those of single
values; the records that are made of them read their fields with `Except`, so the first mismatch
ends the reading.
-/

set_option autoImplicit false

namespace AccessLatency

namespace Json

/-- Why a value is not of the expected kind. -/
inductive Mismatch where
  | wrongType (found : String) (expected : String)
  | wrongValue (found : String) (expected : String)
  | wrongLength (found : Nat) (expected : String)
  | unknownVariant (found : String) (allowed : List String)
  | missingField (name : String)
  deriving DecidableEq

/-- A name between backticks. -/
def ticked (name : String) : String := "`" ++ name ++ "`"

/-- A choice of names: two of them with an `or`, more of them as a list. -/
def choice : List String → String
  | [a, b] => ticked a ++ " or " ++ ticked b
  | [a] => ticked a
  | names => "one of " ++ String.intercalate ", " (names.map ticked)

/-- The wording of a mismatch. -/
def Mismatch.message : Mismatch → String
  | .wrongType found expected => "invalid type: " ++ found ++ ", expected " ++ expected
  | .wrongValue found expected => "invalid value: " ++ found ++ ", expected " ++ expected
  | .wrongLength found expected => "invalid length " ++ toString found ++ ", expected " ++ expected
  | .unknownVariant found allowed =>
    "unknown variant " ++ ticked found ++ ", expected " ++ choice allowed
  | .missingField name => "missing field " ++ ticked name

/-- How a message describes a number. -/
def describeNumber : JsonNumber → String
  | .floating v => "floating point " ++ ticked v.scientificText
  | n => "integer " ++ ticked (numberText n)

/-- How a message describes a value. -/
def describe : Json → String
  | .null => "null"
  | .bool true => "boolean " ++ ticked "true"
  | .bool false => "boolean " ++ ticked "false"
  | .number n => describeNumber n
  | .string s => "string " ++ Text.quoted s.toList
  | .array _ => "sequence"
  | .object _ => "map"

/-- The mismatch of a value of the wrong type. -/
def wrongType {α : Type} (expected : String) (j : Json) : Except Mismatch α :=
  .error (.wrongType j.describe expected)

/-- A natural number of at most `bound`; `kind` names the range in a message. -/
def natural (kind : String) (bound : Nat) : Json → Except Mismatch Nat
  | .number (.natural n) =>
    if n.toNat ≤ bound then .ok n.toNat
    else .error (.wrongValue (describeNumber (.natural n)) kind)
  | .number (.negative i) => .error (.wrongValue (describeNumber (.negative i)) kind)
  | j => wrongType kind j

/-- A word of 64 bits under the given name of its range. -/
def word (kind : String) (j : Json) : Except Mismatch UInt64 :=
  (natural kind (2 ^ 64 - 1) j).map UInt64.ofNat

/-- A word of 32 bits. -/
def word32 (j : Json) : Except Mismatch UInt32 :=
  (natural "u32" (2 ^ 32 - 1) j).map UInt32.ofNat

/-- A word of 8 bits. -/
def word8 (j : Json) : Except Mismatch UInt8 :=
  (natural "u8" (2 ^ 8 - 1) j).map UInt8.ofNat

/-- A string; `kind` names what it is to hold. -/
def stringAs (kind : String) : Json → Except Mismatch String
  | .string s => .ok s
  | j => wrongType kind j

/-- A value, or none for null. -/
def optional {α : Type} (read : Json → Except Mismatch α) : Json → Except Mismatch (Option α)
  | .null => .ok none
  | j => (read j).map some

/-- The value of a field, where the field is there. -/
def present {α : Type} (read : Json → Except Mismatch α) (key : String) (fields : Fields) :
    Except Mismatch (Option α) :=
  match Fields.get? key fields with
  | none => .ok none
  | some j => (read j).map some

/-- The value of a field that has to be there. -/
def required {α : Type} (key : String) : Option α → Except Mismatch α
  | some a => .ok a
  | none => .error (.missingField key)

/-- The item at a place of a list that stands for a record; `kind` says what the list is to be. -/
def item {α : Type} (kind : String) (read : Json → Except Mismatch α) (items : List Json)
    (place : Nat) : Except Mismatch α :=
  match items[place]? with
  | none => .error (.wrongLength items.length kind)
  | some j => read j

/-- Refuse a list that has more items than the record it stands for has fields. -/
def noMoreThan (count : Nat) (items : List Json) : Except Mismatch Unit :=
  if count < items.length then .error (.wrongLength items.length "fewer elements in array")
  else .ok ()

/-- The values of a list. -/
def listOf {α : Type} (read : Json → Except Mismatch α) : Json → Except Mismatch (List α)
  | .array items => items.mapM read
  | j => wrongType "a sequence" j

/-- One of several names, each standing for a value. A name is a string, or the only key of an
object whose value is null. -/
def variant {α : Type} (variants : List (String × α)) (j : Json) : Except Mismatch α :=
  let named (name : String) : Except Mismatch α :=
    match variants.lookup name with
    | some a => .ok a
    | none => .error (.unknownVariant name (variants.map (·.1)))
  match j with
  | .string name => named name
  | .object [(name, content)] =>
    match named name with
    | .error e => .error e
    | .ok a =>
      match content with
      | .null => .ok a
      | other => wrongType "unit" other
  | .object _ => .error (.wrongValue "map" "map with a single key")
  | other => wrongType "string or map" other

end Json

end AccessLatency
