import AccessLatency.Binary64.Shortest

/-!
# JSON values and their text

A number is a natural number of 64 bits, a negative integer of 64 bits, or a floating-point number.
The fields of an object are a list, in the order they are printed in. `Json.chars` prints a value
without white space. `Fields.insert` keeps fields in ascending order of their keys, one for each
key, the last one given.
-/

set_option autoImplicit false

namespace AccessLatency

/-- The numbers of JSON texts. -/
inductive JsonNumber where
  | natural (n : UInt64)
  | negative (i : Int)
  | floating (v : Binary64)
  deriving DecidableEq

/-- The values of JSON texts. -/
inductive Json where
  | null
  | bool (b : Bool)
  | number (n : JsonNumber)
  | string (s : String)
  | array (items : List Json)
  | object (fields : List (String × Json))

namespace Json

/-- The text of a number. -/
def numberText : JsonNumber → String
  | .natural n => toString n.toNat
  | .negative i => toString i
  | .floating v => v.scientificText

/-- Two hexadecimal digits of a small number. -/
def hexPair (n : Nat) : List Char := [Nat.digitChar (n / 16), Nat.digitChar (n % 16)]

/-- A character as it stands inside a string. -/
def escapeChar (c : Char) : List Char :=
  if c = '"' then ['\\', '"']
  else if c = '\\' then ['\\', '\\']
  else if c.val = 8 then ['\\', 'b']
  else if c.val = 9 then ['\\', 't']
  else if c.val = 10 then ['\\', 'n']
  else if c.val = 12 then ['\\', 'f']
  else if c.val = 13 then ['\\', 'r']
  else if c.val < 32 then ['\\', 'u', '0', '0'] ++ hexPair c.val.toNat
  else [c]

/-- A string in quotation marks. -/
def stringChars (s : String) : List Char := '"' :: (s.toList.flatMap escapeChar ++ ['"'])

mutual

/-- A value as text, without white space. -/
def chars : Json → List Char
  | .null => ['n', 'u', 'l', 'l']
  | .bool true => ['t', 'r', 'u', 'e']
  | .bool false => ['f', 'a', 'l', 's', 'e']
  | .number n => (numberText n).toList
  | .string s => stringChars s
  | .array [] => ['[', ']']
  | .array (item :: rest) => '[' :: (chars item ++ moreItems rest)
  | .object [] => ['\x7b', '\x7d']
  | .object ((key, value) :: rest) =>
    '\x7b' :: (stringChars key ++ ':' :: (chars value ++ moreFields rest))

/-- The rest of an array, from the comma or bracket behind an item on. -/
def moreItems : List Json → List Char
  | [] => [']']
  | item :: rest => ',' :: (chars item ++ moreItems rest)

/-- The rest of an object, from the comma or brace behind a field on. -/
def moreFields : List (String × Json) → List Char
  | [] => ['\x7d']
  | (key, value) :: rest => ',' :: (stringChars key ++ ':' :: (chars value ++ moreFields rest))

end

/-- A value as text, without white space. -/
def text (j : Json) : String := String.ofList j.chars

/-- The fields of an object. -/
abbrev Fields := List (String × Json)

/-- Set a field among fields in ascending order of their keys; a field of the same key is
replaced. -/
def Fields.insert (key : String) (value : Json) : Fields → Fields
  | [] => [(key, value)]
  | (k, v) :: rest =>
    if key < k then (key, value) :: (k, v) :: rest
    else if key = k then (key, value) :: rest
    else (k, v) :: Fields.insert key value rest

/-- The value of the field with the given key. -/
def Fields.get? (key : String) (fields : Fields) : Option Json := fields.lookup key

/-- The field of an object with the given key; nothing for a value that is no object. -/
def field? (key : String) : Json → Option Json
  | .object fields => Fields.get? key fields
  | _ => none

end Json

end AccessLatency
