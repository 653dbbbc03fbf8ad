import AccessLatency.Binary64.Arithmetic
import AccessLatency.Json.Basic

/-!
# Reading JSON texts

`Json.parse` reads a whole text as one value. Objects come out with their fields in ascending order
of the keys, and of fields with one key the last one counts. Containers may be nested 127 deep.

A number with a fraction or an exponent, and an integer too large for 64 bits, is a floating-point
number. Its value is the number that its leading digits make, as many as fit a word, scaled once by
a power of ten; so the last bit may differ from the nearest number's. A number that is scaled beyond
all finite ones is an error.

A reader takes characters from the front of a text and returns the value with the characters that
are left.
-/

set_option autoImplicit false

namespace AccessLatency

namespace Json

/-- Readers of the front of a text. -/
abbrev Reader (α : Type) := List Char → Option (α × List Char)

/-- White space between the parts of a text. -/
def isSpace (c : Char) : Bool := c == ' ' || c == '\n' || c == '\t' || c == '\r'

/-- Leave out white space. -/
def skipSpace (s : List Char) : List Char := s.dropWhile isSpace

/-- How deep containers may be nested. -/
def deepest : Nat := 127

/-- Digits gathered into a word for as long as they fit: the word, the number of digits gathered,
and the characters from the first that is no digit or does not fit. -/
def gatherDigits : Nat → Nat → List Char → Nat × Nat × List Char
  | n, count, [] => (n, count, [])
  | n, count, c :: rest =>
    if c.isDigit && decide (10 * n + Text.digitValue c ≤ Text.wordBound) then
      gatherDigits (10 * n + Text.digitValue c) (count + 1) rest
    else (n, count, c :: rest)

/-- Divide by `10 ^ 308` until the exponent is in the range of the finite powers of ten. -/
def scaleDown : Nat → Binary64 → Int → Binary64 × Int
  | 0, v, e => (v, e)
  | fuel + 1, v, e =>
    if e < -308 then scaleDown fuel (Binary64.div v (Binary64.ofNat (10 ^ 308))) (e + 308)
    else (v, e)

/-- A word scaled by a power of ten; nothing if that is beyond all finite numbers. Five divisions by
`10 ^ 308` take every word to zero. -/
def scaled? (negative : Bool) (n : Nat) (exponent : Int) : Option Binary64 :=
  let sign (v : Binary64) : Binary64 := if negative then v.neg else v
  if n = 0 then some (sign (Binary64.zero false))
  else if 308 < exponent then none
  else if 0 ≤ exponent then
    let v := Binary64.mul (Binary64.ofNat n) (Binary64.ofNat (10 ^ exponent.toNat))
    if v.isFinite then some (sign v) else none
  else
    let (v, e) := scaleDown 5 (Binary64.ofNat n) exponent
    if e < -308 then some (sign (Binary64.zero false))
    else some (sign (Binary64.div v (Binary64.ofNat (10 ^ (-e).toNat))))

/-- Read what follows the digits of a floating-point number: an exponent, if there is one. -/
def exponentPart (negative : Bool) (n : Nat) (exponent : Int) : Reader JsonNumber
  | c :: rest =>
    if c = 'e' ∨ c = 'E' then
      let (down, digits) := match rest with
        | '+' :: r => (false, r)
        | '-' :: r => (true, r)
        | r => (false, r)
      let leading := Text.leadingDigits digits
      if leading.isEmpty then none
      else
        let e : Int := Text.digitsValue leading
        (scaled? negative n (if down then exponent - e else exponent + e)).map fun v =>
          (.floating v, Text.afterDigits digits)
    else (scaled? negative n exponent).map fun v => (.floating v, c :: rest)
  | [] => (scaled? negative n exponent).map fun v => (.floating v, [])

/-- Read the digits behind a decimal point; those that no longer fit the word are left out. -/
def fractionPart (negative : Bool) (n : Nat) (exponent : Int) (s : List Char) :
    Option (JsonNumber × List Char) :=
  match gatherDigits n 0 s with
  | (n', count, rest) =>
    if (Text.leadingDigits s).isEmpty then none
    else exponentPart negative n' (exponent - count) (Text.afterDigits rest)

/-- An integer: a natural number, or a negative integer of 64 bits; negative zero and what is below
that range are floating-point numbers. -/
def integer (negative : Bool) (n : Nat) : JsonNumber :=
  if negative then
    if n = 0 ∨ 2 ^ 63 < n then .floating (Binary64.ofNat n).neg else .negative (-(n : Int))
  else .natural (UInt64.ofNat n)

/-- Read the digits of a number and what follows them. -/
def unsignedNumber (negative : Bool) (s : List Char) : Option (JsonNumber × List Char) :=
  match s with
  | [] => none
  | c :: tail =>
    if !c.isDigit then none
    else if c = '0' then
      match tail with
      | '.' :: rest => fractionPart negative 0 0 rest
      | d :: rest =>
        if d.isDigit then none
        else if d = 'e' ∨ d = 'E' then exponentPart negative 0 0 (d :: rest)
        else some (integer negative 0, d :: rest)
      | [] => some (integer negative 0, [])
    else
      let (n, _, rest) := gatherDigits 0 0 s
      let dropped := Text.leadingDigits rest
      let exponent : Int := dropped.length
      match Text.afterDigits rest with
      | '.' :: fraction => fractionPart negative n exponent fraction
      | after =>
        let isExponent := match after with
          | d :: _ => decide (d = 'e' ∨ d = 'E')
          | [] => false
        if isExponent || !dropped.isEmpty then exponentPart negative n exponent after
        else some (integer negative n, after)

/-- Read a number. -/
def numberReader : Reader JsonNumber
  | '-' :: rest => unsignedNumber true rest
  | s => unsignedNumber false s

/-- The value of a hexadecimal digit. -/
def hexValue? (c : Char) : Option Nat :=
  if c.isDigit then some (c.toNat - '0'.toNat)
  else if 'a' ≤ c ∧ c ≤ 'f' then some (c.toNat - 'a'.toNat + 10)
  else if 'A' ≤ c ∧ c ≤ 'F' then some (c.toNat - 'A'.toNat + 10)
  else none

/-- Read four hexadecimal digits. -/
def hexQuad : Reader Nat
  | a :: b :: c :: d :: rest =>
    match hexValue? a, hexValue? b, hexValue? c, hexValue? d with
    | some a, some b, some c, some d => some (((a * 16 + b) * 16 + c) * 16 + d, rest)
    | _, _, _, _ => none
  | _ => none

/-- Read the code behind `\u`: a code of one unit, or two units that make up a character beyond
them; a unit of such a pair on its own is an error. -/
def unicodeEscape (s : List Char) : Option (Char × List Char) :=
  match hexQuad s with
  | none => none
  | some (unit, rest) =>
    if 0xD800 ≤ unit ∧ unit < 0xDC00 then
      match rest with
      | '\\' :: 'u' :: more =>
        match hexQuad more with
        | some (low, rest) =>
          if 0xDC00 ≤ low ∧ low < 0xE000 then
            some (Char.ofNat (0x10000 + (unit - 0xD800) * 0x400 + (low - 0xDC00)), rest)
          else none
        | none => none
      | _ => none
    else if 0xDC00 ≤ unit ∧ unit < 0xE000 then none
    else some (Char.ofNat unit, rest)

/-- Read the character that an escape stands for, from behind the backslash on. -/
def escape : Reader Char
  | '"' :: rest => some ('"', rest)
  | '\\' :: rest => some ('\\', rest)
  | '/' :: rest => some ('/', rest)
  | 'b' :: rest => some (Char.ofNat 8, rest)
  | 'f' :: rest => some (Char.ofNat 12, rest)
  | 'n' :: rest => some ('\n', rest)
  | 'r' :: rest => some ('\r', rest)
  | 't' :: rest => some ('\t', rest)
  | 'u' :: rest => unicodeEscape rest
  | _ => none

/-- Read the rest of a string, from behind its opening quotation mark on. The fuel bounds the number
of characters; a text has no more of them than its length. -/
def stringBody : Nat → Reader (List Char)
  | 0, _ => none
  | _ + 1, [] => none
  | fuel + 1, c :: rest =>
    if c = '"' then some ([], rest)
    else if c = '\\' then
      match escape rest with
      | none => none
      | some (d, after) => (stringBody fuel after).map fun (cs, left) => (d :: cs, left)
    else if c.val < 32 then none
    else (stringBody fuel rest).map fun (cs, left) => (c :: cs, left)

/-- Read a string from behind its opening quotation mark on. -/
def stringReader (s : List Char) : Option (String × List Char) :=
  (stringBody (s.length + 1) s).map fun (cs, left) => (String.ofList cs, left)

/-- Read the items of an array and its closing bracket, from in front of an item on. -/
def itemsReader (item : Reader Json) : Nat → Reader (List Json)
  | 0, _ => none
  | fuel + 1, s =>
    match item (skipSpace s) with
    | none => none
    | some (first, after) =>
      match skipSpace after with
      | ',' :: rest => (itemsReader item fuel rest).map fun (items, left) => (first :: items, left)
      | ']' :: rest => some ([first], rest)
      | _ => none

/-- Read a field: a key, a colon and a value. -/
def fieldReader (item : Reader Json) (s : List Char) : Option ((String × Json) × List Char) :=
  match skipSpace s with
  | '"' :: rest =>
    match stringReader rest with
    | none => none
    | some (key, after) =>
      match skipSpace after with
      | ':' :: rest => (item (skipSpace rest)).map fun (value, left) => ((key, value), left)
      | _ => none
  | _ => none

/-- Read the fields of an object and its closing brace, from in front of a field on; `done` holds
the fields that have been read. -/
def fieldsReader (item : Reader Json) : Nat → Fields → Reader Fields
  | 0, _, _ => none
  | fuel + 1, done, s =>
    match fieldReader item s with
    | none => none
    | some ((key, value), after) =>
      let fields := Fields.insert key value done
      match skipSpace after with
      | ',' :: rest => fieldsReader item fuel fields rest
      | '\x7d' :: rest => some (fields, rest)
      | _ => none

/-- Read an array from behind its opening bracket on. -/
def arrayReader (item : Reader Json) (s : List Char) : Option (Json × List Char) :=
  match skipSpace s with
  | ']' :: rest => some (.array [], rest)
  | body => (itemsReader item (body.length + 1) body).map fun (items, left) => (.array items, left)

/-- Read an object from behind its opening brace on. -/
def objectReader (item : Reader Json) (s : List Char) : Option (Json × List Char) :=
  match skipSpace s with
  | '\x7d' :: rest => some (.object [], rest)
  | body =>
    (fieldsReader item (body.length + 1) [] body).map fun (fields, left) => (.object fields, left)

/-- Read a value without white space in front; `container` reads the items of arrays and objects,
and is missing where no further container may be opened. -/
def valueReader (container : Option (Reader Json)) : Reader Json
  | '[' :: rest => container.bind fun item => arrayReader item rest
  | '\x7b' :: rest => container.bind fun item => objectReader item rest
  | '"' :: rest => (stringReader rest).map fun (s, left) => (.string s, left)
  | 'n' :: 'u' :: 'l' :: 'l' :: rest => some (.null, rest)
  | 't' :: 'r' :: 'u' :: 'e' :: rest => some (.bool true, rest)
  | 'f' :: 'a' :: 'l' :: 's' :: 'e' :: rest => some (.bool false, rest)
  | s => (numberReader s).map fun (n, left) => (.number n, left)

/-- Read a value with containers nested up to the given depth. -/
def nestedReader : Nat → Reader Json
  | 0 => valueReader none
  | depth + 1 => valueReader (some (nestedReader depth))

/-- The value written by a text. -/
def parseChars (s : List Char) : Option Json :=
  match nestedReader deepest (skipSpace s) with
  | some (j, rest) => if (skipSpace rest).isEmpty then some j else none
  | none => none

/-- The value written by a text. -/
def parse (s : String) : Option Json := parseChars s.toList

end Json

end AccessLatency
