import AccessLatency.Binary64.Decimal
import AccessLatency.Binary64.Shortest
import AccessLatency.LatencyTable.Basic
import AccessLatency.Log
import AccessLatency.Text.Blank
import AccessLatency.Text.Quoted

/-!
# Latency tables as comma-separated text

A row is written as its size and its two latencies, separated by commas. The reader takes more than
that. Blank lines are no lines, fields are trimmed, and a first line whose leading field is not a
number is a header. All other lines have to have the same number of fields, three at least, of which
it reads the first three.

The text becomes *records*, the lines that are not blank with their numbers and their fields;
`dataRecords` leaves out a header; `readRow` reads one record; and `ofChars` reads them all, in
order, up to the first that is wrong.
-/

set_option autoImplicit false

namespace AccessLatency

namespace LatencyRow

/-- The first line of a file whose rows are under names. -/
def header : String := "size,random_ns,sequential_ns"

/-- A row as text, without the end of its line. -/
def chars (r : LatencyRow) : List Char :=
  Text.decimal r.size.toNat ++ ',' :: (r.random.chars ++ ',' :: r.sequential.chars)

/-- A row as a line of text. -/
def line (r : LatencyRow) : String := String.ofList (r.chars ++ ['\n'])

end LatencyRow

namespace LatencyTable

/-- What is wrong with a record. -/
inductive RowFault where
  | tooFewColumns (found : Nat)
  | otherWidth (expected found : Nat)
  | badSize (field : List Char)
  | badLatency (field : List Char)
  deriving DecidableEq

/-- The least number of fields of a row. -/
def leastColumns : Nat := 3

/-- The wording of a row fault. -/
def RowFault.message : RowFault → String
  | .tooFewColumns found =>
    "expected at least " ++ toString leastColumns ++ " columns, found " ++ toString found
  | .otherWidth expected found =>
    "expected " ++ toString expected ++ " columns, found " ++ toString found
  | .badSize field => "invalid array size " ++ Text.quoted field
  | .badLatency field => "invalid latency " ++ Text.quoted field

/-- A record that cannot be read, with the number of its line; lines are counted from one. -/
structure ReadFault where
  line : Nat
  fault : RowFault
  deriving DecidableEq

/-- A line that is not blank: its number and its trimmed fields. -/
structure Record where
  line : Nat
  fields : List (List Char)
  deriving DecidableEq

/-- The record of a line, unless the line is blank. -/
def record? (number : Nat) (line : List Char) : Option Record :=
  let body := Text.trim line
  if body.isEmpty then none else some ⟨number, (Text.split ',' body).map Text.trim⟩

/-- The records of lines, numbered on from the given number. -/
def recordsFrom (number : Nat) : List (List Char) → List Record
  | [] => []
  | line :: rest =>
    match record? number line with
    | some r => r :: recordsFrom (number + 1) rest
    | none => recordsFrom (number + 1) rest

/-- The records of a text. -/
def records (s : List Char) : List Record := recordsFrom 1 (Text.split '\n' s)

/-- Whether a record is a header: its leading field is not a number. -/
def isHeader (r : Record) : Bool :=
  match r.fields with
  | field :: _ => (Binary64.ofChars? field).isNone
  | [] => true

/-- The records without a header in front. -/
def dropHeader : List Record → List Record
  | [] => []
  | r :: rest => if isHeader r then rest else r :: rest

/-- The records of a text that hold data. -/
def dataRecords (s : List Char) : List Record := dropHeader (records s)

/-- Read a size: a whole-number literal, or any other literal whose value is a whole number that a
word can hold. A value of `2 ^ 64`, to which the largest word rounds, is taken for that word. -/
def readSize? (field : List Char) : Option UInt64 :=
  match Text.word? field with
  | some n => some n
  | none =>
    match Binary64.ofChars? field with
    | none => none
    | some v =>
      if v.isFinite && Binary64.le (Binary64.zero false) v && v.isWhole
          && Binary64.le v (Binary64.ofNat Text.wordBound) then
        some v.toWord
      else none

/-- Read a latency: a literal with a finite value. -/
def readLatency? (field : List Char) : Option Binary64 :=
  match Binary64.ofChars? field with
  | some v => if v.isFinite then some v else none
  | none => none

/-- Read the first three fields of a record. -/
def readFields : List (List Char) → Except RowFault LatencyRow
  | size :: random :: sequential :: _ =>
    match readSize? size with
    | none => .error (.badSize size)
    | some s =>
      match readLatency? random with
      | none => .error (.badLatency random)
      | some r =>
        match readLatency? sequential with
        | none => .error (.badLatency sequential)
        | some q => .ok ⟨s, r, q⟩
  | fields => .error (.tooFewColumns fields.length)

/-- Read a record of a table whose rows have `width` fields. -/
def readRow (width : Nat) (r : Record) : Except ReadFault LatencyRow :=
  if r.fields.length = width then
    match readFields r.fields with
    | .ok row => .ok row
    | .error fault => .error ⟨r.line, fault⟩
  else .error ⟨r.line, .otherWidth width r.fields.length⟩

/-- Read records in order, up to the first that is wrong. -/
def readRows (width : Nat) : List Record → Except ReadFault (List LatencyRow)
  | [] => .ok []
  | r :: rest =>
    match readRow width r with
    | .error e => .error e
    | .ok row =>
      match readRows width rest with
      | .error e => .error e
      | .ok rows => .ok (row :: rows)

/-- Read the records that hold data; the first of them sets the number of fields. -/
def ofRecords : List Record → Except ReadFault LatencyTable
  | [] => .ok ⟨[]⟩
  | r :: rest =>
    if r.fields.length < leastColumns then .error ⟨r.line, .tooFewColumns r.fields.length⟩
    else
      match readRows r.fields.length (r :: rest) with
      | .error e => .error e
      | .ok rows => .ok ⟨rows⟩

/-- Read a table. -/
def ofChars (s : List Char) : Except ReadFault LatencyTable := ofRecords (dataRecords s)

/-- The first line of a text that is not blank. -/
def firstLine? (s : List Char) : Option (List Char) :=
  ((Text.split '\n' s).map Text.trim).find? fun line => !line.isEmpty

/-- The header of a text, if it has one. -/
def header? (s : List Char) : Option (List Char) :=
  if (records s).head?.any isHeader then firstLine? s else none

/-- The note that a header is left out, if there is one. -/
def noteHeader (s : List Char) : Outcome ReadFault Unit :=
  match header? s with
  | some line => Outcome.record .debug ("Skipping header line " ++ Text.quoted line)
  | none => Outcome.ok ()

/-- The warning about rows that are out of order. -/
def unsortedWarning : String := "Rows are not sorted by ascending array size"

/-- Read a table, note that its header is left out, and warn if its rows are out of order. -/
def read (s : List Char) : Outcome ReadFault LatencyTable :=
  (noteHeader s).bind fun _ =>
    (Outcome.ofExcept (ofChars s)).bind fun t =>
      (Outcome.recordIf (!t.isSorted) .warn unsortedWarning).bind fun _ => .ok t

/-- A table as text: its rows as lines, under a header if one is asked for. -/
def toText (withHeader : Bool) (t : LatencyTable) : String :=
  (if withHeader then LatencyRow.header ++ "\n" else "") ++ String.join (t.rows.map LatencyRow.line)

end LatencyTable

end AccessLatency
