import AccessLatency.Log
import AccessLatency.Text.Blank
import AccessLatency.Text.Plain

/-!
# The error stream

Log records and complaints go out on one stream of lines. A record begins with its head, and its
lines behind the first are indented. It goes out as plain text, and the end of its last line with
it: so a control sequence in it that is not ended takes that end away, and the next record begins in
the same line.

`ErrorSign.lines` takes a stream apart. A carriage return in front of a line feed belongs to the end
of the line; behind the last line feed there is a line only if something stands there.
-/

set_option autoImplicit false

namespace AccessLatency

/-- What goes out on the error stream: the head of a record, or a character. -/
inductive ErrorSign where
  | head (level : LogLevel)
  | char (c : Char)
  deriving DecidableEq, Repr

/-- A line on the error stream: one that begins with the head of a record, or any other. -/
inductive ErrorLine where
  | record (level : LogLevel) (text : String)
  | other (text : String)
  deriving DecidableEq, Repr

namespace ErrorSign

/-- A sign as text. Only a head that stands inside a line is read in this way. -/
def chars : ErrorSign → List Char
  | .head level => '[' :: (level.name.toList ++ [']', ' '])
  | .char c => [c]

/-- Signs as text. -/
def textOf (signs : List ErrorSign) : String := String.ofList (signs.flatMap chars)

/-- The line that signs make up. -/
def lineOf : List ErrorSign → ErrorLine
  | .head level :: rest => .record level (textOf rest)
  | signs => .other (textOf signs)

/-- The signs of a line without a carriage return in front of its end. -/
def withoutReturn (signs : List ErrorSign) : List ErrorSign :=
  match signs.getLast? with
  | some (.char '\r') => signs.dropLast
  | _ => signs

/-- The lines of a stream. What is left behind the last line feed is a line if there is anything. -/
def lines (signs : List ErrorSign) : List (List ErrorSign) :=
  match (Text.split (.char '\n') signs).reverse with
  | [] => []
  | last :: ended => (ended.map withoutReturn).reverse ++ if last.isEmpty then [] else [last]

/-- A text that goes out as it is, with a line feed behind it. -/
def ofText (s : String) : List ErrorSign := (s ++ "\n").toList.map .char

/-- The first line of a text that goes out. -/
def firstLine (s : String) : String :=
  match lines (ofText s) with
  | [] => ""
  | first :: _ => textOf first

end ErrorSign

namespace LogRecord

/-- The indentation of the lines of a record behind the first. -/
def indentation : List Char := List.replicate 4 ' '

/-- A character of a record, with the indentation behind a line feed. -/
def indentChar (c : Char) : List Char := if c = '\n' then c :: indentation else [c]

/-- A record on the error stream: its head, and its message as plain text. The line feed at the end
is a part of it, so that a sequence that is not ended takes it along. -/
def signs (r : LogRecord) : List ErrorSign :=
  .head r.level
    :: (Text.plainChars .stream (r.message.toList.flatMap indentChar ++ ['\n'])).map .char

end LogRecord

end AccessLatency
