/-!
# Plain text

A terminal takes some characters as orders and does not show them: control characters, and the
sequences that an escape character begins. A text that goes anywhere else goes without them.

A sequence has a form of its own, which says where it ends. White space of the layout is shown even
inside the shorter sequences, and what follows it is shown until the next character that would not
be. What comes of the sequence then depends on the medium: in a *message* it is broken off, in a
*stream* it goes on behind the shown characters, unless one of them lies outside the ASCII
characters. System commands and control strings go on until they are ended, whatever is in them.

`plain` is what is left of a text. `plain_eq_self` says that a text without control characters is
left as it is.
-/

set_option autoImplicit false

namespace AccessLatency

namespace Text

/-- Where a text goes: into a message that is handed on as a whole, or out on a stream. -/
inductive Medium where
  | message
  | stream
  deriving DecidableEq, Repr

/-- Where in a control sequence a character stands: outside of any; right behind the escape
character; behind further characters that only select a set; behind an opening bracket; in the head
of a device control, right at its start, among its parameters, or among characters that only select
a set; in a system command; or in any other control string. -/
inductive SequenceMode where
  | outside
  | escape
  | selection
  | bracket
  | deviceStart
  | deviceParameters
  | deviceSelection
  | systemCommand
  | controlString
  deriving DecidableEq, Repr

/-- Whether the code of a character is in a range with both ends included. -/
def isBetween (first last : Nat) (c : Char) : Bool :=
  first ≤ c.toNat && c.toNat ≤ last

/-- The character that begins a sequence. -/
def escapeCharacter : Char := '\x1b'

/-- The characters that end any sequence, whatever it is. -/
def isCancel (c : Char) : Bool := c == '\x18' || c == '\x1a'

/-- The characters that control the layout of a text: tab, line feed, form feed and carriage
return. -/
def isLayout (c : Char) : Bool := c == '\t' || c == '\n' || c == '\x0c' || c == '\r'

/-- The characters that end a system command: the bell. -/
def endsCommand (c : Char) : Bool := c == '\x07'

/-- The characters that end a control string: those with the byte of the string terminator in their
encoding. -/
def endsString (c : Char) : Bool := (String.utf8EncodeChar c).contains 0x9c

namespace SequenceMode

/-- The mode behind a character right behind the escape character. -/
def ofSecond (c : Char) : SequenceMode :=
  if c = '[' then .bracket
  else if c = ']' then .systemCommand
  else if c = 'P' then .deviceStart
  else if c = 'X' ∨ c = '^' ∨ c = '_' then .controlString
  else if isBetween 0x20 0x2f c then .selection
  else if isBetween 0x30 0x7e c then .outside
  else .escape

/-- The mode behind a character in the head of a device control. Parameters come first and
characters that select a set behind them; a character that is neither, or is out of this order, ends
the head, and a control string follows. Characters that are not shown count for nothing. -/
def ofDeviceHead (mode : SequenceMode) (c : Char) : SequenceMode :=
  if isBetween 0x40 0x7e c then .controlString
  else if isBetween 0x20 0x2f c then .deviceSelection
  else if isBetween 0x30 0x3b c then
    if mode = .deviceSelection then .controlString else .deviceParameters
  else if isBetween 0x3c 0x3f c then
    if mode = .deviceStart then .deviceParameters else .controlString
  else mode

/-- The mode behind a character that is not shown. -/
def step (mode : SequenceMode) (c : Char) : SequenceMode :=
  if c = escapeCharacter then .escape
  else if isCancel c then .outside
  else
    match mode with
    | .outside => .outside
    | .escape => ofSecond c
    | .selection => if isBetween 0x30 0x7e c then .outside else .selection
    | .bracket => if isBetween 0x40 0x7e c then .outside else .bracket
    | .deviceStart | .deviceParameters | .deviceSelection => mode.ofDeviceHead c
    | .systemCommand => if endsCommand c then .outside else .systemCommand
    | .controlString => if endsString c then .outside else .controlString

/-- Whether a character is shown. -/
def shows (mode : SequenceMode) (c : Char) : Bool :=
  match mode with
  | .outside => isLayout c || (0x20 ≤ c.toNat && c.toNat != 0x7f)
  | .escape | .selection | .bracket => isLayout c
  | _ => false

/-- The mode behind a character that is shown. -/
def behindShown (medium : Medium) (mode : SequenceMode) (c : Char) : SequenceMode :=
  match medium with
  | .message => .outside
  | .stream => if c.toNat < 0x80 then mode else .outside

end SequenceMode

/-- What is left of a text that begins in a given mode. Behind a character that is shown, all
characters are shown that are shown outside of sequences. -/
def plainFrom (medium : Medium) : SequenceMode → Bool → List Char → List Char
  | _, _, [] => []
  | mode, showing, c :: rest =>
    if (if showing then SequenceMode.outside else mode).shows c then
      c :: plainFrom medium (mode.behindShown medium c) true rest
    else plainFrom medium (mode.step c) false rest

/-- What is left of a text without control characters and control sequences. -/
def plainChars (medium : Medium) (s : List Char) : List Char := plainFrom medium .outside false s

/-- What is left of a text without control characters and control sequences. -/
def plain (medium : Medium) (s : String) : String := String.ofList (plainChars medium s.toList)

/-- A character that is shown outside of all sequences begins none. -/
theorem SequenceMode.behindShown_outside (medium : Medium) (c : Char) :
    SequenceMode.outside.behindShown medium c = .outside := by
  cases medium <;> simp [SequenceMode.behindShown]

/-- Outside of all sequences, characters that are no control characters are all shown. -/
theorem plainFrom_outside_eq_self {medium : Medium} {showing : Bool} {s : List Char}
    (h : ∀ c ∈ s, 0x20 ≤ c.toNat ∧ c.toNat ≠ 0x7f) : plainFrom medium .outside showing s = s := by
  induction s generalizing showing with
  | nil => rfl
  | cons c rest ih =>
    obtain ⟨low, notDelete⟩ := h c List.mem_cons_self
    have shown : SequenceMode.outside.shows c = true := by
      simp [SequenceMode.shows, low, notDelete]
    rw [plainFrom, ite_self, if_pos shown, SequenceMode.behindShown_outside,
      ih fun d hd => h d (List.mem_cons_of_mem c hd)]

/-- A text without control characters is left as it is. -/
theorem plain_eq_self {medium : Medium} {s : String}
    (h : ∀ c ∈ s.toList, 0x20 ≤ c.toNat ∧ c.toNat ≠ 0x7f) : plain medium s = s := by
  rw [plain, plainChars, plainFrom_outside_eq_self h, String.ofList_toList]

end Text

end AccessLatency
