/-!
# Blank characters and lines

The blank characters are the twenty-five with the Unicode property `White_Space`. Trimming takes
them off both ends of a text; splitting cuts a text at every occurrence of one character and keeps
the empty pieces. Texts are lists of characters here, as readers take them apart.
-/

set_option autoImplicit false

namespace AccessLatency

namespace Text

/-- The characters with the Unicode property `White_Space`. -/
def isBlank (c : Char) : Bool :=
  let n := c.val.toNat
  (9 ≤ n && n ≤ 13) || n == 32 || n == 0x85 || n == 0xA0 || n == 0x1680
    || (0x2000 ≤ n && n ≤ 0x200A) || n == 0x2028 || n == 0x2029 || n == 0x202F
    || n == 0x205F || n == 0x3000

/-- The text without the blank characters in front. -/
def trimLeft (s : List Char) : List Char := s.dropWhile isBlank

/-- The text without the blank characters at the end. -/
def trimRight (s : List Char) : List Char := (s.reverse.dropWhile isBlank).reverse

/-- The text without the blank characters at both ends. -/
def trim (s : List Char) : List Char := trimRight (trimLeft s)

/-- The pieces of a text, or of any list, between the occurrences of a character; there is always
one more piece than there are occurrences. -/
def split {α : Type} [DecidableEq α] (separator : α) : List α → List (List α)
  | [] => [[]]
  | c :: rest =>
    if c = separator then [] :: split separator rest
    else (split separator rest).modifyHead (c :: ·)

/-- A text has one part at least, however short it is. -/
theorem split_ne_nil {α : Type} [DecidableEq α] (separator : α) (s : List α) :
    split separator s ≠ [] := by
  induction s with
  | nil => simp [split]
  | cons c rest ih =>
    rw [split]
    split
    · simp
    · intro h
      have := congrArg List.length h
      simp [List.length_modifyHead] at this
      exact ih this

/-- The lower-case form of the ASCII letters; every other character stays. -/
def lower (s : List Char) : List Char := s.map Char.toLower

end Text

end AccessLatency
