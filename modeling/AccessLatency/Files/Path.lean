import AccessLatency.Text.Blank

/-!
# Paths

A path is a text of components between separators. Separators and single dots behind the last name
do not count, so that `a/b/.` ends in the name `b`; a path that ends in two dots, and one without a
component, end in no name. The last dot of a name, unless the name starts with it, divides the stem
from the extension.
-/

set_option autoImplicit false

namespace AccessLatency

namespace Path

/-- Leave out separators, and single dots behind one, at the end of a path; the path is given back
to front. -/
def dropIdle : List Char → List Char
  | '/' :: rest => dropIdle rest
  | '.' :: '/' :: rest => dropIdle rest
  | s => s

/-- Whether a character is not the separator. -/
def isInner (c : Char) : Bool := c != '/'

/-- The last component of a path; the path is given back to front. -/
def lastComponent (reversed : List Char) : List Char :=
  ((dropIdle reversed).takeWhile isInner).reverse

/-- The name of the current folder. -/
def here : List Char := ['.']

/-- The name of the folder above. -/
def above : List Char := ['.', '.']

/-- The name that a path ends in. -/
def fileName? (p : List Char) : Option (List Char) :=
  let name := lastComponent p.reverse
  if name = [] ∨ name = here ∨ name = above then none else some name

/-- Whether a character is no dot. -/
def isPlain (c : Char) : Bool := c != '.'

/-- The stem of a name and the extension behind it. -/
def splitName (name : List Char) : List Char × Option (List Char) :=
  match name.reverse.dropWhile isPlain with
  | _ :: before@(_ :: _) => (before.reverse, some (name.reverse.takeWhile isPlain).reverse)
  | _ => (name, none)

/-- The stem of the name that a path ends in. -/
def stem? (p : List Char) : Option (List Char) := (fileName? p).map fun name => (splitName name).1

/-- The extension of the name that a path ends in. -/
def extension? (p : List Char) : Option (List Char) :=
  (fileName? p).bind fun name => (splitName name).2

/-- The folder that the name at the end of a path is in; empty for a name on its own. -/
def parent (p : List Char) : List Char :=
  match (dropIdle p.reverse).dropWhile isInner with
  | [] => []
  | front =>
    match dropIdle front with
    | [] => ['/']
    | rest => rest.reverse

/-- The path up to the end of the stem of its name. -/
def throughStem? (p : List Char) : Option (List Char) :=
  (fileName? p).map fun name =>
    let body := (dropIdle p.reverse).reverse
    body.take (body.length - name.length) ++ (splitName name).1

/-- The path with another extension. The extension it has is taken off first: as many characters as
it is long, at the end of the whole path. A path that is without a name then stays so. -/
def withExtension (extension : List Char) (p : List Char) : List Char :=
  let shortened := match extension? p with
    | none => p
    | some old => p.take (p.length - old.length)
  match throughStem? shortened with
  | none => shortened
  | some front => front ++ '.' :: extension

/-- The components of a path, in order; an empty component means the folder it stands in. -/
def components (p : List Char) : List (List Char) := Text.split '/' p

/-- Whether a path starts at the root. -/
def isAbsolute (p : List Char) : Bool := p.head? == some '/'

end Path

end AccessLatency
