import AccessLatency.Files.Fault
import AccessLatency.Files.Path

/-!
# A tree of folders and files

A place in the tree is the list of the names on the way to it from the root. `nodeAt` is the view of
the tree: what is at a place, if anything. Paths are followed from the root or from the working
folder, component by component, and every component but the last has to be a folder. `write` changes
the node at one place and no other, as `nodeAt_put` says.
-/

set_option autoImplicit false

namespace AccessLatency

/-- What is at a place. -/
inductive FileNode (α : Type) where
  | folder
  | file (content : α)
  deriving DecidableEq

/-- The names on the way from the root to a place. -/
abbrev Place := List (List Char)

/-- Folders and files, with the folder that relative paths start from. The root and the working
folder with all folders above it are there without being listed. -/
structure FileTree (α : Type) where
  working : Place
  nodes : List (Place × FileNode α)

namespace FileTree

variable {α : Type}

/-- What is at a place. -/
def nodeAt (t : FileTree α) (place : Place) : Option (FileNode α) :=
  match t.nodes.lookup place with
  | some node => some node
  | none => if place.isPrefixOf t.working then some .folder else none

/-- The longest path that can be followed has fewer bytes than this. -/
def pathLimit : Nat := 4096

/-- The longest name has this many bytes. -/
def nameLimit : Nat := 255

/-- The number of bytes of a text. -/
def byteCount (s : List Char) : Nat := s.foldl (fun n c => n + c.utf8Size) 0

/-- Refuse a path that cannot be followed from anywhere. -/
def checkPath (p : List Char) : Except FileFault Unit :=
  if p.any fun c => c.val == 0 then .error .nulInPath
  else if p.isEmpty then .error .missing
  else if pathLimit ≤ byteCount p then .error .nameTooLong
  else .ok ()

/-- The place that a name in a folder stands for, and what is there. -/
def child (t : FileTree α) (folder : Place) (name : List Char) :
    Except FileFault (Place × Option (FileNode α)) :=
  if nameLimit < byteCount name then .error .nameTooLong
  else .ok (folder ++ [name], t.nodeAt (folder ++ [name]))

/-- Follow components from a place on to a node. -/
def walk (t : FileTree α) : Place → FileNode α → List (List Char) →
    Except FileFault (Place × FileNode α)
  | place, node, [] => .ok (place, node)
  | _, .file _, _ :: _ => .error .notFolder
  | place, .folder, name :: rest =>
    if name = [] ∨ name = Path.here then walk t place .folder rest
    else if name = Path.above then walk t place.dropLast .folder rest
    else
      match t.child place name with
      | .error fault => .error fault
      | .ok (_, none) => .error .missing
      | .ok (next, some node) => walk t next node rest

/-- The place that a path starts from. -/
def start (t : FileTree α) (p : List Char) : Place := if Path.isAbsolute p then [] else t.working

/-- The node that a path leads to. -/
def follow (t : FileTree α) (p : List Char) : Except FileFault (Place × FileNode α) :=
  match checkPath p with
  | .error fault => .error fault
  | .ok () => t.walk (t.start p) .folder (Path.components p)

/-- The content of the file that a path leads to. -/
def read (t : FileTree α) (p : List Char) : Except FileFault α :=
  match t.follow p with
  | .error fault => .error fault
  | .ok (_, .folder) => .error .isFolder
  | .ok (_, .file content) => .ok content

/-- The folder that a path leads to. -/
def openFolder (t : FileTree α) (p : List Char) : Except FileFault Place :=
  match t.follow p with
  | .error fault => .error fault
  | .ok (place, .folder) => .ok place
  | .ok (_, .file _) => .error .notFolder

/-- The place of a file of the given name in a folder, unless a folder has the name. -/
def fileIn (t : FileTree α) (folder : Place) (name : List Char) : Except FileFault Place :=
  match t.child folder name with
  | .error fault => .error fault
  | .ok (_, some .folder) => .error .isFolder
  | .ok (place, _) => .ok place

/-- The place of the file that is opened for writing under a path. The folder it is in has to be
there; a path that can only be a folder's is refused. -/
def target (t : FileTree α) (p : List Char) : Except FileFault Place :=
  match checkPath p with
  | .error fault => .error fault
  | .ok () =>
    let reversed := (Path.components p).reverse
    match reversed.dropWhile List.isEmpty with
    | [] => .error .isFolder
    | name :: front =>
      match t.walk (t.start p) .folder front.reverse with
      | .error fault => .error fault
      | .ok (_, .file _) => .error .notFolder
      | .ok (folder, .folder) =>
        if name = Path.here ∨ name = Path.above ∨ reversed.head? = some [] then .error .isFolder
        else t.fileIn folder name

/-- Put a node at a place. -/
def put (t : FileTree α) (place : Place) (node : FileNode α) : FileTree α :=
  { t with nodes := (place, node) :: t.nodes.filter fun entry => entry.1 != place }

/-- Write a file under a path. -/
def write (t : FileTree α) (p : List Char) (content : α) : Except FileFault (FileTree α) :=
  match t.target p with
  | .error fault => .error fault
  | .ok place => .ok (t.put place (.file content))

/-- A node that is put first is found at its place. -/
theorem lookup_cons_self (place : Place) (node : FileNode α) (rest : List (Place × FileNode α)) :
    ((place, node) :: rest).lookup place = some node := by
  rw [List.lookup_cons, beq_self_eq_true]

/-- A node that is put first does not hide the nodes at other places. -/
theorem lookup_cons_ne {place other : Place} (h : other ≠ place) (node : FileNode α)
    (rest : List (Place × FileNode α)) :
    ((place, node) :: rest).lookup other = rest.lookup other := by
  rw [List.lookup_cons, beq_false_of_ne h]

/-- Taking away what is at a place leaves the other places as they are. -/
theorem lookup_filter_ne {place other : Place} (h : other ≠ place)
    (nodes : List (Place × FileNode α)) :
    (nodes.filter fun entry => entry.1 != place).lookup other = nodes.lookup other := by
  induction nodes with
  | nil => rfl
  | cons entry rest ih =>
    obtain ⟨here, node⟩ := entry
    by_cases e : here = place
    · subst e
      rw [List.filter_cons_of_neg (by simp), ih, lookup_cons_ne h]
    · rw [List.filter_cons_of_pos (by simp [e])]
      by_cases o : other = here
      · subst o
        rw [lookup_cons_self, lookup_cons_self]
      · rw [lookup_cons_ne o, lookup_cons_ne o, ih]

/-- After a node is put at a place, that node is there, and all other places are as before. -/
theorem nodeAt_put (t : FileTree α) (place other : Place) (node : FileNode α) :
    (t.put place node).nodeAt other = if other = place then some node else t.nodeAt other := by
  unfold nodeAt put
  by_cases e : other = place
  · subst e
    rw [lookup_cons_self]
    simp
  · rw [lookup_cons_ne e, lookup_filter_ne e]
    simp [e]

/-- The place that a component of a path leads to from a place, whatever is there. -/
def advance (place : Place) (name : List Char) : Place :=
  if name = [] ∨ name = Path.here then place
  else if name = Path.above then place.dropLast
  else place ++ [name]

/-- The place that a path leads to, whatever is there. -/
def placeOf (t : FileTree α) (p : List Char) : Place :=
  (Path.components p).foldl advance (t.start p)

/-- Make sure that there is something at a place. -/
def ensureFolder (t : FileTree α) (place : Place) : FileTree α :=
  if (t.nodeAt place).isSome then t else t.put place .folder

/-- Make sure that a folder and all folders above it are there. -/
def ensureFolders (t : FileTree α) (place : Place) : FileTree α :=
  ((List.range (place.length + 1)).map place.take).foldl ensureFolder t

/-- Make a folder, along with the folders it is in. -/
def makeFolder (t : FileTree α) (p : List Char) : FileTree α := t.ensureFolders (t.placeOf p)

/-- Put a file into the tree, along with the folders it is in. -/
def putFile (t : FileTree α) (p : List Char) (content : α) : FileTree α :=
  (t.ensureFolders (t.placeOf p).dropLast).put (t.placeOf p) (.file content)

/-- The path from the working folder to a place below it. -/
def pathFromWorking? (t : FileTree α) (place : Place) : Option (List Char) :=
  if t.working.isPrefixOf place then
    some ((place.drop t.working.length).intersperse ['/']).flatten
  else none

/-- The files below the working folder that differ from those of an earlier tree, with their paths
from there. -/
def changedFiles [DecidableEq α] (before after : FileTree α) : List (List Char × α) :=
  after.nodes.filterMap fun entry =>
    match entry.2 with
    | .folder => none
    | .file content =>
      if before.nodeAt entry.1 = some (.file content) then none
      else (after.pathFromWorking? entry.1).map fun p => (p, content)

end FileTree

end AccessLatency
