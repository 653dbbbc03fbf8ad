import AccessLatency.Chart.SvgOutline
import AccessLatency.Files.Tree

/-!
# What files hold

A file holds a text, bytes that are no text, or something drawn: a bitmap, of which the library
fixes the size only, the outline of a vector drawing, or a document with the request to typeset it.
-/

set_option autoImplicit false

namespace AccessLatency

/-- A document to be typeset, and the name of the job. -/
structure TypesetRequest where
  jobName : String
  document : String
  deriving DecidableEq

namespace TypesetRequest

/-- The arguments that the typesetter is called with, before the document. -/
def arguments (r : TypesetRequest) : List String :=
  ["-interaction=batchmode", "-halt-on-error", "-jobname=" ++ r.jobName]

end TypesetRequest

/-- What a file holds. -/
inductive FileContent where
  | text (s : String)
  | octets (bytes : List UInt8)
  | bitmap (width height : UInt32)
  | outline (drawing : SvgOutline)
  | typeset (request : TypesetRequest)
  deriving DecidableEq

namespace FileContent

/-- The content as text. -/
def asText : FileContent → Except FileFault String
  | .text s => .ok s
  | _ => .error .notText

end FileContent

/-- Folders and files of programs that plot. -/
abbrev Folders := FileTree FileContent

/-- The text of the file that a path leads to. -/
def Folders.readText (folders : Folders) (path : String) : Except FileFault String :=
  match FileTree.read folders path.toList with
  | .error fault => .error fault
  | .ok content => content.asText

/-- Write a file under a path. -/
def Folders.writeFile (folders : Folders) (path : String) (content : FileContent) :
    Except FileFault Folders :=
  FileTree.write folders path.toList content

end AccessLatency
