import AccessLatency.Files.Path
import AccessLatency.Text.Plain

/-!
# Command lines

A command line is read argument by argument against a list of parameters. Some parameters have
names: a long one behind two dashes, and perhaps a short one behind one dash; short names may be run
together. A named parameter takes a value, which is attached to its name or is the next argument, or
it is a switch, or it asks for a text instead of a run. All other arguments are values of the
parameters without names, in their order. Behind two dashes on their own, all arguments are such
values.

A value that is the next argument waits until the argument behind it is understood. Only then is it
stored: so an argument that is not understood is reported before a value in front of it that is
wrong, and a wrong value before anything that is wrong further on. A parameter is given at most
once.

`CommandLine.Spec.read` reads a whole command line; the values are whatever the parameters store.
-/

set_option autoImplicit false

namespace AccessLatency

namespace CommandLine

/-- Why the value of a parameter is refused. -/
inductive ValueFault where
  | absent
  | notAChoice
  | invalid (why : String)
  deriving DecidableEq, Repr

/-- Why a command line is rejected. Parameters stand here as they are shown to the user. -/
inductive Rejection where
  | unknownArgument (argument : String)
  | repeatedParameter (parameter : String)
  | absentValue (parameter : String)
  | badChoice (value parameter : String)
  | unneededValue (value parameter : String)
  | invalidValue (value parameter why : String)
  | absentParameters (parameters : List String)
  deriving DecidableEq, Repr

/-- The wording of a rejection for a medium. What the user gave stands in it as plain text. -/
def Rejection.message (medium : Text.Medium) : Rejection → String
  | .unknownArgument argument =>
    "error: unexpected argument '" ++ Text.plain medium argument ++ "' found"
  | .repeatedParameter parameter =>
    "error: the argument '" ++ parameter ++ "' cannot be used multiple times"
  | .absentValue parameter =>
    "error: a value is required for '" ++ parameter ++ "' but none was supplied"
  | .badChoice value parameter =>
    "error: invalid value '" ++ Text.plain medium value ++ "' for '" ++ parameter ++ "'"
  | .unneededValue value parameter =>
    "error: unexpected value '" ++ Text.plain medium value ++ "' for '" ++ parameter
      ++ "' found; no more were expected"
  | .invalidValue value parameter why =>
    "error: invalid value '" ++ Text.plain medium value ++ "' for '" ++ parameter ++ "': "
      ++ why
  | .absentParameters _ => "error: the following required arguments were not provided:"

/-- What a command is called in its own texts: by the name that the path of its program ends in, or
by its standard name if there is none. -/
def calledName (standard program : String) : String :=
  match Path.fileName? program.toList with
  | some name => Text.plain .message (String.ofList name)
  | none => standard

/-- The name that a command is called by in a whole command line, whose first item is the path of
the program, and the arguments. -/
def splitCall (standard : String) : List String → String × List String
  | [] => (standard, [])
  | program :: arguments => (calledName standard program, arguments)

/-- Lines as a text, each with its end. -/
def textOfLines (lines : List String) : String := String.join (lines.map fun line => line ++ "\n")

/-- A text that is asked for instead of a run. -/
inductive Answer where
  | help (text : String)
  | version (text : String)
  deriving DecidableEq, Repr

/-- The text of an answer. -/
def Answer.text : Answer → String
  | .help text => text
  | .version text => text

/-- Why a command line does not lead to a run. -/
inductive Stop where
  | rejected (why : Rejection)
  | answered (answer : Answer)
  deriving DecidableEq, Repr

/-- What a parameter is for: it stores a value, or it is a switch, or it asks for a text, which may
depend on whether its short or its long name is used. -/
inductive Role (σ : Type) where
  | value (store : String → σ → Except ValueFault σ)
  | switch (set : σ → σ)
  | answer (short long : Answer)

/-- A parameter as it is shown to the user, and what it is for. -/
structure Parameter (σ : Type) where
  shown : String
  role : Role σ

/-- A parameter with names. -/
structure Named (σ : Type) where
  parameter : Parameter σ
  long : String
  short : Option Char

/-- The parameters of a command; `required` lists those that have to be given. -/
structure Spec (σ : Type) where
  named : List (Named σ)
  unnamed : List (Parameter σ)
  required : List String

variable {σ : Type}

/-- A parameter whose value is waited for, or waits to be stored. -/
structure Pending (σ : Type) where
  parameter : Parameter σ
  value : Option String

/-- How far the reading has come: the values stored and the parameters they belong to, the parameter
under way, the parameters without names still to come, and whether all arguments are such values. -/
structure Progress (σ : Type) where
  values : σ
  given : List String
  pending : Option (Pending σ)
  unnamed : List (Parameter σ)
  onlyValues : Bool

/-- End with a rejection. -/
def reject {α : Type} (why : Rejection) : Except Stop α := .error (.rejected why)

/-- The parameter counts as given, unless it has been given before. -/
def markGiven (p : Progress σ) (parameter : Parameter σ) : Except Stop (Progress σ) :=
  if parameter.shown ∈ p.given then reject (.repeatedParameter parameter.shown)
  else .ok { p with given := parameter.shown :: p.given }

/-- Store a value of a parameter. -/
def storeValue (p : Progress σ) (parameter : Parameter σ) (value : String) :
    Except Stop (Progress σ) :=
  match markGiven p parameter with
  | .error stop => .error stop
  | .ok p =>
    match parameter.role with
    | .value store =>
      match store value p.values with
      | .ok values => .ok { p with values }
      | .error .absent => reject (.absentValue parameter.shown)
      | .error .notAChoice => reject (.badChoice value parameter.shown)
      | .error (.invalid why) => reject (.invalidValue value parameter.shown why)
    | _ => .ok p

/-- Finish the parameter under way. -/
def settle (p : Progress σ) : Except Stop (Progress σ) :=
  match p.pending with
  | none => .ok p
  | some ⟨parameter, none⟩ => reject (.absentValue parameter.shown)
  | some ⟨parameter, some value⟩ => storeValue { p with pending := none } parameter value

/-- Act on the name of a parameter that takes no value. -/
def useName (p : Progress σ) (parameter : Parameter σ) (isLong : Bool) : Except Stop (Progress σ) :=
  match settle p with
  | .error stop => .error stop
  | .ok p =>
    match parameter.role with
    | .switch set =>
      match markGiven p parameter with
      | .error stop => .error stop
      | .ok p => .ok { p with values := set p.values }
    | .answer short long => .error (.answered (if isLong then long else short))
    | .value _ => .ok p

/-- Act on the name of a parameter that takes a value, with the value attached to it, if any. -/
def startValue (p : Progress σ) (parameter : Parameter σ) (attached : Option String) :
    Except Stop (Progress σ) :=
  match settle p with
  | .error stop => .error stop
  | .ok p =>
    match attached with
    | some value => storeValue p parameter value
    | none => .ok { p with pending := some ⟨parameter, none⟩ }

/-- Whether a parameter takes a value. -/
def takesValue (parameter : Parameter σ) : Bool :=
  match parameter.role with
  | .value _ => true
  | _ => false

/-- Whether a character is not the sign between a name and its value. -/
def isNameChar (c : Char) : Bool := c != '='

/-- The name in front of an attached value, and the value. -/
def splitAttached (s : List Char) : String × Option String :=
  (String.ofList (s.takeWhile isNameChar),
    match s.dropWhile isNameChar with
    | _ :: value => some (String.ofList value)
    | [] => none)

/-- An argument behind two dashes. -/
def readLong (spec : Spec σ) (p : Progress σ) (body : List Char) : Except Stop (Progress σ) :=
  match splitAttached body with
  | (name, attached) =>
    match spec.named.find? fun n => n.long == name with
    | none => reject (.unknownArgument ("--" ++ name))
    | some n =>
      if takesValue n.parameter then startValue p n.parameter attached
      else
        match attached with
        | some value => reject (.unneededValue value n.parameter.shown)
        | none => useName p n.parameter true

/-- The value attached to a short name; a sign between them is no part of it. -/
def attachedToShort : List Char → Option String
  | [] => none
  | '=' :: value => some (String.ofList value)
  | value => some (String.ofList value)

/-- Short names run together behind one dash. -/
def readShort (spec : Spec σ) (p : Progress σ) : List Char → Except Stop (Progress σ)
  | [] => .ok p
  | c :: rest =>
    match spec.named.find? fun n => n.short == some c with
    | none => reject (.unknownArgument (String.ofList ['-', c]))
    | some n =>
      if takesValue n.parameter then startValue p n.parameter (attachedToShort rest)
      else
        match useName p n.parameter false with
        | .error stop => .error stop
        | .ok p => readShort spec p rest

/-- An argument that is the value of the next parameter without a name. -/
def readUnnamed (p : Progress σ) (argument : String) : Except Stop (Progress σ) :=
  match p.unnamed with
  | [] => reject (.unknownArgument argument)
  | parameter :: rest =>
    match settle p with
    | .error stop => .error stop
    | .ok p => .ok { p with pending := some ⟨parameter, some argument⟩, unnamed := rest }

/-- An argument that is a value. -/
def readValue (p : Progress σ) (argument : String) : Except Stop (Progress σ) :=
  match p.pending with
  | some ⟨parameter, none⟩ => .ok { p with pending := some ⟨parameter, some argument⟩ }
  | _ => readUnnamed p argument

/-- Read an argument. -/
def readArgument (spec : Spec σ) (p : Progress σ) (argument : String) : Except Stop (Progress σ) :=
  if p.onlyValues then readUnnamed p argument
  else
    match argument.toList with
    | ['-', '-'] => .ok { p with onlyValues := true }
    | '-' :: '-' :: body => readLong spec p body
    | ['-'] => readValue p argument
    | '-' :: names => readShort spec p names
    | _ => readValue p argument

/-- Read a command line, given the values that hold without it. -/
def Spec.read (spec : Spec σ) (values : σ) (arguments : List String) : Except Stop σ :=
  match arguments.foldlM (readArgument spec) ⟨values, [], none, spec.unnamed, false⟩ with
  | .error stop => .error stop
  | .ok p =>
    match settle p with
    | .error stop => .error stop
    | .ok p =>
      match spec.required.filter fun shown => !p.given.contains shown with
      | [] => .ok p.values
      | absent => reject (.absentParameters absent)

end CommandLine

end AccessLatency
