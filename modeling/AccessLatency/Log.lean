/-!
# Log records and outcomes

What a step of a program does, besides its result, is to leave records in the log. An `Outcome`
holds both: the records, oldest first, and the result or the fault that ended the step. A fault ends
a sequence of steps and keeps the records made before it.
-/

set_option autoImplicit false

namespace AccessLatency

/-- How serious a log record is, the most serious first. -/
inductive LogLevel where
  | error
  | warn
  | info
  | debug
  deriving DecidableEq, Repr

/-- The name of a level. -/
def LogLevel.name : LogLevel → String
  | .error => "error"
  | .warn => "warn"
  | .info => "info"
  | .debug => "debug"

/-- The place of a level among the levels: more serious ones come first. -/
def LogLevel.rank : LogLevel → Nat
  | .error => 1
  | .warn => 2
  | .info => 3
  | .debug => 4

/-- A line of the log. -/
structure LogRecord where
  level : LogLevel
  message : String
  deriving DecidableEq, Repr

/-- The result of a step, together with the records it left in the log. -/
structure Outcome (ε α : Type) where
  log : List LogRecord
  result : Except ε α

namespace Outcome

variable {ε ε' α β : Type}

/-- A step that succeeds without a record. -/
def ok (a : α) : Outcome ε α := ⟨[], .ok a⟩

/-- A step that fails without a record. -/
def fail (e : ε) : Outcome ε α := ⟨[], .error e⟩

/-- A step that leaves no record. -/
def ofExcept (r : Except ε α) : Outcome ε α := ⟨[], r⟩

/-- A step that leaves one record. -/
def record (level : LogLevel) (message : String) : Outcome ε Unit := ⟨[⟨level, message⟩], .ok ()⟩

/-- A step that leaves one record if a condition holds. -/
def recordIf (condition : Bool) (level : LogLevel) (message : String) : Outcome ε Unit :=
  if condition then record level message else ok ()

/-- One step and, if it succeeds, the next; the records of both are kept in order. -/
def bind (o : Outcome ε α) (next : α → Outcome ε β) : Outcome ε β :=
  match o.result with
  | .error e => ⟨o.log, .error e⟩
  | .ok a => ⟨o.log ++ (next a).log, (next a).result⟩

instance : Monad (Outcome ε) where
  pure := ok
  bind := bind

/-- The same step with its fault seen as one of another kind. -/
def mapError (f : ε → ε') (o : Outcome ε α) : Outcome ε' α :=
  ⟨o.log, match o.result with
    | .error e => .error (f e)
    | .ok a => .ok a⟩

/-- A computation that fails has only the log that it has made so far. -/
@[simp] theorem log_bind_error {o : Outcome ε α} {e : ε} {next : α → Outcome ε β}
    (h : o.result = .error e) : (o.bind next).log = o.log := by simp [bind, h]

/-- A computation that fails does not go on. -/
@[simp] theorem result_bind_error {o : Outcome ε α} {e : ε} {next : α → Outcome ε β}
    (h : o.result = .error e) : (o.bind next).result = .error e := by simp [bind, h]

/-- A computation that goes on adds to the log behind what is there. -/
@[simp] theorem log_bind_ok {o : Outcome ε α} {a : α} {next : α → Outcome ε β}
    (h : o.result = .ok a) : (o.bind next).log = o.log ++ (next a).log := by simp [bind, h]

/-- A computation that goes on ends as what comes after it ends. -/
@[simp] theorem result_bind_ok {o : Outcome ε α} {a : α} {next : α → Outcome ε β}
    (h : o.result = .ok a) : (o.bind next).result = (next a).result := by simp [bind, h]

end Outcome

end AccessLatency
