import RecordQuery.Text.Blank
import RecordQuery.Text.Case
import RecordQuery.Value

/-!
# Log entries

What cannot be done is reported, not refused: a computation gives its value and the entries that it
logged on the way (`Logged`). A `Console` shows the entries up to its level; who wants all of them
keeps the list.
-/

namespace RecordQuery

/-- The weight of an entry, from the gravest to the most talkative. -/
inductive LogLevel where
  | error
  | warn
  | info
  | trace
  deriving DecidableEq, Repr

namespace LogLevel

/-- How talkative a level is. -/
def rank : LogLevel → Nat
  | error => 0
  | warn => 1
  | info => 2
  | trace => 3

/-- The name of a level. -/
def name : LogLevel → String
  | error => "error"
  | warn => "warn"
  | info => "info"
  | trace => "trace"

/-- The level that a setting asks for, case and blanks at its ends aside. A setting that names none
asks for errors only. -/
def ofSetting (setting : Option String) : LogLevel :=
  let s := (Text.lower (.ofList (Text.trim (setting.getD "").toList))).toList
  if "warn".toList.isPrefixOf s then warn
  else if "info".toList.isPrefixOf s then info
  else if s = "trace".toList then trace
  else error

end LogLevel

/-- A message with the values that it is about. -/
structure LogEntry where
  level : LogLevel
  message : String
  details : List Value

namespace LogEntry

/-- An entry at the level of errors. -/
def error (message : String) (details : List Value) : LogEntry :=
  ⟨.error, message, details⟩

/-- An entry at the level of warnings. -/
def warn (message : String) (details : List Value) : LogEntry :=
  ⟨.warn, message, details⟩

/-- The messages of the errors, in order. -/
def errors (entries : List LogEntry) : List String :=
  (entries.filter fun e => e.level = .error).map (·.message)

theorem errors_append (es fs : List LogEntry) : errors (es ++ fs) = errors es ++ errors fs := by
  simp [errors]

end LogEntry

/-! ## Logged computations -/

/-- A value with the entries that were logged on the way to it, oldest first. -/
structure Logged (α : Type) where
  value : α
  log : List LogEntry

namespace Logged

variable {α β : Type}

/-- A value that nothing was logged for. -/
def quiet (a : α) : Logged α :=
  ⟨a, []⟩

/-- A value for which one entry was logged. -/
def noting (entry : LogEntry) (a : α) : Logged α :=
  ⟨a, [entry]⟩

/-- What follows a value logs after it. -/
def bind (x : Logged α) (f : α → Logged β) : Logged β :=
  ⟨(f x.value).value, x.log ++ (f x.value).log⟩

/-- Changes the value only. -/
def map (f : α → β) (x : Logged α) : Logged β :=
  ⟨f x.value, x.log⟩

@[simp] theorem value_quiet (a : α) : (quiet a).value = a := rfl

@[simp] theorem log_quiet (a : α) : (quiet a).log = [] := rfl

@[simp] theorem value_noting (e : LogEntry) (a : α) : (noting e a).value = a := rfl

@[simp] theorem log_noting (e : LogEntry) (a : α) : (noting e a).log = [e] := rfl

@[simp] theorem value_bind (x : Logged α) (f : α → Logged β) :
    (x.bind f).value = (f x.value).value := rfl

@[simp] theorem log_bind (x : Logged α) (f : α → Logged β) :
    (x.bind f).log = x.log ++ (f x.value).log := rfl

@[simp] theorem value_map (f : α → β) (x : Logged α) : (x.map f).value = f x.value := rfl

@[simp] theorem log_map (f : α → β) (x : Logged α) : (x.map f).log = x.log := rfl

end Logged

/-! ## The console -/

/-- Shows entries up to a level, with a label before each message. -/
structure Console where
  level : LogLevel := .error
  label : String := "[qualifiers]"

/-- A line that a console shows: the channel that it goes to, its text, and the values with it. -/
structure ConsoleLine where
  channel : String
  text : String
  details : List Value

namespace Console

/-- The console that is used where none is given: it shows errors only. -/
def standard : Console := {}

/-- The channel for a level. -/
def channel : LogLevel → String
  | .error => "error"
  | .warn => "warn"
  | .info => "info"
  | .trace => "debug"

/-- The line for an entry; there is none if the entry is more talkative than the console. -/
def line? (c : Console) (e : LogEntry) : Option ConsoleLine :=
  if e.level.rank ≤ c.level.rank then
    some ⟨channel e.level, c.label ++ " " ++ e.message, e.details⟩
  else none

end Console

end RecordQuery
