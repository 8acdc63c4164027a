import FrozenApp.Config.Version
import FrozenApp.Interpreter.Call
import FrozenApp.Path
/-!
# What a launch does

A launch leaves a trace: the lines it logs, the libraries it tries and closes,
and the calls into the interpreter with their replies, in order. `Act` is a
program that adds to the trace and may fail; what it has done up to there stays
in the trace.
-/

namespace FrozenApp.Interpreter

/-- How important a line of the log is. -/
inductive Level where
  | error | warn | info | debug
  deriving Repr, DecidableEq

/-- The word for a level. -/
def Level.display : Level → String
  | error => "ERROR"
  | warn => "WARN"
  | info => "INFO"
  | debug => "DEBUG"

/-- The levels, the most important one first. -/
def Level.all : List Level := [error, warn, info, debug]

/-- Something that a launch does. -/
inductive Event where
  /-- A line of the log. -/
  | log (level : Level) (message : String)
  /-- The loader is asked for a library of a version. -/
  | tried (path : Path) (version : Version)
  /-- A library is closed. -/
  | closed (path : Path)
  /-- A call to the function at an address, with what it gives back. -/
  | called (address : Nat) (call : Call) (reply : call.Reply)

/-- What has been done so far, the latest last. -/
abbrev Trace := List Event

/-- A program that acts and may fail. -/
abbrev Act (ε : Type) := ExceptT ε (StateM Trace)

/-- Add an event. -/
def emit (e : Event) : StateM Trace Unit :=
  modify (· ++ [e])

/-- Log a line for those who look for the cause of a problem. -/
def debug (message : String) : StateM Trace Unit :=
  emit (.log .debug message)

/-- Log a line about a failure. -/
def logError (message : String) : StateM Trace Unit :=
  emit (.log .error message)

/-- The lines of the log. -/
def Trace.logs (t : Trace) : List (Level × String) :=
  t.filterMap fun
    | .log level message => some (level, message)
    | _ => none

/-- The libraries that were tried. -/
def Trace.attempts (t : Trace) : List (Path × Version) :=
  t.filterMap fun
    | .tried path version => some (path, version)
    | _ => none

/-- The libraries that were closed. -/
def Trace.closings (t : Trace) : List Path :=
  t.filterMap fun
    | .closed path => some path
    | _ => none

end FrozenApp.Interpreter
