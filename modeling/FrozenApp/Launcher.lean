import FrozenApp.Launch
import FrozenApp.Text.Blank
/-!
# The launcher

The launcher runs the program of its own executable. What it logs goes to the
error output, warnings and errors only unless a variable of the environment asks
for more. A launch that fails ends with an exit code of its own.
-/

namespace FrozenApp.Launcher

open Interpreter

/-- The variable that asks for more lines of the log. -/
def debugVariable : String := "PYBOOT_DEBUG"

/-- The values that switch the variable on. -/
def onValues : List String := ["1", "true", "TRUE", "yes", "YES"]

/-- The values that switch the variable off. -/
def offValues : List String := ["0", "false", "FALSE", "no", "NO"]

/-- The variable has a value that says neither. -/
structure BadDebugValue where
  value : String
  deriving Repr, DecidableEq

/-- The wording of the error. -/
def BadDebugValue.message (e : BadDebugValue) : String :=
  s!"invalid environment variable {debugVariable}={Text.quote e.value} " ++
    "(expected one of: 1, 0, true, false, yes, no)"

/-- What the variable says. Unset, and where it is no text, it is off. -/
def readDebug (value? : Option Bytes) : Except BadDebugValue Bool :=
  match value?.map Utf8.decode with
  | none | some (.error _) => .ok false
  | some (.ok value) =>
    let value := Text.trim value
    if onValues.contains value then .ok true
    else if offValues.contains value then .ok false
    else .error ⟨value⟩

/-- A line of the error output. -/
def formatLine (process level message : String) : String :=
  s!"[PYBOOT-{process}:{level}] {message}\n"

/-- The exit code of a launch that fails, and of a program whose own one is no
byte. -/
def failureCode : UInt8 := 255

/-- The exit code of the launcher for that of the program. -/
def exitStatus (code : Int) : UInt8 :=
  if 0 ≤ code ∧ code ≤ 255 then UInt8.ofNat code.toNat else failureCode

/-- The least important level that is written. -/
inductive Verbosity where
  /-- Nothing of the log is written. -/
  | silent
  | warnings
  | everything
  deriving Repr, DecidableEq

/-- Is a line of a level written? -/
def Verbosity.shows : Verbosity → Level → Bool
  | silent, _ => false
  | warnings, level => level == .error || level == .warn
  | everything, _ => true

/-- How the launcher ends. -/
structure Ending where
  code : UInt8
  /-- What is written to the error output. -/
  errorOutput : String
  /-- What has been done. -/
  trace : Trace

/-- Find and run the program of an executable. -/
def launch (files : FileTree) (executable : Path) (argv : List Bytes) (loader : Loader)
    (environment? : String → Option Bytes) : StateM Trace (Except (List String) Int) := do
  match ← (Host.ofExecutable files executable argv).run with
  | .error e => return .error e.chain
  | .ok host =>
    let (outcome, host) ← host.execute files loader environment?
    let _ ← host.unload
    return outcome.mapError LaunchError.chain

/-- Run the launcher. -/
def run (files : FileTree) (executable : Path) (argv : List Bytes) (loader : Loader)
    (environment? : String → Option Bytes) (process : String) : Ending :=
  let (verbosity, warning) := match readDebug (environment? debugVariable) with
    | .ok true => (Verbosity.everything, "")
    | .ok false => (Verbosity.warnings, "")
    | .error e => (Verbosity.silent, formatLine process "WARN" e.message)
  let (outcome, trace) := (launch files executable argv loader environment?).run []
  let written := trace.logs.filter fun (level, _) => verbosity.shows level
  let log := String.join (written.map fun (level, message) =>
    formatLine process level.display message)
  match outcome with
  | .ok code => { code := exitStatus code, errorOutput := warning ++ log, trace }
  | .error chain =>
    let last := formatLine process "ERROR" (Text.oneLine chain)
    { code := failureCode, errorOutput := warning ++ log ++ last, trace }

end FrozenApp.Launcher
