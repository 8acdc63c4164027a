import FrozenApp.Startup.Setters
import FrozenApp.Startup.Settings
/-!
# The life of an interpreter

An interpreter is started once and finalized once. Its states follow each other
in one direction. The configuration record is held only while the interpreter is
started: however the start ends, the record is given back.
-/

namespace FrozenApp.Startup

open Config (Block Layout Member)
open Interpreter

/-- How far an interpreter has come. -/
inductive State where
  | uninitialized | preInitialized | configAllocated | configPopulated | running | finalized
  deriving Repr, DecidableEq

/-- The word for a state. -/
def State.display : State → String
  | uninitialized => "Uninitialized"
  | preInitialized => "PreInitialized"
  | configAllocated => "ConfigAllocated"
  | configPopulated => "ConfigPopulated"
  | running => "Running"
  | finalized => "Finalized"

/-- A configuration record. -/
structure Record where
  layout : Layout
  block : Block layout.size

/-- An interpreter and what is held for it. -/
structure Lifecycle where
  library : Library
  state : State
  record? : Option Record

/-- An interpreter that nothing has been done to. -/
def Lifecycle.new (library : Library) : Lifecycle :=
  { library, state := .uninitialized, record? := none }

/-- A program over an interpreter's life that acts and may fail. -/
abbrev LifeM (ε : Type) := ExceptT ε (StateT Lifecycle (StateM Trace))

/-- Why an interpreter is not started. -/
inductive StartError where
  /-- It has been started before. -/
  | wrongState (state : State)
  | noLayout (e : Config.SelectError)
  /-- No record is held where one is needed. -/
  | notAllocated
  | step (e : StepError)
  /-- The interpreter reports an exception as it starts. -/
  | failed (status : Status)
  deriving Repr, DecidableEq

/-- What happened, then its causes. -/
def StartError.chain : StartError → List String
  | .wrongState state => [s!"interpreter start requested in state {state.display}"]
  | .noLayout e => ["select python configuration layout", e.message]
  | .notAllocated => ["python configuration is not allocated"]
  | .step e => e.chain
  | .failed status => [s!"failed to start embedded python interpreter: {statusMessage status}"]

/-- The value of an `int` that stands for yes or no. -/
def flag (b : Bool) : Int32 := if b then 1 else 0

/-- The record for the first stage, from what the interpreter fills it with. -/
def adjustPreConfig (s : Settings) (pre : PreConfig) : PreConfig :=
  let utf8Mode := match s.options.utf8Mode with
    | some on => flag on
    | none => if s.cLocale then 1 else pre.utf8Mode
  { pre with utf8Mode, devMode := flag s.options.devMode }

/-- Write the plain members. -/
def setPlainMembers (layout : Layout) (o : InterpreterOptions) :
    BlockM layout.size StepError Unit := do
  setInt (layout.offset .siteImport) 0
  setInt (layout.offset .writeBytecode) 0
  setInt (layout.offset .configureCStdio) 1
  setInt (layout.offset .bufferedStdio) (flag !o.unbuffered)
  setInt (layout.offset .optimizationLevel) o.optimize
  setInt (layout.offset .verbose) o.verbose
  setInt (layout.offset .installSignalHandlers) 1
  setInt (layout.offset .devMode) (flag o.devMode)
  match o.hashSeed with
  | none => pure ()
  | some seed => do
    setInt (layout.offset .useHashSeed) 1
    setUnsignedLong (layout.offset .hashSeed) seed

/-- Set the members of the record. -/
def populate (lib : Library) (layout : Layout) (s : Settings) :
    BlockM layout.size StepError Unit := do
  setString lib (layout.offset .programName) s.programName "set program name"
  setString lib (layout.offset .home) s.home "set python home"
  setStringList lib (layout.offset .moduleSearchPaths) s.searchPaths "set module search paths"
  setInt (layout.offset .moduleSearchPathsSet) 1
  setStringList lib (layout.offset .argv) s.argv "set argv"
  setPlainMembers layout s.options
  let texts := List.map Bytes.ofString
  if !s.options.warnOptions.isEmpty then
    setStringList lib (layout.offset .warnoptions) (texts s.options.warnOptions) "set warnoptions"
  if !s.options.xOptions.isEmpty then
    setStringList lib (layout.offset .xoptions) (texts s.options.xOptions) "set xoptions"

namespace Lifecycle

/-- Go on to the next state. -/
def advance {ε : Type} (next : State) : LifeM ε Unit := do
  debug s!"python lifecycle: {(← get).state.display} -> {next.display}"
  modify ({ · with state := next })

/-- Use the library. -/
def ask {ε : Type} (c : Call) : LifeM ε c.Reply := do
  (← get).library.ask c

/-- The first stage. -/
def preInitialize (s : Settings) : LifeM StartError Unit := do
  let pre ← ask .preConfigInitIsolated
  if s.options.utf8Mode.isNone && s.cLocale then
    debug "C/POSIX locale in use, enabling UTF-8 mode"
  let status ← ask (.preInitialize (adjustPreConfig s pre))
  if ← ask (.statusException status) then
    throw (.step (.refused "python pre-initialization" status))
  advance .preInitialized

/-- Allocate a record of zeros and let the interpreter fill it. -/
def allocate (s : Settings) : LifeM StartError Unit := do
  match Layout.select (← get).library.version s.freeThreaded with
  | .error e => throw (.noLayout e)
  | .ok layout =>
    let block ← ask (.configInitIsolated (Block.zero : Block layout.size))
    debug s!"allocated {layout.display} ({layout.size} bytes)"
    modify ({ · with record? := some { layout, block } })
    advance .configAllocated

/-- Set the members of the record. -/
def fillRecord (s : Settings) : LifeM StartError Unit := do
  match (← get).record? with
  | none => throw .notAllocated
  | some { layout, block } =>
    let lib := (← get).library
    let (outcome, block) ← (populate lib layout s).run block
    modify ({ · with record? := some { layout, block } })
    match outcome with
    | .error e => throw (.step e)
    | .ok _ => advance .configPopulated

/-- Start the interpreter with the record. -/
def startInterpreter : LifeM StartError Unit := do
  match (← get).record? with
  | none => throw .notAllocated
  | some { block, .. } =>
    debug "starting embedded python interpreter"
    let status ← ask (.initializeFromConfig block)
    if ← ask (.statusException status) then
      ask (.exitStatusException status)
      throw (.failed status)
    advance .running

/-- Give the record back, if one is held. -/
def releaseConfig : StateT Lifecycle (StateM Trace) Unit := do
  match (← get).record? with
  | none => pure ()
  | some { block, .. } =>
    (← get).library.ask (.configClear block)
    debug "released python configuration"
    modify ({ · with record? := none })

/-- The stages of a start. -/
def startStages (s : Settings) : LifeM StartError Unit := do
  preInitialize s
  allocate s
  fillRecord s
  startInterpreter

/-- Start the interpreter. However the stages end, no record is held behind them. -/
def start (s : Settings) : LifeM StartError Unit :=
  ExceptT.mk do
    let state := (← get).state
    if state ≠ .uninitialized then return .error (.wrongState state)
    let outcome ← (startStages s).run
    releaseConfig
    match outcome with
    | .ok _ => pure ()
    | .error _ => debug s!"python start-up stopped in state {(← get).state.display}"
    return outcome

/-- The command that empties the output buffer of the interpreter. -/
def flushCommand (stream : String) : String :=
  s!"import sys; sys.{stream}.flush(); " ++
    s!"(sys.__{stream}__.flush if sys.__{stream}__ is not sys.{stream} else (lambda: None))()"

/-- Finalize the interpreter, if it is running. -/
def finalize : StateT Lifecycle (StateM Trace) Unit := do
  let life ← get
  if life.state ≠ .running then
    debug s!"skipping python finalization in state {life.state.display}"
  else do
    if ← life.library.ask .isInitialized then do
      debug "flushing python stdout and stderr"
      let _ ← life.library.ask (.runSimpleString (flushCommand "stdout"))
      let _ ← life.library.ask (.runSimpleString (flushCommand "stderr"))
      debug "finalizing python interpreter"
      life.library.ask .finalize
    else
      debug "python reports itself uninitialized; skipping finalization"
    debug s!"python lifecycle: {life.state.display} -> {State.finalized.display}"
    set { life with state := State.finalized }

end Lifecycle

end FrozenApp.Startup
