import FrozenApp.Config.Layout
import FrozenApp.Interpreter.Library
import FrozenApp.Interpreter.Terminated
/-!
# Setting members of the configuration record

Strings and lists are set by the interpreter itself, which applies its own rules
of encoding. Lists are decoded string by string first; whatever happens then,
the decoded strings are given back.
-/

namespace FrozenApp.Startup

open Config (Block)
open Interpreter

/-- A program over a block of memory that acts and may fail. What it has written
up to there stays written. -/
abbrev BlockM (size : Nat) (ε : Type) := ExceptT ε (StateT (Block size) (StateM Trace))

/-- The text of an outcome, in the interpreter's words where it gives any. -/
def statusMessage (status : Status) : String :=
  match status.function.map Utf8.lossy, status.message.map Utf8.lossy with
  | some function, some message => s!"{function}: {message}"
  | none, some message => message
  | some function, none => s!"{function}: error"
  | none, none => s!"exit code {status.exitCode.toInt}"

/-- Why a step of start-up fails. -/
inductive StepError where
  /-- The interpreter reports an exception. -/
  | refused (step : String) (status : Status)
  | nul (step : String) (e : InteriorNul)
  /-- The interpreter cannot decode a string. -/
  | undecodable (step : String) (value : Bytes)
  deriving Repr, DecidableEq

/-- What happened, then its causes. -/
def StepError.chain : StepError → List String
  | .refused step status => [s!"{step} failed: {statusMessage status}"]
  | .nul step e => step :: e.chain
  | .undecodable step value =>
    [step, s!"failed to decode {Text.quoteBytes value} with the runtime locale"]

/-- Fail if the interpreter takes an outcome for an exception. -/
def checkStatus (lib : Library) (status : Status) (step : String) : Act StepError Unit := do
  if ← lib.ask (.statusException status) then throw (.refused step status)

variable {size : Nat}

/-- Call a setter, which gives the outcome and the block as it leaves it. -/
def callSetter (lib : Library) (step : String)
    (setter : Block size → StateM Trace (Status × Block size)) : BlockM size StepError Unit := do
  let (status, block) ← setter (← get)
  set block
  if ← lib.ask (.statusException status) then throw (.refused step status)

/-- Set a member that is a string. -/
def setString (lib : Library) (offset : Nat) (value : Bytes) (step : String) :
    BlockM size StepError Unit := do
  match terminated value with
  | .error e => throw (.nul step e)
  | .ok value => callSetter lib step fun block => lib.ask (.configSetBytesString block offset value)

/-- Set a member that is a string from wide characters, as far as their first
NUL. -/
def setWideString (lib : Library) (offset : Nat) (value : Bytes) (step : String) :
    BlockM size StepError Unit :=
  callSetter lib step fun block => lib.ask (.configSetString block offset value.cutAtNul)

/-- Decode strings in order, up to the first one that cannot be decoded. What has
been decoded comes back in either case. -/
def decodeAll (lib : Library) (step : String) :
    List Bytes → StateM Trace (List WideString × Option StepError)
  | [] => return ([], none)
  | value :: rest => do
    match terminated value with
    | .error e => return ([], some (.nul step e))
    | .ok raw =>
      match ← lib.ask (.decodeLocale raw) with
      | none => return ([], some (.undecodable step value))
      | some address =>
        let (strings, failure) ← decodeAll lib step rest
        return (⟨address, raw⟩ :: strings, failure)

/-- Give decoded strings back, in order. -/
def freeAll (lib : Library) : List WideString → StateM Trace Unit
  | [] => return
  | s :: rest => do
    lib.ask (.rawFree s.address)
    freeAll lib rest

/-- Run a program and then another one, whether the first one fails or not. -/
def BlockM.andAlways {ε : Type} (program : BlockM size ε Unit) (after : StateM Trace Unit) :
    BlockM size ε Unit :=
  ExceptT.mk do
    let outcome ← program.run
    after
    return outcome

/-- Set a member that is a list of decoded strings. -/
def setDecoded (lib : Library) (offset : Nat) (strings : List WideString) (step : String) :
    BlockM size StepError Unit :=
  callSetter lib step fun block => lib.ask (.configSetWideStringList block offset strings)

/-- Set a member that is a list of strings. -/
def setStringList (lib : Library) (offset : Nat) (values : List Bytes) (step : String) :
    BlockM size StepError Unit := do
  let (strings, failure) ← decodeAll lib step values
  let setting : BlockM size StepError Unit := match failure with
    | some e => throw e
    | none => setDecoded lib offset strings step
  setting.andAlways (freeAll lib strings)

/-- Write a member that is an `int`. -/
def setInt (offset : Nat) (value : Int32) : BlockM size StepError Unit :=
  modify (Block.setInt · offset value)

/-- Write a member that is an `unsigned long`. -/
def setUnsignedLong (offset : Nat) (value : UInt64) : BlockM size StepError Unit :=
  modify (Block.setUnsignedLong · offset value)

end FrozenApp.Startup
