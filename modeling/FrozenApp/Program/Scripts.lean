import FrozenApp.Program.Bootstrap
/-!
# Running scripts

The scripts of a package run one after the other in the module `__main__`, each
with its file and its code as attributes of that module. A script that ends with
an exception ends the program.
-/

namespace FrozenApp.Program

open Interpreter Package

/-- The module that scripts run in. -/
def mainModule : String := "__main__"

/-- The attribute that holds the file of the running script. -/
def fileAttribute : String := "__file__"

/-- The attribute that holds the code of the running script. -/
def codeAttribute : String := "_pyi_main_co"

/-- The exit code after an exception that no script catches. -/
def unhandledExitCode : Int := 1

/-- Why scripts cannot be run. -/
inductive ScriptError where
  | noMain
  | noMainDict
  | extract (name : String) (e : ExtractError)
  | pathNul (e : InteriorNul)
  | tooLarge (name : String)
  | notUnmarshalled (name : String)
  deriving Repr, DecidableEq

/-- What happened, then its causes. -/
def ScriptError.chain : ScriptError → List String
  | .noMain => ["could not get __main__ module"]
  | .noMainDict => ["could not get __main__ module's dict"]
  | .extract name e => s!"failed to extract script {name} from archive" :: e.chain
  | .pathNul e => e.chain
  | .tooLarge name => [s!"script {name} is too large", outOfRange]
  | .notUnmarshalled name => [s!"failed to unmarshal code object for {name}"]

/-- The file that a script is said to come from. -/
def scriptFile (home : Path) (name : String) : Path :=
  home.join (.ofString (name ++ ".py"))

/-- Make the file of a script known to it, if the interpreter can make a string
of it. -/
def publishFile (lib : Library) (main : ObjectId) (raw : Bytes) : StateM Trace Unit := do
  match ← lib.ask (.unicodeFromString raw) with
  | none => return
  | some file =>
    let _ ← lib.ask (.setAttr main fileAttribute file)
    lib.ask (.decRef file)

/-- Run one script in a module with the given dictionary: has it ended without an
exception? -/
def runScript (files : FileTree) (lib : Library) (archive : Archive) (home : Path)
    (main dict : ObjectId) (entry : Entry) : Act ScriptError Bool := do
  match archive.extract files entry with
  | .error e => throw (.extract entry.name e)
  | .ok data =>
    let file := scriptFile home entry.name
    match terminated (Bytes.ofString file.display) with
    | .error e => throw (.pathNul e)
    | .ok raw =>
      match signedLength? data with
      | none => throw (.tooLarge entry.name)
      | some _ =>
        debug s!"running {file.display}"
        publishFile lib main raw
        match ← lib.ask (.unmarshal data) with
        | none =>
          lib.ask .errPrint
          throw (.notUnmarshalled entry.name)
        | some code =>
          let _ ← lib.ask (.setAttr main codeAttribute code)
          let result? ← lib.ask (.evalCode code dict dict)
          lib.ask (.decRef code)
          match result? with
          | none =>
            lib.ask .errPrint
            logError s!"failed to execute script '{entry.name}' due to unhandled exception"
            return false
          | some result =>
            lib.ask (.decRef result)
            return true

/-- Run scripts up to the first one that ends with an exception: the exit code. -/
def runEach (run : Entry → Act ScriptError Bool) : List Entry → Act ScriptError Int
  | [] => return 0
  | e :: rest => do
    if ← run e then runEach run rest else return unhandledExitCode

/-- Run the scripts of a package: the exit code. -/
def runScripts (files : FileTree) (lib : Library) (archive : Archive) (home : Path) :
    Act ScriptError Int := do
  match ← lib.ask (.addModule mainModule) with
  | none => throw .noMain
  | some main =>
    match ← lib.ask (.moduleGetDict main) with
    | none => throw .noMainDict
    | some dict =>
      runEach (runScript files lib archive home main dict) (archive.entriesOf .script)

end FrozenApp.Program
