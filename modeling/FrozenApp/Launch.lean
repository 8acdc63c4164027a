import FrozenApp.Host
import FrozenApp.Program.Scripts
import FrozenApp.Startup.Lifecycle
/-!
# Launching a program

A launch picks the configuration layout for the interpreter that the package
names, loads the interpreter's library, starts the interpreter, prepares it, runs
the scripts, finalizes it and lets go of the library, whatever fails on the way.
-/

namespace FrozenApp

open Interpreter Package Startup

/-- Why a program is not run to its end. -/
inductive LaunchError where
  /-- The package holds files that would have to be unpacked. -/
  | onefile (archive : Path)
  | noLayout (e : Config.SelectError)
  /-- No candidate for the library can be bound; this is what failed with the
  first one. -/
  | noLibrary (first? : Option BindError)
  | start (e : StartError)
  | bootstrap (e : Program.BootstrapError)
  | scripts (e : Program.ScriptError)
  deriving Repr, DecidableEq

/-- What happened, then its causes. -/
def LaunchError.chain : LaunchError → List String
  | .onefile archive =>
    [s!"{archive.display} holds files that must be unpacked before start-up; onefile archives are not supported"]
  | .noLayout e => ["python runtime recorded in the archive", e.message]
  | .noLibrary none => ["archive names no python library"]
  | .noLibrary (some e) => [e.message]
  | .start e => e.chain
  | .bootstrap e => e.chain
  | .scripts e => e.chain

/-- Load the first candidate for a library that can be bound. Where there is
none, the failure of the first candidate is given. -/
def loadFirst (loader : Loader) (version : Version) :
    List Path → StateM Trace (Except (Option BindError) Library)
  | [] => return .error none
  | path :: rest => do
    match ← loader.load path version with
    | .ok library => return .ok library
    | .error e =>
      debug e.message
      match ← loadFirst loader version rest with
      | .ok library => return .ok library
      | .error _ => return .error (some e)

namespace Host

/-- Where the interpreter's library is looked for. -/
def libraryPaths (host : Host) (version : Version) : List Path :=
  (candidateNames host.archive.cookie.libraryName version).map
    fun name => host.home.join (.ofString name)

/-- What the interpreter is started with. -/
def settings (host : Host) (version : Version) (environment? : String → Option Bytes) :
    Settings where
  programName := host.executable
  home := host.home
  searchPaths := defaultSearchPaths host.home version
  argv := host.argv
  options := host.options.interpreter
  freeThreaded := host.options.launch.freeThreaded
  cLocale := isCLocale environment?

/-- Prepare the interpreter and run the scripts: the exit code. -/
def program (host : Host) (files : FileTree) (library : Library) : Act LaunchError Int := do
  (Program.bootstrap files library host.archive host.home).adapt LaunchError.bootstrap
  (Program.runScripts files library host.archive host.home).adapt LaunchError.scripts

/-- Start the interpreter and run the program: the exit code. -/
def runProgram (host : Host) (files : FileTree) (library : Library) (s : Settings) :
    ExceptT LaunchError (StateT Lifecycle (StateM Trace)) Int := do
  (Lifecycle.start s).adapt LaunchError.start
  ExceptT.mk (liftM (host.program files library).run)

/-- Run the program in the interpreter of a library: the exit code. The
interpreter is finalized in the end, and no record stays behind. -/
def runInterpreter (host : Host) (files : FileTree) (library : Library) (s : Settings) :
    StateM Trace (Except LaunchError Int) := do
  let body : StateT Lifecycle (StateM Trace) (Except LaunchError Int) := do
    let outcome ← (host.runProgram files library s).run
    Lifecycle.finalize
    Lifecycle.releaseConfig
    return outcome
  body.run' (Lifecycle.new library)

/-- Choose the layout for the interpreter that the package names. -/
def selectLayout (host : Host) : Except LaunchError Config.Layout :=
  if host.archive.isOnefile then .error (.onefile host.archive.path)
  else
    let version : Version := ⟨host.archive.cookie.version⟩
    match Config.Layout.select version host.options.launch.freeThreaded with
    | .error e => .error (.noLayout e)
    | .ok layout => .ok layout

/-- Run the program of a package: the exit code, and the host afterwards. -/
def execute (host : Host) (files : FileTree) (loader : Loader)
    (environment? : String → Option Bytes) : StateM Trace (Except LaunchError Int × Host) := do
  match host.selectLayout with
  | .error e => return (.error e, host)
  | .ok layout =>
    let version : Version := ⟨host.archive.cookie.version⟩
    debug s!"python {version.display}, layout {layout.display}"
    match ← loadFirst loader version (host.libraryPaths version) with
    | .error first? => return (.error (.noLibrary first?), host)
    | .ok library =>
      let host ← host.attach library
      let outcome ← host.runInterpreter files library (host.settings version environment?)
      let host ← host.unload
      match outcome with
      | .ok 0 => debug "program finished"
      | .ok code => debug s!"program finished with exit code {code}"
      | .error _ => pure ()
      return (outcome, host)

end Host

end FrozenApp
