import FrozenApp.Interpreter.Trace
/-!
# Binding the interpreter's library

A shared library is bound as a whole: either every function of `Symbol.all` is
exported and a `Library` comes out, or the library is closed again and the error
lists every name that is missing.
-/

namespace FrozenApp.Interpreter

/-- A shared library in memory: the addresses of what it exports, and what the
code at an address does when it is called, which may depend on everything that
happened before. -/
structure Image where
  address? : String → Option Nat
  run : Trace → Nat → (c : Call) → c.Reply

/-- A bound library. -/
structure Library where
  path : Path
  version : Version
  /-- The address of each function. -/
  address : Symbol → Nat
  run : Trace → Nat → (c : Call) → c.Reply

/-- Why a library cannot be used. -/
inductive BindError where
  | unopened (path : Path) (message : String)
  | missing (path : Path) (names : List String)
  deriving Repr, DecidableEq

/-- The wording of a failure. -/
def BindError.message : BindError → String
  | .unopened path message => s!"failed to load python library {path.display}: {message}"
  | .missing path names =>
    s!"python library {path.display} is missing required symbols: " ++ ", ".intercalate names

namespace Library

/-- Call a function. -/
def ask (lib : Library) (c : Call) : StateM Trace c.Reply := do
  let address := lib.address c.symbol
  let reply := lib.run (← get) address c
  emit (.called address c reply)
  return reply

/-- Bind the functions of a library that has been opened. -/
def bind (image : Image) (path : Path) (version : Version) :
    StateM Trace (Except BindError Library) := do
  match Symbol.all.filter fun s => (image.address? s.name).isNone with
  | [] =>
    debug s!"bound {Symbol.all.length} symbols from {path.display} (python {version.display})"
    let address := fun s : Symbol => (image.address? s.name).getD 0
    return .ok { path, version, address, run := image.run }
  | missing => do
    emit (.closed path)
    let names := missing.map Symbol.name
    for name in names do
      debug s!"symbol {name} not found in {path.display}"
    return .error (.missing path names)

/-- Let go of a bound library, which closes it. -/
def release (lib : Library) : StateM Trace Unit := do
  debug s!"unloading python library: {lib.path.display}"
  emit (.closed lib.path)

end Library

/-- What stands behind a path that a library is loaded from: the library, or the
reason why it cannot be opened. -/
structure Loader where
  open? : Path → Except String Image
  /-- Is each path logged before it is opened? -/
  announces : Bool

/-- Load and bind a library. -/
def Loader.load (loader : Loader) (path : Path) (version : Version) :
    StateM Trace (Except BindError Library) := do
  emit (.tried path version)
  if loader.announces then debug s!"loading python library: {path.display}"
  match loader.open? path with
  | .error message => return .error (.unopened path message)
  | .ok image => Library.bind image path version

/-- The file names under which a library is looked for. An archive member of the
same version stands in for a static library. -/
def candidateNames (libraryName : String) (version : Version) : List String :=
  let release := version.display
  if libraryName.endsWith ".a" then
    [libraryName, s!"libpython{release}.a(libpython{release}.so)"]
  else [libraryName]

end FrozenApp.Interpreter
