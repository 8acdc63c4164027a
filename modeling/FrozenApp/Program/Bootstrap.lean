import FrozenApp.Interpreter.Library
import FrozenApp.Interpreter.Terminated
import FrozenApp.Package.Location
/-!
# Preparing a running interpreter

A started interpreter is told where the program's home is, then the modules of
the package are run in the order of the table of contents, and then the module
collections are added to the search path in that order. The first failure ends
it. A reference to an object that the interpreter hands out as new is dropped
once, after its last use.
-/

namespace FrozenApp.Program

open Interpreter Package

/-- The attribute of `sys` that holds the home directory. -/
def homeAttribute : String := "_MEIPASS"

/-- Why an interpreter cannot be prepared. -/
inductive BootstrapError where
  | homeNul (e : InteriorNul)
  /-- The home directory cannot be made a string of the interpreter. -/
  | homeNotConverted (home : Path)
  | homeNotSet
  | extract (name : String) (e : ExtractError)
  | nameNul (e : InteriorNul)
  | moduleTooLarge (name : String)
  /-- A module cannot be run. -/
  | moduleFailed (name : String)
  | archivePathNul (e : InteriorNul)
  | locationNul (e : InteriorNul)
  | noSearchPath
  /-- A location cannot be made a string of the interpreter. -/
  | locationNotConverted (name : String)
  | locationNotAdded (name : String)
  deriving Repr, DecidableEq

/-- What happened, then its causes. -/
def BootstrapError.chain : BootstrapError → List String
  | .homeNul e => "application home directory" :: e.chain
  | .homeNotConverted home =>
    [s!"failed to convert application home directory to a python string: {home.display}"]
  | .homeNotSet => [s!"failed to set sys.{homeAttribute}"]
  | .extract name e => s!"extract bootstrap module {name}" :: e.chain
  | .nameNul e => e.chain
  | .moduleTooLarge name => [s!"bootstrap module {name} is too large", outOfRange]
  | .moduleFailed name => [s!"failed to import bootstrap module {name}"]
  | .archivePathNul e => "archive path" :: e.chain
  | .locationNul e => ["module collection location", e.cause]
  | .noSearchPath => ["sys.path is not available"]
  | .locationNotConverted name => [s!"failed to build location of module collection {name}"]
  | .locationNotAdded name => [s!"failed to append module collection {name} to sys.path"]

/-- Print and clear the interpreter's pending error, if there is one. -/
def drainError (lib : Library) : StateM Trace Bool := do
  if ← lib.ask .errOccurred then
    lib.ask .errPrint
    lib.ask .errClear
    return true
  else return false

/-- Tell the interpreter where the program's home is. -/
def publishHome (lib : Library) (home : Path) : Act BootstrapError Unit := do
  debug s!"setting sys.{homeAttribute} to {home.display}"
  match terminated home with
  | .error e => throw (.homeNul e)
  | .ok raw =>
    match ← lib.ask (.decodeFsDefault raw) with
    | none =>
      let _ ← drainError lib
      throw (.homeNotConverted home)
    | some value =>
      let set ← lib.ask (.sysSetObject homeAttribute value)
      lib.ask (.decRef value)
      if !set then
        let _ ← drainError lib
        throw .homeNotSet

/-- Run the code of a module: the module, if there is one. -/
def runModule (lib : Library) (name : String) (data : Bytes) : StateM Trace (Option ObjectId) := do
  match ← lib.ask (.unmarshal data) with
  | none =>
    logError s!"failed to unmarshal code object for module {name}"
    return none
  | some code =>
    debug s!"running unmarshalled code object for module {name}"
    let module? ← lib.ask (.execCodeModule name code)
    lib.ask (.decRef code)
    if module?.isNone then logError s!"module object for {name} is NULL"
    return module?

/-- Import one module of the package. -/
def importModule (files : FileTree) (lib : Library) (archive : Archive) (entry : Entry) :
    Act BootstrapError Unit := do
  match archive.extract files entry with
  | .error e => throw (.extract entry.name e)
  | .ok data =>
    debug s!"extracted {entry.name}"
    match terminated (Bytes.ofString entry.name) with
    | .error e => throw (.nameNul e)
    | .ok _ =>
      match signedLength? data with
      | none => throw (.moduleTooLarge entry.name)
      | some _ =>
        let module? ← runModule lib entry.name data
        let _ ← drainError lib
        match module? with
        | none => throw (.moduleFailed entry.name)
        | some module => lib.ask (.decRef module)

/-- The location of a place in the file at a path as it is handed over. -/
def collectionLocation (path : Path) (offset : Nat) : Except BootstrapError Bytes :=
  match terminated path with
  | .error e => .error (.archivePathNul e)
  | .ok path => (terminated (location path offset)).mapError .locationNul

/-- Add one collection of the package to the search path. -/
def installCollection (lib : Library) (archive : Archive) (entry : Entry) :
    Act BootstrapError Unit := do
  let offset := archive.absoluteOffset entry
  debug s!"installing module collection {entry.name} at offset {offset}"
  match collectionLocation archive.path offset with
  | .error e => throw e
  | .ok location =>
    match ← lib.ask (.sysGetObject "path") with
    | none => throw .noSearchPath
    | some searchPath =>
      match ← lib.ask (.decodeFsDefault location) with
      | none =>
        let _ ← drainError lib
        throw (.locationNotConverted entry.name)
      | some item =>
        let added ← lib.ask (.listAppend searchPath item)
        lib.ask (.decRef item)
        if !added then
          let _ ← drainError lib
          throw (.locationNotAdded entry.name)

/-- Do something for each entry in order; how many there were. -/
def forEntries {ε : Type} (entries : List Entry) (action : Entry → Act ε Unit) :
    Act ε Nat := do
  match entries with
  | [] => return 0
  | e :: rest =>
    action e
    return (← forEntries rest action) + 1

/-- Import the modules of the package; how many there are. -/
def importModules (files : FileTree) (lib : Library) (archive : Archive) :
    Act BootstrapError Nat :=
  forEntries (archive.entries.filter (·.kind.isBootstrap)) (importModule files lib archive)

/-- Add the collections of the package to the search path; how many there are. -/
def installCollections (lib : Library) (archive : Archive) : Act BootstrapError Nat :=
  forEntries (archive.entriesOf .collection) (installCollection lib archive)

/-- Prepare a running interpreter for the program of a package. -/
def bootstrap (files : FileTree) (lib : Library) (archive : Archive) (home : Path) :
    Act BootstrapError Unit := do
  publishHome lib home
  let modules ← importModules files lib archive
  let collections ← installCollections lib archive
  debug s!"bootstrap done: {modules} modules imported, {collections} collections installed"

end FrozenApp.Program
