import FrozenApp.FileTree
import FrozenApp.Interpreter.Library
/-!
# Loading libraries from files

The system opens a library at a path with a slash in it, if a library lies
there. A path without a slash is the name of a library of the system, and an
empty one stands for the running program.
-/

namespace FrozenApp.Interpreter

/-- The length of the header that a library starts with. -/
def libraryHeaderLength : Nat := 64

/-- Why a file or directory that is no library cannot be opened as one. -/
def notALibrary : Node → String
  | .directory => s!"cannot read file data: {FileError.isADirectory.reason}"
  | .file content =>
    if content.length < libraryHeaderLength then "file too short" else "invalid ELF header"

/-- Why a library cannot be opened where no file can be. -/
def unopenable (e : FileError) : String :=
  s!"cannot open shared object file: {e.reason}"

/-- The libraries that the system itself consists of. -/
def systemLibraries : List Path :=
  ["ld-linux-x86-64.so.2", "libc.so.6", "libdl.so.2", "libm.so.6", "libpthread.so.0",
    "librt.so.1"].map Path.ofString

/-- An image that has nothing to do with the interpreter: the running program, or
a library of the system. -/
def Image.unrelated : Image where
  address? _ := none
  run _ _ _ := default

/-- What the system opens at a path, where the files at some locations are
libraries. -/
def openLibrary (files : FileTree) (libraries : List (Location × Image)) (path : Path) :
    Except String Image :=
  if path.contains Path.slash then
    match files.locate path with
    | .error e => .error (unopenable e)
    | .ok l =>
      match libraries.lookup l with
      | some image => .ok image
      | none => .error (((files.get? l).map notALibrary).getD (unopenable .notFound))
  else if path.isEmpty ∨ systemLibraries.contains path then .ok .unrelated
  else .error (unopenable .notFound)

/-- The path that is handed to the system, which takes it to end at a NUL. The
path may bring its NUL along, but may hold no other. -/
def pathArgument (path : Path) : Except String Path :=
  if path.getLast? = some 0 then
    if path.dropLast.contains 0 then
      .error "could not create a C string from bytes with trailing null"
    else .ok path.dropLast
  else if path.contains 0 then .error "could not create a C string from bytes"
  else .ok path

/-- The loader of the system, where the files at some locations are libraries. -/
def Loader.ofFiles (files : FileTree) (libraries : List (Location × Image)) : Loader where
  announces := true
  open? path := do
    let path ← pathArgument path
    (openLibrary files libraries path).mapError fun e => s!"{path.display}: {e}"

end FrozenApp.Interpreter
