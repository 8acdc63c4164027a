import FrozenApp.Interpreter.Trace
import FrozenApp.Package.Archive
import FrozenApp.Text.Blank
import FrozenApp.Text.Decimal
/-!
# Options in a package

A package carries options as entries without payload: the name of such an entry
is the option. Some set up the interpreter, some steer the launcher, and those
that mean nothing here are passed over with a line in the log.
-/

namespace FrozenApp

open Interpreter (Act debug)

/-- How the interpreter is to run. -/
structure InterpreterOptions where
  verbose : Int32 := 0
  unbuffered : Bool := false
  optimize : Int32 := 0
  /-- The seed of string hashes, if it is fixed. -/
  hashSeed : Option UInt64 := none
  /-- UTF-8 mode on or off, if the package decides it. -/
  utf8Mode : Option Bool := none
  devMode : Bool := false
  warnOptions : List String := []
  xOptions : List String := []
  deriving Repr, DecidableEq

/-- How the launcher is to run. -/
structure LaunchOptions where
  /-- Where the program's files are, seen from the executable's directory. -/
  contentsDirectory : Option String := none
  /-- Is the interpreter a free-threaded build? -/
  freeThreaded : Bool := false
  deriving Repr, DecidableEq

/-- The options of a package. -/
structure Options where
  interpreter : InterpreterOptions := {}
  launch : LaunchOptions := {}
  deriving Repr, DecidableEq

namespace Options

/-- The option that names the directory of the program's files. -/
def contentsDirectoryKey : String := "pyi-contents-directory"

/-- The option that names a directory for unpacked files. -/
def runtimeTmpdirKey : String := "pyi-runtime-tmpdir"

/-- The option that names a property of the interpreter's build. -/
def buildFlagKey : String := "pyi-python-flag"

/-- The option that keeps signals from the parent process. -/
def ignoreSignalsKey : String := "pyi-bootloader-ignore-signals"

/-- The property of a free-threaded build. -/
def freeThreadedFlag : String := "Py_GIL_DISABLED"

/-- How the option that fixes the hash seed starts. -/
def hashSeedKey : String := "hash_seed="

/-- What an option says. -/
inductive Setting where
  | verbose
  | unbuffered
  | optimize
  | warn (filter : String)
  | x (option : String)
  | contentsDirectory (directory : String)
  | freeThreaded
  | unknownFlag (flag : String)
  /-- It matters only to a package that has to be unpacked. -/
  | onefile
  | hashSeed (seed : Except Text.NumberError UInt64)
  | unknown
  deriving Repr

/-- The text ahead of the first space, and that behind it without white space at
its ends. -/
def splitName (name : String) : String × Option String :=
  let key := name.toList.takeWhile (· ≠ ' ')
  match name.toList.dropWhile (· ≠ ' ') with
  | [] => (name, none)
  | _ :: value => (String.ofList key, some (Text.trim (String.ofList value)))

/-- What an option that is neither a known flag nor a known key says. -/
def readOther (name : String) : Setting :=
  let key := hashSeedKey.toList
  if key.isPrefixOf name.toList then
    .hashSeed (Text.parseUInt64 (Text.trim (String.ofList (name.toList.drop key.length))))
  else .unknown

/-- What an option says. -/
def read (name : String) : Setting :=
  match splitName name with
  | (key, none) =>
    if key = "v" ∨ key = "verbose" then .verbose
    else if key = "u" ∨ key = "unbuffered" then .unbuffered
    else if key = "O" ∨ key = "optimize" then .optimize
    else if key = ignoreSignalsKey then .onefile
    else readOther name
  | (key, some value) =>
    if key = "W" then .warn value
    else if key = "X" then .x value
    else if key = contentsDirectoryKey then .contentsDirectory value
    else if key = buildFlagKey then
      if value = freeThreadedFlag then .freeThreaded else .unknownFlag value
    else if key = runtimeTmpdirKey then .onefile
    else readOther name

/-- The modes that an implementation option of the interpreter switches. -/
def switchMode (o : InterpreterOptions) (option : String) : InterpreterOptions :=
  if option = "utf8" ∨ option = "utf8=1" then { o with utf8Mode := some true }
  else if option = "utf8=0" then { o with utf8Mode := some false }
  else if option = "dev" ∨ option = "dev=1" then { o with devMode := true }
  else o

/-- Why the options of a package cannot be used. -/
inductive Error where
  | badSeed (name : String) (e : Text.NumberError)
  deriving Repr, DecidableEq

/-- What happened, then its cause. -/
def Error.chain : Error → List String
  | .badSeed name e => [s!"invalid hash seed option: {Text.quote name}", e.message]

/-- The options with one more setting, of the given name. -/
def apply (o : Options) (name : String) : Setting → Except Error Options
  | .verbose =>
    .ok { o with interpreter := { o.interpreter with verbose := o.interpreter.verbose + 1 } }
  | .unbuffered => .ok { o with interpreter := { o.interpreter with unbuffered := true } }
  | .optimize =>
    .ok { o with interpreter := { o.interpreter with optimize := o.interpreter.optimize + 1 } }
  | .warn filter =>
    let warnOptions := o.interpreter.warnOptions ++ [filter]
    .ok { o with interpreter := { o.interpreter with warnOptions } }
  | .x option =>
    let xOptions := o.interpreter.xOptions ++ [option]
    .ok { o with interpreter := { switchMode o.interpreter option with xOptions } }
  | .contentsDirectory directory =>
    .ok { o with launch := { o.launch with contentsDirectory := some directory } }
  | .freeThreaded => .ok { o with launch := { o.launch with freeThreaded := true } }
  | .hashSeed (.ok seed) =>
    .ok { o with interpreter := { o.interpreter with hashSeed := some seed } }
  | .hashSeed (.error e) => .error (.badSeed name e)
  | .unknownFlag _ | .onefile | .unknown => .ok o

/-- The line of the log about an option that is passed over. -/
def remark? (name : String) : Setting → Option String
  | .unknownFlag flag => some s!"ignoring unknown python build flag: {flag}"
  | .onefile => some s!"ignoring onefile option: {Text.quote name}"
  | .unknown => some s!"ignoring unknown runtime option: {Text.quote name}"
  | _ => none

/-- Add the options of these names, in order. -/
def addAll (o : Options) : List String → Act Error Options
  | [] => pure o
  | name :: rest => do
    let setting := read name
    match remark? name setting with
    | some line => debug line
    | none => pure ()
    match o.apply name setting with
    | .error e => throw e
    | .ok o => addAll o rest

/-- The options of these names. -/
def ofNames (names : List String) : Act Error Options :=
  addAll {} names

/-- The options that a package carries. -/
def ofArchive (a : Package.Archive) : Act Error Options :=
  ofNames ((a.entriesOf .option).map (·.name))

end Options

end FrozenApp
