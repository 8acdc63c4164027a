import FrozenApp.Interpreter.Library
import FrozenApp.Options
import FrozenApp.Text.Causes
/-!
# The host of a program

A launcher runs one program. Its package is part of the launcher's own file or,
only where that file carries a signature for it, a file beside it. The package
decides by its options where the program's home directory is.
-/

namespace FrozenApp

open Interpreter Package

/-- The extension of a package beside an executable. -/
def sideloadExtension : String := "pkg"

/-- Where the package of an executable lies if it is not part of it. A system
with executable suffixes puts the extension in the place of that suffix, in
upper or lower case. -/
def sideloadPathFor (executable : Path) (replaceSuffix : Bool) : Path :=
  let lower := fun b : UInt8 => if 0x41 ≤ b && b ≤ 0x5A then b + 0x20 else b
  let isExe := executable.extension?.any fun e => e.map lower == Bytes.ofString "exe"
  if replaceSuffix && isExe then executable.withExtension (Bytes.ofString sideloadExtension)
  else executable ++ Path.dot :: Bytes.ofString sideloadExtension

/-- Where the package of an executable lies if it is not part of it. -/
def sideloadPath (executable : Path) : Path :=
  sideloadPathFor executable false

/-- Why there is no package for an executable. -/
inductive ResolveError where
  /-- The executable holds no package and does not allow another file. -/
  | embedded (executable : Path) (e : OpenError)
  | unsearched (executable : Path) (e : SignatureError)
  | sideload (path : Path) (e : OpenError)
  deriving Repr, DecidableEq

/-- What happened, then its causes. -/
def ResolveError.chain : ResolveError → List String
  | .embedded executable e =>
    s!"cannot open package archive embedded in {executable.display}" :: e.chain
  | .unsearched executable e =>
    s!"scan for sideload signature: {executable.display}" :: e.chain
  | .sideload path e => s!"cannot open sideload archive {path.display}" :: e.chain

/-- Find the package of an executable. -/
def resolveArchive (files : FileTree) (executable : Path) : Act ResolveError Archive := do
  debug "trying executable-embedded archive"
  match Archive.read files executable with
  | .ok archive => return archive
  | .error embedded =>
    debug s!"no embedded archive: {Text.oneLine embedded.chain}"
    match hasSignature files executable sideloadMagic with
    | .error e => throw (.unsearched executable e)
    | .ok false => throw (.embedded executable embedded)
    | .ok true =>
      let path := sideloadPath executable
      debug s!"trying sideload archive: {path.display}"
      match Archive.read files path with
      | .ok archive => return archive
      | .error e => throw (.sideload path e)

/-- Is it the directory of executables in an application bundle, as in
`Name.app/Contents/MacOS`? -/
def isBundleDirectory (directory : Path) : Bool :=
  match directory.names.reverse with
  | macos :: contents :: app :: _ =>
    macos == Bytes.ofString "MacOS" && contents == Bytes.ofString "Contents" &&
      (Path.extension? app).any (· == Bytes.ofString "app")
  | _ => false

/-- The home directory of the program of an executable: the executable's
directory, or the one that the package names from there. In an application
bundle it is the directory of frameworks. None for an executable without a
directory. -/
def homeFor? (executable : Path) (contents : Option String) (bundles : Bool) : Option Path := do
  let directory ← executable.parent?.filter (!·.isEmpty)
  let plain := match contents with
    | some sub => directory.join (.ofString sub)
    | none => directory
  if bundles && isBundleDirectory directory then
    match directory.parent? with
    | some around => return around.join (.ofString "Frameworks")
    | none => return plain
  else return plain

/-- Why a launch has no context. -/
inductive HostError where
  | resolve (e : ResolveError)
  | options (e : Options.Error)
  | noHome (executable : Path)
  deriving Repr, DecidableEq

/-- What happened, then its causes. -/
def HostError.chain : HostError → List String
  | .resolve e => e.chain
  | .options e => e.chain
  | .noHome executable => [s!"executable has no parent directory: {executable.display}"]

/-- The home directory of the program of an executable on this system. -/
def home (executable : Path) (contents : Option String) : Except HostError Path :=
  match homeFor? executable contents false with
  | some home => .ok home
  | none => .error (.noHome executable)

/-- What a launch knows: the program's package and where everything is. -/
structure Host where
  archive : Archive
  executable : Path
  home : Path
  argv : List Bytes
  options : Options
  /-- The interpreter's library while it is attached. -/
  library? : Option Library

namespace Host

/-- The host for an executable, its package and the arguments of the program. -/
def new (executable : Path) (archive : Archive) (argv : List Bytes) : Act HostError Host := do
  let options ← (Options.ofArchive archive).adapt HostError.options
  match FrozenApp.home executable options.launch.contentsDirectory with
  | .error e => throw e
  | .ok home =>
    debug s!"executable: {executable.display}"
    debug s!"archive: {archive.path.display}"
    debug s!"application home: {home.display}"
    return { archive, executable, home, argv, options, library? := none }

/-- The host for an executable whose package has to be found. -/
def ofExecutable (files : FileTree) (executable : Path) (argv : List Bytes) :
    Act HostError Host := do
  let archive ← (resolveArchive files executable).adapt HostError.resolve
  new executable archive argv

/-- Let go of the attached library, if there is one. -/
def unload (host : Host) : StateM Trace Host := do
  match host.library? with
  | none => return host
  | some library =>
    debug s!"releasing python {library.version.display}"
    library.release
    return { host with library? := none }

/-- Attach a library in place of the one that is attached. -/
def attach (host : Host) (library : Library) : StateM Trace Host := do
  return { ← host.unload with library? := some library }

end Host

end FrozenApp
