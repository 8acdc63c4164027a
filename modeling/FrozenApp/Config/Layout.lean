import FrozenApp.Config.Member
import FrozenApp.Config.Version
/-!
# Layouts of the configuration record

Each supported release lays the record out by the rules of C: the members follow
each other in order, each at the next multiple of its alignment, and the size is
a multiple of the largest alignment. `Layout.select` picks the layout for a
version; a version that is not listed has none.
-/

namespace FrozenApp.Config

/-- The layouts of the record, one for each release and, from 3.13 on, one for
its free-threaded build. -/
inductive Layout where
  | v38 | v39 | v310 | v311 | v312 | v313 | v313FreeThreaded | v314 | v314FreeThreaded
  deriving Repr, DecidableEq

/-- The members in 3.8, in order. -/
def members38 : List Member :=
  [.configInit, .isolated, .useEnvironment, .devMode, .installSignalHandlers, .useHashSeed,
    .hashSeed, .faulthandler, .tracemalloc, .importTime, .showRefCount, .showAllocCount,
    .dumpRefs, .mallocStats, .filesystemEncoding, .filesystemErrors, .pycachePrefixDir,
    .parseArgv, .argv, .programName, .xoptions, .warnoptions, .siteImport, .bytesWarning,
    .inspect, .interactive, .optimizationLevel, .parserDebug, .writeBytecode, .verbose, .quiet,
    .userSiteDirectory, .configureCStdio, .bufferedStdio, .stdioEncoding, .stdioErrors,
    .checkHashPycsMode, .pathconfigWarnings, .pythonpathEnv, .home, .moduleSearchPathsSet,
    .moduleSearchPaths, .executable, .baseExecutable, .prefixDir, .basePrefixDir, .execPrefixDir,
    .baseExecPrefixDir, .skipSourceFirstLine, .runCommand, .runModule, .runFilename,
    .installImportlib, .initMain]

/-- The members in 3.9, in order. -/
def members39 : List Member :=
  [.configInit, .isolated, .useEnvironment, .devMode, .installSignalHandlers, .useHashSeed,
    .hashSeed, .faulthandler, .usePegParser, .tracemalloc, .importTime, .showRefCount, .dumpRefs,
    .mallocStats, .filesystemEncoding, .filesystemErrors, .pycachePrefixDir, .parseArgv, .argv,
    .programName, .xoptions, .warnoptions, .siteImport, .bytesWarning, .inspect, .interactive,
    .optimizationLevel, .parserDebug, .writeBytecode, .verbose, .quiet, .userSiteDirectory,
    .configureCStdio, .bufferedStdio, .stdioEncoding, .stdioErrors, .checkHashPycsMode,
    .pathconfigWarnings, .pythonpathEnv, .home, .moduleSearchPathsSet, .moduleSearchPaths,
    .executable, .baseExecutable, .prefixDir, .basePrefixDir, .execPrefixDir, .baseExecPrefixDir,
    .platlibdir, .skipSourceFirstLine, .runCommand, .runModule, .runFilename, .installImportlib,
    .initMain, .isolatedInterpreter, .privateOrigArgv]

/-- The members in 3.10, in order. -/
def members310 : List Member :=
  [.configInit, .isolated, .useEnvironment, .devMode, .installSignalHandlers, .useHashSeed,
    .hashSeed, .faulthandler, .tracemalloc, .importTime, .showRefCount, .dumpRefs, .mallocStats,
    .filesystemEncoding, .filesystemErrors, .pycachePrefixDir, .parseArgv, .origArgv, .argv,
    .xoptions, .warnoptions, .siteImport, .bytesWarning, .warnDefaultEncoding, .inspect,
    .interactive, .optimizationLevel, .parserDebug, .writeBytecode, .verbose, .quiet,
    .userSiteDirectory, .configureCStdio, .bufferedStdio, .stdioEncoding, .stdioErrors,
    .checkHashPycsMode, .pathconfigWarnings, .programName, .pythonpathEnv, .home, .platlibdir,
    .moduleSearchPathsSet, .moduleSearchPaths, .executable, .baseExecutable, .prefixDir,
    .basePrefixDir, .execPrefixDir, .baseExecPrefixDir, .skipSourceFirstLine, .runCommand,
    .runModule, .runFilename, .installImportlib, .initMain, .isolatedInterpreter]

/-- The members in 3.11, in order. -/
def members311 : List Member :=
  [.configInit, .isolated, .useEnvironment, .devMode, .installSignalHandlers, .useHashSeed,
    .hashSeed, .faulthandler, .tracemalloc, .importTime, .codeDebugRanges, .showRefCount,
    .dumpRefs, .dumpRefsFile, .mallocStats, .filesystemEncoding, .filesystemErrors,
    .pycachePrefixDir, .parseArgv, .origArgv, .argv, .xoptions, .warnoptions, .siteImport,
    .bytesWarning, .warnDefaultEncoding, .inspect, .interactive, .optimizationLevel,
    .parserDebug, .writeBytecode, .verbose, .quiet, .userSiteDirectory, .configureCStdio,
    .bufferedStdio, .stdioEncoding, .stdioErrors, .checkHashPycsMode, .useFrozenModules,
    .safePath, .intMaxStrDigits, .pathconfigWarnings, .programName, .pythonpathEnv, .home,
    .platlibdir, .moduleSearchPathsSet, .moduleSearchPaths, .stdlibDir, .executable,
    .baseExecutable, .prefixDir, .basePrefixDir, .execPrefixDir, .baseExecPrefixDir,
    .skipSourceFirstLine, .runCommand, .runModule, .runFilename, .installImportlib, .initMain,
    .isolatedInterpreter, .isPythonBuild]

/-- The members in 3.12, in order. -/
def members312 : List Member :=
  [.configInit, .isolated, .useEnvironment, .devMode, .installSignalHandlers, .useHashSeed,
    .hashSeed, .faulthandler, .tracemalloc, .perfProfiling, .importTime, .codeDebugRanges,
    .showRefCount, .dumpRefs, .dumpRefsFile, .mallocStats, .filesystemEncoding,
    .filesystemErrors, .pycachePrefixDir, .parseArgv, .origArgv, .argv, .xoptions, .warnoptions,
    .siteImport, .bytesWarning, .warnDefaultEncoding, .inspect, .interactive, .optimizationLevel,
    .parserDebug, .writeBytecode, .verbose, .quiet, .userSiteDirectory, .configureCStdio,
    .bufferedStdio, .stdioEncoding, .stdioErrors, .checkHashPycsMode, .useFrozenModules,
    .safePath, .intMaxStrDigits, .pathconfigWarnings, .programName, .pythonpathEnv, .home,
    .platlibdir, .moduleSearchPathsSet, .moduleSearchPaths, .stdlibDir, .executable,
    .baseExecutable, .prefixDir, .basePrefixDir, .execPrefixDir, .baseExecPrefixDir,
    .skipSourceFirstLine, .runCommand, .runModule, .runFilename, .installImportlib, .initMain,
    .isPythonBuild, .pystats]

/-- The members in 3.13 and 3.14, in order. -/
def members313 : List Member :=
  [.configInit, .isolated, .useEnvironment, .devMode, .installSignalHandlers, .useHashSeed,
    .hashSeed, .faulthandler, .tracemalloc, .perfProfiling, .importTime, .codeDebugRanges,
    .showRefCount, .dumpRefs, .dumpRefsFile, .mallocStats, .filesystemEncoding,
    .filesystemErrors, .pycachePrefixDir, .parseArgv, .origArgv, .argv, .xoptions, .warnoptions,
    .siteImport, .bytesWarning, .warnDefaultEncoding, .inspect, .interactive, .optimizationLevel,
    .parserDebug, .writeBytecode, .verbose, .quiet, .userSiteDirectory, .configureCStdio,
    .bufferedStdio, .stdioEncoding, .stdioErrors, .checkHashPycsMode, .useFrozenModules,
    .safePath, .intMaxStrDigits, .cpuCount, .pathconfigWarnings, .programName, .pythonpathEnv,
    .home, .platlibdir, .moduleSearchPathsSet, .moduleSearchPaths, .stdlibDir, .executable,
    .baseExecutable, .prefixDir, .basePrefixDir, .execPrefixDir, .baseExecPrefixDir,
    .skipSourceFirstLine, .runCommand, .runModule, .runFilename, .sysPath0, .installImportlib,
    .initMain, .isPythonBuild, .pystats, .runPresite]

namespace Layout

/-- Every layout, older releases first. -/
def all : List Layout :=
  [v38, v39, v310, v311, v312, v313, v313FreeThreaded, v314, v314FreeThreaded]

/-- The version a layout belongs to. -/
def version : Layout → Version
  | v38 => .ofNumbers 3 8
  | v39 => .ofNumbers 3 9
  | v310 => .ofNumbers 3 10
  | v311 => .ofNumbers 3 11
  | v312 => .ofNumbers 3 12
  | v313 | v313FreeThreaded => .ofNumbers 3 13
  | v314 | v314FreeThreaded => .ofNumbers 3 14

/-- Is it the layout of a free-threaded build? -/
def freeThreaded : Layout → Bool
  | v313FreeThreaded | v314FreeThreaded => true
  | _ => false

/-- The members in order. A free-threaded build has one more, behind the number
of processors. -/
def members : Layout → List Member
  | v38 => members38
  | v39 => members39
  | v310 => members310
  | v311 => members311
  | v312 => members312
  | v313 | v314 => members313
  | v313FreeThreaded | v314FreeThreaded =>
    members313.flatMap fun m => if m = .cpuCount then [m, .enableGil] else [m]

end Layout

/-- The next multiple of `a` from `n` on. -/
def alignUp (n a : Nat) : Nat :=
  (n + a - 1) / a * a

/-- The offsets of members, where `start` bytes are taken already. -/
def offsetsFrom (start : Nat) : List Member → List (Member × Nat)
  | [] => []
  | m :: rest =>
    let offset := alignUp start m.type.align
    (m, offset) :: offsetsFrom (offset + m.type.size) rest

/-- How many bytes are taken once members are laid out behind `start` bytes. -/
def endFrom (start : Nat) (members : List Member) : Nat :=
  members.foldl (fun start m => alignUp start m.type.align + m.type.size) start

namespace Layout

/-- The members with their offsets. -/
def offsets (l : Layout) : List (Member × Nat) :=
  offsetsFrom 0 l.members

/-- The offset of a member, if the layout has it. -/
def offset? (l : Layout) (m : Member) : Option Nat :=
  l.offsets.lookup m

/-- The offset of a member that the layout has. -/
def offset (l : Layout) (m : Member) : Nat :=
  (l.offset? m).getD 0

/-- The alignment of the record. -/
def align (l : Layout) : Nat :=
  l.members.foldl (fun a m => max a m.type.align) 1

/-- The size of the record. -/
def size (l : Layout) : Nat :=
  alignUp (endFrom 0 l.members) l.align

/-- How messages call a layout. -/
def display (l : Layout) : String :=
  s!"PyConfig {l.version.display}" ++ if l.freeThreaded then " (free-threaded)" else ""

end Layout

/-- Why there is no layout for a version. -/
inductive SelectError where
  | unsupported (version : Version)
  /-- The release has no free-threaded build. -/
  | notFreeThreaded (version : Version)
  deriving Repr, DecidableEq

/-- The wording of a refusal. -/
def SelectError.message : SelectError → String
  | .unsupported version =>
    let supported := (Layout.all.filter (!·.freeThreaded)).map (·.version.display)
    s!"unsupported python runtime version {version.display} (tag {version.tag}); supported: " ++
      ", ".intercalate supported
  | .notFreeThreaded version =>
    s!"python runtime version {version.display} has no free-threaded (Py_GIL_DISABLED) build"

/-- The layout for a version and kind of build. -/
def Layout.select (version : Version) (freeThreaded : Bool) : Except SelectError Layout :=
  match Layout.all.find? fun l => l.version = version && l.freeThreaded == freeThreaded with
  | some l => .ok l
  | none =>
    if Layout.all.any (·.version = version) then .error (.notFreeThreaded version)
    else .error (.unsupported version)

end FrozenApp.Config
