/-!
# Members of the configuration record

The interpreter is configured through a record of C members. `Member` names those
of every supported release, and `Member.type` says what each of them is on 64-bit
Linux.
-/

namespace FrozenApp.Config

/-- The C types of members. -/
inductive MemberType where
  /-- `int` -/
  | int
  /-- `unsigned long` -/
  | unsignedLong
  /-- A pointer to a wide string. -/
  | string
  /-- A length and a pointer to wide strings. -/
  | stringList
  deriving Repr, DecidableEq

namespace MemberType

/-- How many bytes a member takes. -/
def size : MemberType → Nat
  | int => 4
  | unsignedLong => 8
  | string => 8
  | stringList => 16

/-- What the offset of a member is a multiple of. -/
def align : MemberType → Nat
  | int => 4
  | unsignedLong => 8
  | string => 8
  | stringList => 8

end MemberType

/-- A member of the configuration record of some release. -/
inductive Member where
  | configInit | isolated | useEnvironment | devMode | installSignalHandlers | useHashSeed
  | hashSeed | faulthandler | tracemalloc | importTime | showRefCount | showAllocCount | dumpRefs
  | mallocStats | filesystemEncoding | filesystemErrors | pycachePrefixDir | parseArgv | argv
  | programName | xoptions | warnoptions | siteImport | bytesWarning | inspect | interactive
  | optimizationLevel | parserDebug | writeBytecode | verbose | quiet | userSiteDirectory
  | configureCStdio | bufferedStdio | stdioEncoding | stdioErrors | checkHashPycsMode
  | pathconfigWarnings | pythonpathEnv | home | moduleSearchPathsSet | moduleSearchPaths
  | executable | baseExecutable | prefixDir | basePrefixDir | execPrefixDir | baseExecPrefixDir
  | skipSourceFirstLine | runCommand | runModule | runFilename | installImportlib | initMain
  | usePegParser | platlibdir | isolatedInterpreter | privateOrigArgv | origArgv
  | warnDefaultEncoding | codeDebugRanges | dumpRefsFile | useFrozenModules | safePath
  | intMaxStrDigits | stdlibDir | isPythonBuild | perfProfiling | pystats | cpuCount | sysPath0
  | runPresite | enableGil
  deriving Repr, DecidableEq

namespace Member

/-- The C type of a member. -/
def type : Member → MemberType
  | .hashSeed => .unsignedLong
  | .argv | .xoptions | .warnoptions | .moduleSearchPaths | .privateOrigArgv | .origArgv =>
    .stringList
  | .filesystemEncoding | .filesystemErrors | .pycachePrefixDir | .programName | .stdioEncoding
  | .stdioErrors | .checkHashPycsMode | .pythonpathEnv | .home | .executable | .baseExecutable
  | .prefixDir | .basePrefixDir | .execPrefixDir | .baseExecPrefixDir | .runCommand | .runModule
  | .runFilename | .platlibdir | .dumpRefsFile | .stdlibDir | .sysPath0 | .runPresite => .string
  | _ => .int

/-- The members that start-up reads or writes, with their names in C. -/
def used : List (Member × String) :=
  [(.devMode, "dev_mode"), (.installSignalHandlers, "install_signal_handlers"),
    (.useHashSeed, "use_hash_seed"), (.hashSeed, "hash_seed"), (.parseArgv, "parse_argv"),
    (.argv, "argv"), (.xoptions, "xoptions"), (.warnoptions, "warnoptions"),
    (.siteImport, "site_import"), (.optimizationLevel, "optimization_level"),
    (.writeBytecode, "write_bytecode"), (.verbose, "verbose"),
    (.configureCStdio, "configure_c_stdio"), (.bufferedStdio, "buffered_stdio"),
    (.programName, "program_name"), (.home, "home"),
    (.moduleSearchPathsSet, "module_search_paths_set"),
    (.moduleSearchPaths, "module_search_paths")]

end Member

end FrozenApp.Config
