import FrozenApp.Options
/-!
# What the interpreter is started with

The settings of a start, and the two of them that come from elsewhere than the
package: where modules are searched, and whether the locale of the environment
is the one without a language.
-/

namespace FrozenApp.Startup

/-- The file with the interpreter's base library. -/
def baseLibraryName : String := "base_library.zip"

/-- What the interpreter is started with. -/
structure Settings where
  programName : Bytes
  home : Path
  searchPaths : List Path
  argv : List Bytes
  options : InterpreterOptions
  freeThreaded : Bool
  /-- Is the locale the one without a language? -/
  cLocale : Bool
  deriving Repr, DecidableEq

/-- Where modules are searched: in the base library, among the extension modules
of the version, and in the home directory. -/
def defaultSearchPaths (home : Path) (version : Version) : List Path :=
  [home.join (.ofString baseLibraryName),
    (home.join (.ofString s!"python{version.display}")).join (.ofString "lib-dynload"),
    home]

/-- The variables that name the locale, the strongest one first. -/
def localeVariables : List String := ["LC_ALL", "LC_CTYPE", "LANG"]

/-- Is the locale the one without a language? It is, by one of its two names or
where no variable names another. -/
def isCLocale (environment? : String → Option Bytes) : Bool :=
  match (localeVariables.filterMap environment?).find? (!·.isEmpty) with
  | none => true
  | some value => value == Bytes.ofString "C" || value == Bytes.ofString "POSIX"

end FrozenApp.Startup
