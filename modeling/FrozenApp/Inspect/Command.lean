import FrozenApp.Inspect.Report
import FrozenApp.Text.Causes
/-!
# Commands on packages

A package can be summed up, its entries can be listed, and one of them can be
extracted into a file. Each command comes from a line of arguments.
-/

namespace FrozenApp.Inspect

open Package
open Text (Json)

/-- What can be done with a package. -/
inductive Command where
  | info (archive : Path)
  | list (archive : Path) (json : Bool)
  | extract (archive : Path) (name : String) (destination : Path)
  deriving Repr, DecidableEq

/-- Why a command fails. -/
inductive Error where
  | unopened (e : OpenError)
  | noEntry (name : String) (archive : Path)
  | unpack (e : UnpackError)
  deriving Repr, DecidableEq

/-- What happened, then its causes. -/
def Error.chain : Error → List String
  | .unopened e => e.chain
  | .noEntry name archive => [s!"no entry named {Text.quote name} in {archive.display}"]
  | .unpack e => e.chain

/-- What a command writes. -/
structure Output where
  text : String
  /-- What is told on the error output. -/
  remark : String
  deriving Repr, DecidableEq

/-- Open an archive. -/
def openArchive (path : Path) : FileM Error Archive := do
  match Archive.read (← get) path with
  | .ok a => return a
  | .error e => throw (.unopened e)

/-- Carry a command out. -/
def Command.run : Command → FileM Error Output
  | .info path => do
    let a ← openArchive path
    return ⟨(summary a).toJson.pretty 0 ++ "\n", ""⟩
  | .list path json => do
    let reports := entryReports (← openArchive path)
    let text :=
      if json then (Json.list (reports.map (·.toJson))).pretty 0 ++ "\n"
      else String.join (reports.map (·.line ++ "\n"))
    return ⟨text, ""⟩
  | .extract path name destination => do
    let a ← openArchive path
    match a.find? name with
    | none => throw (.noEntry name path)
    | some e =>
      (a.extractToFile e destination).adapt Error.unpack
      return ⟨"", s!"wrote {destination.display} ({e.uncompressedLength} bytes)\n"⟩

/-- How a command on a command line ends. -/
structure Ending where
  code : UInt8
  output : String
  errorOutput : String
  deriving Repr, DecidableEq

/-- Carry a command out and report how it ends. -/
def Command.finish (c : Command) (files : FileTree) : Ending × FileTree :=
  match c.run.run files with
  | (.ok output, files) => (⟨0, output.text, output.remark⟩, files)
  | (.error e, files) =>
    let chain := e.chain
    (⟨1, "", Text.oneLine chain ++ "\nError: " ++ Text.outline chain ++ "\n"⟩, files)

/-- The value of the option for the destination, given as the next argument or
behind an equals sign, and the arguments after it. -/
def takeDestination? : List Bytes → Option (Path × List Bytes)
  | [] => none
  | a :: rest =>
    let option := Bytes.ofString "--out"
    let assigned := Bytes.ofString "--out="
    if a = option then
      match rest with
      | value :: rest => some (value, rest)
      | [] => none
    else if assigned.isPrefixOf a then some (a.drop assigned.length, rest)
    else none

/-- Arguments sorted by what they are. -/
structure Arguments where
  positional : List Bytes := []
  json : Bool := false
  destination : Option Path := none

/-- Sort arguments, where `fuel` bounds their number. Behind `--` all of them are
positional. -/
def sortArguments : Nat → Arguments → List Bytes → Option Arguments
  | 0, _, _ => none
  | _ + 1, sorted, [] => some sorted
  | fuel + 1, sorted, a :: rest =>
    match takeDestination? (a :: rest) with
    | some (path, rest) => sortArguments fuel { sorted with destination := some path } rest
    | none =>
      let dash := Bytes.ofString "-"
      if a = Bytes.ofString "--json" then sortArguments fuel { sorted with json := true } rest
      else if a = Bytes.ofString "--" then
        some { sorted with positional := sorted.positional ++ rest }
      else if dash.isPrefixOf a ∧ a ≠ dash then none
      else sortArguments fuel { sorted with positional := sorted.positional ++ [a] } rest

/-- The command that a line of arguments asks for. -/
def Command.ofArguments? : List Bytes → Option Command
  | [] => none
  | word :: rest => do
    let a ← sortArguments (rest.length + 1) {} rest
    match Utf8.lossy word, a.positional, a.destination, a.json with
    | "info", [path], none, false => some (.info path)
    | "list", [path], none, json => some (.list path json)
    | "extract", [path, name], some destination, false =>
      let name ← (Utf8.decode name).toOption
      some (.extract path name destination)
    | _, _, _, _ => none

end FrozenApp.Inspect
