import FrozenApp.Config.Layout
import FrozenApp.Package.Location
import FrozenApp.Text.Json
/-!
# Reports about packages

What can be told about the package of a file without running it: the cookie with
the layout that the launcher would use, and the entries of the table of
contents.
-/

namespace FrozenApp.Inspect

open Package
open Text (Json)

/-- What the cookie of an archive says, with what follows from it. -/
structure Summary where
  path : String
  packageOffset : Nat
  cookie : Cookie
  release : String
  /-- The configuration layout, if the version is supported. -/
  layout : Option String
  entries : Nat
  onefile : Bool
  deriving Repr, DecidableEq

/-- The summary of an archive. -/
def summary (a : Archive) : Summary :=
  let version : Version := ⟨a.cookie.version⟩
  { path := a.path.display
    packageOffset := a.packageOffset
    cookie := a.cookie
    release := version.display
    layout := (Config.Layout.select version false).toOption.map (·.display)
    entries := a.entries.length
    onefile := a.isOnefile }

/-- A text, or nothing. -/
def optional : Option String → Json
  | none => .null
  | some s => .string s

/-- A summary as JSON. -/
def Summary.toJson (s : Summary) : Json :=
  .object
    [("path", .string s.path), ("pkg_offset", .number s.packageOffset),
      ("pkg_length", .number s.cookie.packageLength.toNat),
      ("toc_offset", .number s.cookie.tocOffset.toNat),
      ("toc_length", .number s.cookie.tocLength.toNat),
      ("python_version", .number s.cookie.version.toNat), ("python_release", .string s.release),
      ("python_libname", .string s.cookie.libraryName), ("config_layout", optional s.layout),
      ("entries", .number s.entries), ("onefile", .bool s.onefile)]

/-- What is told about an entry. -/
structure EntryReport where
  entry : Entry
  /-- The location, if the entry is a module collection. -/
  location : Option String
  deriving Repr, DecidableEq

/-- The report about an entry of an archive. -/
def entryReport (a : Archive) (entry : Entry) : EntryReport :=
  let location :=
    if entry.kind = .collection then some (locationText a.path.display (a.absoluteOffset entry))
    else none
  { entry, location }

/-- The reports about the entries of an archive. -/
def entryReports (a : Archive) : List EntryReport :=
  a.entries.map (entryReport a)

/-- A report as JSON. -/
def EntryReport.toJson (r : EntryReport) : Json :=
  .object <|
    [("name", .string r.entry.name), ("kind", .string r.entry.kind.display),
      ("offset", .number r.entry.offset.toNat), ("length", .number r.entry.length.toNat),
      ("uncompressed_length", .number r.entry.uncompressedLength.toNat),
      ("compressed", .bool r.entry.compressed)] ++
      match r.location with
      | none => []
      | some location => [("location", .string location)]

/-- A report as a line of a table. -/
def EntryReport.line (r : EntryReport) : String :=
  let e := r.entry
  let column := fun n : UInt32 => Text.padLeft 10 (toString n)
  let mark := if e.compressed then "z" else "-"
  s!"{e.kind.display} {mark} {column e.offset} {column e.length} {column e.uncompressedLength} {e.name}"

end FrozenApp.Inspect
