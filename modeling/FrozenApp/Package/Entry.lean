import FrozenApp.Text.Quoted
/-!
# Entries of a package

A package holds payloads one behind the other, and a table of contents with a
record for each of them. A record is as long as its first four bytes say: 18
bytes of numbers and codes, then the name and at least one NUL.
-/

namespace FrozenApp.Package

/-- What an entry is for. The package stores a one-byte code. -/
inductive Kind where
  /-- A shared library. -/
  | binary
  /-- A reference into another package. -/
  | dependency
  /-- A collection of compiled modules, read by the interpreter's importer. -/
  | collection
  /-- A zip file. -/
  | zipFile
  /-- The compiled code of a package of modules. -/
  | modulePackage
  /-- A compiled module. -/
  | module
  /-- A compiled script that the program runs. -/
  | script
  /-- A data file. -/
  | data
  /-- An option of the launcher or the interpreter; its name is all it holds. -/
  | option
  /-- Resources of a splash screen. -/
  | splash
  /-- A symbolic link. -/
  | symlink
  /-- A code without a meaning here. -/
  | other (code : UInt8)
  deriving Repr, DecidableEq

namespace Kind

/-- The kinds that have a code of their own, with the code. -/
def codes : List (Kind × Char) :=
  [(.binary, 'b'), (.dependency, 'd'), (.collection, 'z'), (.zipFile, 'Z'), (.modulePackage, 'M'),
    (.module, 'm'), (.script, 's'), (.data, 'x'), (.option, 'o'), (.splash, 'l'), (.symlink, 'n')]

/-- The kind that a code stands for. -/
def ofCode (code : UInt8) : Kind :=
  match codes.find? fun (_, c) => c.toUInt8 == code with
  | some (kind, _) => kind
  | none => .other code

/-- The code that stands for a kind. -/
def code : Kind → UInt8
  | .other code => code
  | kind => ((codes.lookup kind).getD '?').toUInt8

/-- Does an entry of this kind have to be unpacked before the program can run? -/
def isExtractable : Kind → Bool
  | .binary | .data | .zipFile | .symlink | .dependency => true
  | _ => false

/-- Is an entry of this kind a module that is run while the interpreter is set up? -/
def isBootstrap : Kind → Bool
  | .module | .modulePackage => true
  | _ => false

/-- The code as a visible character, or else in hexadecimal. -/
def display (kind : Kind) : String :=
  let code := kind.code
  if 0x21 ≤ code && code ≤ 0x7E then String.singleton (Char.ofNat code.toNat)
  else "0x" ++ Text.hexByte code

end Kind

/-- An entry of the table of contents. -/
structure Entry where
  /-- Where the payload starts, counted from the start of the package. -/
  offset : UInt32
  /-- How many bytes of the package the payload takes. -/
  length : UInt32
  /-- How many bytes the payload has once it is inflated. -/
  uncompressedLength : UInt32
  compressed : Bool
  kind : Kind
  name : String
  deriving Repr, DecidableEq

/-- The length of a record ahead of its name. -/
def recordHeaderLength : Nat := 18

/-- The length of the record for a name of so many bytes: a multiple of 16 with
room for a NUL. -/
def recordLength (nameLength : Nat) : Nat :=
  (recordHeaderLength + nameLength + 1 + 15) / 16 * 16

end FrozenApp.Package
