import FrozenApp.Text.Utf8
/-!
# Paths

A path is a byte string; a slash separates its names. Empty names and, unless it
comes first in a relative path, the name `.` do not count. What `Path.parent?`
and `Path.withExtension` give is cut out of the path as it was spelled.
-/

namespace FrozenApp

/-- A file path, any bytes. -/
abbrev Path := Bytes

namespace Path

/-- The byte between two names. -/
def slash : UInt8 := 47

/-- The byte ahead of an extension. -/
def dot : UInt8 := 46

/-- The path of an ASCII or Unicode text. -/
def ofString (s : String) : Path := Bytes.ofString s

/-- The path as text, with U+FFFD for what is not UTF-8. -/
def display (p : Path) : String := Utf8.lossy p

/-- Does the path start at the root? -/
def isAbsolute (p : Path) : Bool := p.head? == some slash

/-- What lies between the slashes, empty names included. -/
def splitSlash : Path → List Bytes
  | [] => [[]]
  | b :: rest =>
    if b = slash then [] :: splitSlash rest
    else
      match splitSlash rest with
      | [] => [[b]]
      | name :: names => (b :: name) :: names

/-- Names together with the offsets of their ends, where the first starts at
`offset`. -/
def withEnds (offset : Nat) : List Bytes → List (Bytes × Nat)
  | [] => []
  | name :: names => (name, offset + name.length) :: withEnds (offset + name.length + 1) names

/-- The names that count, with the offsets of their ends. -/
def namesWithEnds (p : Path) : List (Bytes × Nat) :=
  (withEnds 0 (splitSlash p)).filter fun (name, stop) =>
    !name.isEmpty && (name != [dot] || stop == 1)

/-- The names that count, from the outermost on. -/
def names (p : Path) : List Bytes :=
  (namesWithEnds p).map (·.1)

/-- The path without its last name, if it has a name. -/
def parent? (p : Path) : Option Path :=
  match (namesWithEnds p).reverse with
  | [] => none
  | [_] => some (if p.isAbsolute then [slash] else [])
  | _ :: (_, stop) :: _ => some (p.take stop)

/-- `p` and then `q`; an absolute `q` replaces `p`. -/
def join (p q : Path) : Path :=
  if q.isAbsolute then q
  else if p.isEmpty || p.getLast? == some slash then p ++ q
  else p ++ slash :: q

/-- Is it a name of its own, and not one that stands for a directory around it? -/
def isProper (name : Bytes) : Bool :=
  name != [dot] && name != [dot, dot]

/-- The last name, with the offset of its end, if it is a name of its own. -/
def lastName? (p : Path) : Option (Bytes × Nat) :=
  (namesWithEnds p).getLast?.filter fun (name, _) => isProper name

/-- The last name, if it is a name of its own. -/
def fileName? (p : Path) : Option Bytes :=
  p.lastName?.map (·.1)

/-- The part of a name ahead of its last dot and the part behind it, if there is
a dot that is not the first byte. -/
def splitExtension? (name : Bytes) : Option (Bytes × Bytes) :=
  let behind := (name.reverse.takeWhile (· ≠ dot)).reverse
  let ahead := name.length - behind.length - 1
  if behind.length < name.length ∧ ahead ≠ 0 then some (name.take ahead, behind) else none

/-- What follows the last dot of the last name. -/
def extension? (p : Path) : Option Bytes :=
  (p.fileName?.bind splitExtension?).map (·.2)

/-- The path with another extension on its last name. The old extension is cut
off the end first; a path that is left with `..` has no name to extend. -/
def withExtension (p : Path) (extension : Bytes) : Path :=
  let cut : Path := p.take (p.length - (p.extension?.getD []).length)
  match cut.lastName? with
  | none => cut
  | some (name, stop) =>
    let stem := ((splitExtension? name).map (·.1)).getD name
    cut.take (stop - name.length + stem.length) ++ dot :: extension

end Path

end FrozenApp
