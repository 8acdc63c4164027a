import FrozenApp.Package.Archive
/-!
# Locations of module collections

The interpreter's importer finds a collection by its location: the path of the
archive, a question mark, and the place of the collection in that file as a
decimal number. It splits a location at the last question mark.
-/

namespace FrozenApp.Package

/-- The character between path and place. -/
def locationSeparator : Char := '?'

/-- The location of a place in the file at a path. -/
def location (path : Path) (offset : Nat) : Bytes :=
  path ++ Bytes.ofString (String.singleton locationSeparator ++ toString offset)

/-- The location of a place in the file at a path that is text. -/
def locationText (path : String) (offset : Nat) : String :=
  path ++ String.singleton locationSeparator ++ toString offset

/-- The location of a collection of an archive. -/
def Archive.location (a : Archive) (e : Entry) : Bytes :=
  Package.location a.path (a.absoluteOffset e)

end FrozenApp.Package
