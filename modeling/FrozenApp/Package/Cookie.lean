import FrozenApp.Package.Toc
/-!
# The cookie at the end of a package

The last 88 bytes of a package are its cookie: a magic, the lengths that locate
the package and its table of contents, the version tag of the interpreter, and
the name of the interpreter's library in a field of 64 bytes.
-/

namespace FrozenApp.Package

/-- The eight bytes of a magic, which differ in one place. -/
def magicWith (marker : UInt8) : Bytes :=
  [0x4D, 0x45, 0x49, marker, 0x0B, 0x0A, 0x0B, 0x0E]

/-- The bytes that start a cookie. -/
def cookieMagic : Bytes := magicWith 0x0C

/-- The bytes that mark an executable whose package lies in a file beside it. -/
def sideloadMagic : Bytes := magicWith 0x0D

/-- The length of a cookie. -/
def cookieLength : Nat := 88

/-- The length of the field for the library's name. -/
def libraryNameLength : Nat := 64

/-- What a cookie says. -/
structure Cookie where
  packageLength : UInt32
  tocOffset : UInt32
  tocLength : UInt32
  version : UInt32
  libraryName : String
  deriving Repr, DecidableEq

/-- Read a cookie's 88 bytes, the magic unseen. -/
def Cookie.parse (raw : Bytes) : Except Utf8.Fault Cookie :=
  (fieldText (raw.slice 24 libraryNameLength)).map fun libraryName =>
    { packageLength := raw.uint32At 8
      tocOffset := raw.uint32At 12
      tocLength := raw.uint32At 16
      version := raw.uint32At 20
      libraryName }

end FrozenApp.Package
