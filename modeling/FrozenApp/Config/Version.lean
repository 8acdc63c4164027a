/-!
# Interpreter versions

A package names the interpreter by a tag, a hundred times the major number plus
the minor one.
-/

namespace FrozenApp

/-- The version of an interpreter, by its tag. -/
structure Version where
  tag : UInt32
  deriving Repr, DecidableEq

namespace Version

/-- The version with these numbers. -/
def ofNumbers (major minor : UInt32) : Version := ⟨major * 100 + minor⟩

/-- The number ahead of the point. -/
def major (v : Version) : UInt32 := v.tag / 100

/-- The number behind the point. -/
def minor (v : Version) : UInt32 := v.tag % 100

/-- Both numbers with a point between them. -/
def display (v : Version) : String := s!"{v.major}.{v.minor}"

instance : Ord Version := ⟨fun v w => compare v.tag w.tag⟩

end Version

end FrozenApp
