import FrozenApp.Zlib.Adler32
/-!
# Zlib streams of stored blocks

Any content can be put into a zlib stream by storing it in blocks of up to 65535
bytes.
-/

namespace FrozenApp.Zlib

/-- The most bytes that a stored block holds. -/
def storedMax : Nat := 65535

/-- A stored block. -/
def storedBytes (last : Bool) (content : Bytes) : Bytes :=
  (if last then 1 else 0) :: Bytes.littleEndian 2 content.length ++
    Bytes.littleEndian 2 (65535 - content.length) ++ content

/-- Stored blocks for a content. -/
def storedBlocks (content : Bytes) : Bytes :=
  if content.length ≤ storedMax then storedBytes true content
  else storedBytes false (content.take storedMax) ++ storedBlocks (content.drop storedMax)
termination_by content.length
decreasing_by simp only [List.length_drop, storedMax] at *; omega

/-- A zlib stream with a content. -/
def store (content : Bytes) : Bytes :=
  [0x78, 0x01] ++ storedBlocks content ++ Bytes.ofUInt32 (adler32 content)

end FrozenApp.Zlib
