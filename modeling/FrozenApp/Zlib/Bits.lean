import FrozenApp.Bytes
/-!
# Bit strings

A deflate stream is a string of bits: the bytes in order, each from its least
significant bit on. Numbers in it come least significant bit first.
-/

namespace FrozenApp.Zlib

/-- Why a stream cannot be inflated. -/
inductive Fault where
  /-- The stream ends before it is complete. -/
  | incomplete
  /-- The stream breaks a rule of the format. -/
  | corrupt
  deriving Repr, DecidableEq

/-- The wording of a fault. -/
def Fault.message : Fault → String
  | .incomplete => "incomplete deflate stream"
  | .corrupt => "corrupt deflate stream"

/-- A bit string. -/
abbrev Bits := List Bool

namespace Bits

/-- The bits of a byte, the least significant one first. -/
def ofByte (b : UInt8) : Bits :=
  (List.range 8).map b.toNat.testBit

/-- The bits of a byte string. -/
def ofBytes (s : Bytes) : Bits :=
  s.flatMap ofByte

/-- Take a number of `width` bits off the front. -/
def number : Nat → Bits → Except Fault (Nat × Bits)
  | 0, bits => .ok (0, bits)
  | _ + 1, [] => .error .incomplete
  | width + 1, b :: rest =>
    match number width rest with
    | .ok (n, rest) => .ok (b.toNat + 2 * n, rest)
    | .error e => .error e

/-- Skip to the next byte. The length is a whole number of bytes at the start,
so what is left over tells where in a byte the reading stands. -/
def align (bits : Bits) : Bits :=
  bits.drop (bits.length % 8)

end Bits

end FrozenApp.Zlib
