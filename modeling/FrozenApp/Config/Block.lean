import FrozenApp.Bytes
/-!
# Blocks of memory

The configuration record is a block of bytes whose size its layout gives. Plain
numbers are written into it at their offsets, least significant byte first.
-/

namespace FrozenApp.Config

/-- A block of so many bytes. -/
abbrev Block (size : Nat) := Vector UInt8 size

namespace Block

variable {size : Nat}

/-- A block of zeros. -/
def zero : Block size := Vector.replicate size 0

/-- The block with `bytes` written at an offset, as far as they lie within it. -/
def write (b : Block size) (offset : Nat) (bytes : Bytes) : Block size :=
  Vector.ofFn fun i =>
    if offset ≤ i.val ∧ i.val < offset + bytes.length then bytes.getD (i.val - offset) 0
    else b[i]

/-- Write an `int`. -/
def setInt (b : Block size) (offset : Nat) (value : Int32) : Block size :=
  b.write offset (Bytes.littleEndian 4 value.toUInt32.toNat)

/-- Write an `unsigned long`. -/
def setUnsignedLong (b : Block size) (offset : Nat) (value : UInt64) : Block size :=
  b.write offset (Bytes.littleEndian 8 value.toNat)

/-- Read an `int`. -/
def int (b : Block size) (offset : Nat) : Int32 :=
  (UInt32.ofNat (Bytes.toNatLittleEndian (Bytes.slice offset 4 b.toList))).toInt32

/-- Every fourth offset with the `int` there. -/
def words (b : Block size) : List (Nat × Int32) :=
  (List.range (size / 4)).map fun i => (4 * i, b.int (4 * i))

end Block

end FrozenApp.Config
