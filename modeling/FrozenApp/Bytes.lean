/-!
# Byte strings

File contents, paths and the strings handed to the interpreter are lists of
bytes. Numbers inside a package are 32 bits wide with the most significant byte
first; numbers inside a configuration record are stored least significant byte
first.
-/

namespace FrozenApp

/-- A byte string. -/
abbrev Bytes := List UInt8

namespace Bytes

/-- The `length` bytes that start at `offset`, fewer where the string ends. -/
def slice (offset length : Nat) (s : Bytes) : Bytes :=
  (s.drop offset).take length

/-- The bytes ahead of the first NUL, all of them if there is none. -/
def cutAtNul (s : Bytes) : Bytes :=
  s.takeWhile (· ≠ 0)

/-- `s` filled up with NULs to `length` bytes. -/
def padTo (length : Nat) (s : Bytes) : Bytes :=
  s ++ List.replicate (length - s.length) 0

/-- A 32-bit number, most significant byte first. -/
def ofUInt32 (n : UInt32) : Bytes :=
  [UInt8.ofNat (n.toNat / 0x1000000), UInt8.ofNat (n.toNat / 0x10000),
    UInt8.ofNat (n.toNat / 0x100), UInt8.ofNat n.toNat]

/-- The number that the first four bytes spell, most significant byte first.
Bytes that are not there count as zero. -/
def uint32At (offset : Nat) (s : Bytes) : UInt32 :=
  UInt32.ofNat ((s.drop offset |>.take 4).foldl (fun n b => n * 256 + b.toNat) 0)

/-- The low `width` bytes of a number, least significant byte first. -/
def littleEndian : Nat → Nat → Bytes
  | 0, _ => []
  | width + 1, n => UInt8.ofNat n :: littleEndian width (n / 256)

/-- The number that bytes spell, least significant byte first. -/
def toNatLittleEndian : Bytes → Nat
  | [] => 0
  | b :: rest => b.toNat + 256 * toNatLittleEndian rest

/-- The UTF-8 form of a text. -/
def ofString (s : String) : Bytes :=
  s.toList.flatMap String.utf8EncodeChar

end Bytes

end FrozenApp
