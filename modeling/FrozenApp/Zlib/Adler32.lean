import FrozenApp.Bytes
/-!
# The Adler-32 checksum

Two sums modulo 65521, the largest prime below 2^16: the bytes, starting from
one, and the running values of that sum.
-/

namespace FrozenApp.Zlib

/-- The modulus of both sums. -/
def adlerModulus : Nat := 65521

/-- Both sums after one more byte. -/
def adlerStep (sums : Nat × Nat) (b : UInt8) : Nat × Nat :=
  let low := (sums.1 + b.toNat) % adlerModulus
  (low, (sums.2 + low) % adlerModulus)

/-- Both sums ahead of the first byte. -/
def adlerStart : Nat × Nat := (1, 0)

/-- The checksum that two sums make. -/
def adlerSum (sums : Nat × Nat) : UInt32 :=
  UInt32.ofNat (sums.2 * 65536 + sums.1)

/-- The checksum of a byte string. -/
def adler32 (s : Bytes) : UInt32 :=
  adlerSum (s.foldl adlerStep adlerStart)

end FrozenApp.Zlib
