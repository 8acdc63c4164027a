import FrozenApp.Text.Quoted
/-!
# Values that are handed over

The interpreter takes strings that end at a NUL, so a value with a NUL inside
cannot be handed over. Data comes with its length, a signed number of 64 bits.
-/

namespace FrozenApp.Interpreter

/-- A value holds a NUL. -/
structure InteriorNul where
  value : Bytes
  deriving Repr, DecidableEq

/-- Where the first NUL is. -/
def InteriorNul.cause (e : InteriorNul) : String :=
  s!"nul byte found in provided data at position: {e.value.cutAtNul.length}"

/-- What happened, then its cause. -/
def InteriorNul.chain (e : InteriorNul) : List String :=
  [s!"interior NUL in {Text.quoteBytes e.value}", e.cause]

/-- A value that can be handed over. -/
def terminated (value : Bytes) : Except InteriorNul Bytes :=
  if value.contains 0 then .error ⟨value⟩ else .ok value

/-- The length of data as it is handed over, if there is such a number. -/
def signedLength? (data : Bytes) : Option Int64 :=
  if data.length < 0x8000000000000000 then some (Int64.ofNat data.length) else none

/-- What is wrong with a length for which there is none. -/
def outOfRange : String := "out of range integral type conversion attempted"

end FrozenApp.Interpreter
