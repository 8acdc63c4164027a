import FrozenApp.Zlib.Handover
/-!
# Inflating

`Zlib.read` says what a caller is handed who reads a stream, and the fault that
the caller meets then. `Zlib.inflate` gives the content of a stream that should
have a certain size. It looks for one byte more, and meets a fault only if it
wants more than it is handed.
-/

namespace FrozenApp.Zlib

/-- What is handed over of a stream to a caller who expects `size` bytes: all of
it if there is no fault. -/
def read (size : Nat) (compressed : Bytes) : Reading :=
  let reading := decode compressed
  if reading.fault?.isSome then
    { reading with content := reading.content.take (handedOver size compressed) }
  else reading

/-- The first `limit` bytes, or all of them if there are less; then the end has
to be a proper one. -/
def Reading.collect (r : Reading) (limit : Nat) : Except Fault Bytes :=
  if limit ≤ r.content.size then .ok (r.content.take limit).toList
  else
    match r.fault? with
    | some fault => .error fault
    | none => .ok r.content.toList

/-- The content of a zlib stream, or its first `size + 1` bytes if it has so many. -/
def inflate (size : Nat) (compressed : Bytes) : Except Fault Bytes :=
  (read size compressed).collect (size + 1)

end FrozenApp.Zlib
