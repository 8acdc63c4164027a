import FrozenApp.Zlib.Decode
/-!
# Handing over

What is decoded of a stream reaches a caller by the way. Decoding halts when the
window of output is full, so that it can be emptied, and when the piece of the
stream that is at hand is used up. The caller has a buffer, and asks for as much
as the buffer has room for, within bounds that grow with it. A request that is
met by what waits in the window ends there; any other decodes up to the next
halt, and beyond it if the window is empty again and more of the piece is at
hand.

`Zlib.handedOver` says how much of a stream with a fault a caller gets: all the
requests ahead of the one that meets the fault.
-/

namespace FrozenApp.Zlib

/-- How many bytes of output the window holds. -/
def windowSize : Nat := 32768

/-- How many bytes of a stream are at hand together. -/
def pieceSize : Nat := 32768

/-- What follows a halt. -/
inductive Onward where
  /-- More of the piece is at hand. -/
  | goesOn
  /-- The next piece has to be fetched. -/
  | waits
  /-- The stream has ended early, and what a request leaves in the window is lost. -/
  | endsEarly
  deriving Repr, DecidableEq

/-- A halt of decoding. -/
structure Halt where
  /-- How much has come out by then. -/
  size : Nat
  onward : Onward
  deriving Repr, DecidableEq

/-- The sizes between two at which the window is full and more is to come out. -/
def fullWindows (start stop : Nat) : List Nat :=
  ((List.range (stop / windowSize + 1)).map (· * windowSize)).filter fun size =>
    start < size && size < stop

/-- The halts behind `start` in a stream that has a fault. The pieces still to be
decoded are given by their ends. A full window halts ahead of a stored byte and
behind any other item that does not fit; the piece is used up by then if its last
byte belongs to that item. -/
def haltsFrom (compressed : Bytes) : (start : Nat) → (ends : List Nat) → List Halt
  | _, [] => []
  | start, stop :: ends =>
    let reading := decode (compressed.take stop)
    let size := reading.content.size
    let short := decode (compressed.take (stop - 1))
    let isUsedUp := fun size => !short.copying && short.content.size ≤ size
    let full := fullWindows start size
    let within := (full.takeWhile (!isUsedUp ·)).map fun size => Halt.mk size .goesOn
    match full.find? isUsedUp, reading.fault? with
    | some used, some .incomplete =>
      within ++ ⟨used, .waits⟩ ::
        if ends.isEmpty then [⟨size, .endsEarly⟩] else haltsFrom compressed used ends
    | some used, _ => within ++ [⟨used, .waits⟩]
    | none, some .incomplete =>
      within ++ (if start < size then [⟨size, .waits⟩] else []) ++ haltsFrom compressed size ends
    | none, _ => within

/-- The ends of the pieces of a stream. -/
def pieceEnds (length : Nat) : List Nat :=
  (List.range ((length + pieceSize - 1) / pieceSize)).map fun piece =>
    min ((piece + 1) * pieceSize) length

/-- The halts in a stream that has a fault. -/
def halts (compressed : Bytes) : List Halt :=
  haltsFrom compressed 0 (pieceEnds compressed.length)

/-- A stream of which some has been handed over. -/
structure Source where
  /-- How much has been handed over. -/
  handed : Nat
  /-- How much has come out; the rest of it waits in the window. -/
  decoded : Nat
  /-- The halts to come. -/
  halts : List Halt

namespace Source

/-- Decode and hand over until `target` bytes are handed over or decoding waits.
This fails if the fault is met on the way. -/
def decodeTo (target : Nat) : List Halt → Option Source
  | [] => none
  | ⟨size, .goesOn⟩ :: rest =>
    if size < target then decodeTo target rest else some ⟨target, size, rest⟩
  | ⟨size, .waits⟩ :: rest => some ⟨min target size, size, rest⟩
  | ⟨size, .endsEarly⟩ :: rest => some ⟨min target size, min target size, rest⟩

/-- Hand over up to `asked` bytes. -/
def request (asked : Nat) (s : Source) : Option Source :=
  if s.handed < s.decoded then some { s with handed := min (s.handed + asked) s.decoded }
  else decodeTo (s.handed + asked) s.halts

end Source

/-- A buffer that grows with what it takes in. -/
structure Buffer where
  /-- For how much there was room at first. -/
  first : Nat
  /-- For how much there is room. -/
  room : Nat
  /-- How much it asks for at most, once it asks for what it has room for. -/
  most : Nat

namespace Buffer

/-- The most that a buffer has room for at first. -/
def firstMax : Nat := 1048576

/-- How much a buffer asks for when it may not need room for it. -/
def probeSize : Nat := 32

/-- A buffer for an expected size. -/
def ofExpected (size : Nat) : Buffer :=
  ⟨min size firstMax, min size firstMax, 8192⟩

/-- Make room for a size. -/
def grow (b : Buffer) (size : Nat) : Buffer :=
  if b.room < size then { b with room := max (max (2 * b.room) size) 8 } else b

/-- Does a buffer with `size` bytes ask for a little before it grows? It does if it
is very small, or if it has as much as it had room for at first. -/
def probes (b : Buffer) (size : Nat) : Bool :=
  (size == 0 && b.room < probeSize) || (size == b.room && b.room == b.first)

/-- Ask a source once, for no more than `limit` bytes in all. A buffer whose largest
request is met asks for twice as much then. -/
def fetch (limit : Nat) (b : Buffer) (s : Source) : Option (Buffer × Source) := do
  let wanted := limit - s.handed
  if b.probes s.handed then
    let next ← s.request (min probeSize wanted)
    return (b.grow next.handed, next)
  else
    let b := if s.handed = b.room then b.grow (s.handed + probeSize) else b
    let asked := min (b.room - s.handed) b.most
    let next ← s.request (min asked wanted)
    if asked = b.most ∧ next.handed = s.handed + asked then
      return ({ b with most := 2 * b.most }, next)
    else return (b, next)

/-- How much a buffer has when `limit` bytes are in it, or when its source meets a
fault. Every round brings something, so `limit` bounds the rounds. -/
def fill (limit : Nat) : (rounds : Nat) → Buffer → Source → Nat
  | 0, _, s => s.handed
  | rounds + 1, b, s =>
    if limit ≤ s.handed then s.handed
    else
      match b.fetch limit s with
      | none => s.handed
      | some (b, s) => fill limit rounds b s

end Buffer

/-- How much is handed over of a stream that has a fault, to a caller who expects
`size` bytes and looks for one more. -/
def handedOver (size : Nat) (compressed : Bytes) : Nat :=
  (Buffer.ofExpected size).fill (size + 1) (size + 1) ⟨0, 0, halts compressed⟩

end FrozenApp.Zlib
