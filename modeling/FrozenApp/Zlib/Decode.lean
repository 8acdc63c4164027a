import FrozenApp.Zlib.Adler32
import FrozenApp.Zlib.Huffman
/-!
# Decoding a zlib stream

`Zlib.decode` undoes the compression of a zlib stream up to its checksum; what
follows the checksum does not matter. A match may reach back beyond the start of
the output: the window ahead of it counts as zeros. Where a stream ends early or
breaks a rule, what was decoded up to there remains.
-/

namespace FrozenApp.Zlib

/-- How far decoding has come. -/
structure Progress where
  /-- What is still to be read. -/
  bits : Bits
  /-- What has come out. -/
  out : Array UInt8
  /-- Are the bytes of a stored block being copied? -/
  copying : Bool

/-- A step of decoding. Where it fails, what has come out so far remains. -/
abbrev Decoder := ExceptT Fault (StateM Progress)

/-- Take something off the front of what is still to be read. -/
def Decoder.take {α : Type} (read : Bits → Except Fault (α × Bits)) : Decoder α := do
  match read (← get).bits with
  | .ok (a, bits) =>
    modify fun p => { p with bits }
    return a
  | .error fault => throw fault

/-- Take a number of `width` bits. -/
def Decoder.number (width : Nat) : Decoder Nat :=
  Decoder.take (Bits.number width)

/-- Skip to the next byte. -/
def Decoder.align : Decoder Unit :=
  modify fun p => { p with bits := p.bits.align }

/-- Add a byte to the output. -/
def Decoder.write (b : UInt8) : Decoder Unit :=
  modify fun p => { p with out := p.out.push b }

/-- The byte that stands `distance` from the end of an output. -/
def byteBack (distance : Nat) (out : Array UInt8) : UInt8 :=
  if distance ≤ out.size then out.getD (out.size - distance) 0 else 0

/-- Repeat `length` bytes from `distance` back. -/
def copyBack (distance : Nat) : Nat → Decoder Unit
  | 0 => return
  | length + 1 => do
    Decoder.write (byteBack distance (← get).out)
    copyBack distance length

/-- The least length of each length symbol, from 257 on, with the number of bits
that are added to it. -/
def lengthTable : List (Nat × Nat) :=
  [(3, 0), (4, 0), (5, 0), (6, 0), (7, 0), (8, 0), (9, 0), (10, 0), (11, 1), (13, 1), (15, 1),
    (17, 1), (19, 2), (23, 2), (27, 2), (31, 2), (35, 3), (43, 3), (51, 3), (59, 3), (67, 4),
    (83, 4), (99, 4), (115, 4), (131, 5), (163, 5), (195, 5), (227, 5), (258, 0)]

/-- The least distance of each distance symbol, with the number of bits that are
added to it. -/
def distanceTable : List (Nat × Nat) :=
  [(1, 0), (2, 0), (3, 0), (4, 0), (5, 1), (7, 1), (9, 2), (13, 2), (17, 3), (25, 3), (33, 4),
    (49, 4), (65, 5), (97, 5), (129, 6), (193, 6), (257, 7), (385, 7), (513, 8), (769, 8),
    (1025, 9), (1537, 9), (2049, 10), (3073, 10), (4097, 11), (6145, 11), (8193, 12), (12289, 12),
    (16385, 13), (24577, 13)]

/-- Take the number that a symbol of a table starts. -/
def extended (table : List (Nat × Nat)) (symbol : Nat) : Decoder Nat :=
  match table[symbol]? with
  | none => throw .corrupt
  | some (least, width) => do return least + (← Decoder.number width)

/-- Read the literals and matches of a block to its end. Every round takes bits,
so their number bounds the rounds. -/
def symbols (literals distances : Code) : Nat → Decoder Unit
  | 0 => throw .incomplete
  | rounds + 1 => do
    let symbol ← Decoder.take literals.symbol
    if symbol < 256 then
      Decoder.write (UInt8.ofNat symbol)
      symbols literals distances rounds
    else if symbol = 256 then
      return
    else
      let length ← extended lengthTable (symbol - 257)
      let distance ← extended distanceTable (← Decoder.take distances.symbol)
      copyBack distance length
      symbols literals distances rounds

/-- The code that lengths describe. -/
def codeOf (lengths : List Nat) : Decoder Code :=
  match Code.ofLengths? lengths with
  | some code => return code
  | none => throw .corrupt

/-- A block with the codes of these lengths. -/
def codedBlock (literals distances : List Nat) : Decoder Unit := do
  let distances ← codeOf distances
  let literals ← codeOf literals
  symbols literals distances ((← get).bits.length + 1)

/-- The lengths of the words for literals and match lengths in a block that
brings no codes along. -/
def fixedLiterals : List Nat :=
  List.replicate 144 8 ++ List.replicate 112 9 ++ List.replicate 24 7 ++ List.replicate 8 8

/-- The lengths of the words for distances in a block that brings no codes along. -/
def fixedDistances : List Nat :=
  List.replicate 32 5

/-- Copy the bytes of a stored block. -/
def copyStored : Nat → Decoder Unit
  | 0 => return
  | length + 1 => do
    Decoder.write (UInt8.ofNat (← Decoder.number 8))
    copyStored length

/-- A stored block: the length, its complement, and the bytes. -/
def storedBlock : Decoder Unit := do
  Decoder.align
  let length ← Decoder.number 16
  let complement ← Decoder.number 16
  if length + complement ≠ 65535 then throw .corrupt
  modify fun p => { p with copying := true }
  copyStored length
  modify fun p => { p with copying := false }

/-- The order in which the lengths of the code for code lengths are listed. -/
def lengthOrder : List Nat :=
  [16, 17, 18, 0, 8, 7, 9, 6, 10, 5, 11, 4, 12, 3, 13, 2, 14, 1, 15]

/-- Take `count` three-bit numbers. -/
def triples : Nat → Decoder (List Nat)
  | 0 => return []
  | count + 1 => do
    let n ← Decoder.number 3
    return n :: (← triples count)

/-- The lengths that a symbol of the code for code lengths stands for, where
`latest` is the one ahead of them. -/
def runOf (latest : Option Nat) (symbol : Nat) : Decoder (List Nat) := do
  if symbol < 16 then return [symbol]
  else if symbol = 16 then
    match latest with
    | none => throw .corrupt
    | some length => return List.replicate ((← Decoder.number 2) + 3) length
  else if symbol = 17 then return List.replicate ((← Decoder.number 3) + 3) 0
  else return List.replicate ((← Decoder.number 7) + 11) 0

/-- Read `total` code lengths. `read` holds those read so far, from the latest
on. Every round adds one at least, so `total` bounds the rounds. -/
def codeLengths (code : Code) (total : Nat) : Nat → List Nat → Decoder (List Nat)
  | rounds, read =>
    if total < read.length then throw .corrupt
    else if total = read.length then return read.reverse
    else
      match rounds with
      | 0 => throw .corrupt
      | rounds + 1 => do
        let run ← runOf read.head? (← Decoder.take code.symbol)
        codeLengths code total rounds (run ++ read)

/-- A block that brings its codes along. The code for code lengths has to use up
all words. -/
def dynamicBlock : Decoder Unit := do
  let literals := (← Decoder.number 5) + 257
  let distances := (← Decoder.number 5) + 1
  let listed := (← Decoder.number 4) + 4
  if 286 < literals ∨ 30 < distances then throw .corrupt
  let listed := lengthOrder.zip (← triples listed)
  let lengths := (List.range 19).map fun symbol => (listed.lookup symbol).getD 0
  if !Code.isFull lengths then throw .corrupt
  let total := literals + distances
  let all ← codeLengths (← codeOf lengths) total total []
  codedBlock (all.take literals) (all.drop literals)

/-- Read blocks to the last one. Every round takes bits, so their number bounds
the rounds. -/
def blocks : Nat → Decoder Unit
  | 0 => throw .incomplete
  | rounds + 1 => do
    let last ← Decoder.number 1
    match ← Decoder.number 2 with
    | 0 => storedBlock
    | 1 => codedBlock fixedLiterals fixedDistances
    | 2 => dynamicBlock
    | _ => throw .corrupt
    if last = 0 then blocks rounds

/-- Are these the two bytes that start a stream with a window of 32 KiB at most
and without a preset dictionary? -/
def isHeader (method flags : Nat) : Bool :=
  (method * 256 + flags) % 31 == 0 && flags / 32 % 2 == 0 && method % 16 == 8 && method / 16 ≤ 7

/-- Read a stream: the header, the blocks and the checksum of the output. -/
def stream : Decoder Unit := do
  let method ← Decoder.number 8
  let flags ← Decoder.number 8
  if !isHeader method flags then throw .corrupt
  blocks ((← get).bits.length + 1)
  Decoder.align
  let a ← Decoder.number 8
  let b ← Decoder.number 8
  let c ← Decoder.number 8
  let d ← Decoder.number 8
  let sums := (← get).out.foldl adlerStep adlerStart
  if ((a * 256 + b) * 256 + c) * 256 + d ≠ (adlerSum sums).toNat then throw .corrupt

/-- What comes out of a stream. -/
structure Reading where
  content : Array UInt8
  /-- Why it ends, unless it ends with a checksum that is right. -/
  fault? : Option Fault
  /-- Does it end among the bytes of a stored block? -/
  copying : Bool
  deriving Repr, DecidableEq

/-- All that can be decoded of a stream. -/
def decode (compressed : Bytes) : Reading :=
  match stream.run ⟨Bits.ofBytes compressed, #[], false⟩ with
  | (.ok _, p) => ⟨p.out, none, p.copying⟩
  | (.error fault, p) => ⟨p.out, some fault, p.copying⟩

end FrozenApp.Zlib
