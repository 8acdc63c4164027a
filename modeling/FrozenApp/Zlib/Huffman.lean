import FrozenApp.Zlib.Bits
/-!
# Huffman codes

A code is given by the lengths of its code words, one per symbol, where zero
means that the symbol is not used. Shorter words come first, and words of one
length ascend with their symbols. Reading a symbol walks the tree of words.
-/

namespace FrozenApp.Zlib

/-- The longest code word. -/
def maxCodeLength : Nat := 15

/-- The code words as paths from the root. -/
inductive Code where
  /-- No word starts with the path. -/
  | unused
  /-- The path is the word of a symbol. -/
  | word (symbol : Nat)
  /-- Words continue with a bit. -/
  | fork (zero one : Code)
  deriving Repr

namespace Code

/-- Make a path the word of a symbol. -/
def insert (symbol : Nat) : List Bool → Code → Code
  | [], _ => .word symbol
  | false :: path, .fork zero one => .fork (insert symbol path zero) one
  | true :: path, .fork zero one => .fork zero (insert symbol path one)
  | false :: path, _ => .fork (insert symbol path .unused) .unused
  | true :: path, _ => .fork .unused (insert symbol path .unused)

/-- The `width` bits of a number, the most significant one first. -/
def path (width n : Nat) : List Bool :=
  (List.range width).reverse.map n.testBit

/-- Add the words of one length, for symbols in ascending order. The number is
that of the first word, and comes back as that of the word behind the last. -/
def insertAll (length : Nat) (start : Nat × Code) (symbols : List Nat) : Nat × Code :=
  symbols.foldl (fun (n, code) symbol => (n + 1, code.insert symbol (path length n))) start

/-- The symbols whose words have a length. -/
def symbolsOfLength (lengths : List Nat) (length : Nat) : List Nat :=
  (lengths.zipIdx.filter (·.1 == length)).map (·.2)

/-- How much of the space of words the lengths take up, where the whole is
`1 <<< maxCodeLength`. -/
def volume (lengths : List Nat) : Nat :=
  (lengths.filter (· ≠ 0)).foldl (fun sum length => sum + 1 <<< (maxCodeLength - length)) 0

/-- Do words of these lengths use the space of words up exactly? -/
def isFull (lengths : List Nat) : Bool :=
  volume lengths == 1 <<< maxCodeLength

/-- May a code have words of these lengths? Only a code with one word of one bit,
or without words, may leave some of the space of words unused. -/
def isAllowed (lengths : List Nat) : Bool :=
  isFull lengths || lengths.all (· == 0) || lengths.filter (· ≠ 0) == [1]

/-- The code with these lengths, if there may be one. -/
def ofLengths? (lengths : List Nat) : Option Code :=
  if isAllowed lengths then
    some ((List.range maxCodeLength).foldl (fun (n, code) length =>
      insertAll (length + 1) (2 * n, code) (symbolsOfLength lengths (length + 1)))
        (0, .unused)).2
  else none

/-- Take a symbol off the front: walk from the root along the bits to a word. -/
def symbol : Code → Bits → Except Fault (Nat × Bits)
  | .word symbol, bits => .ok (symbol, bits)
  | _, [] => .error .incomplete
  | .unused, _ => .error .corrupt
  | .fork zero one, b :: rest => if b then one.symbol rest else zero.symbol rest

end Code

end FrozenApp.Zlib
