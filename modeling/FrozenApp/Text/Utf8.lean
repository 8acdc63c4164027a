import FrozenApp.Bytes
/-!
# UTF-8

A byte string splits into well-formed characters and broken parts, each broken
part as long as it can be while still being the start of a character
(`Utf8.parts`). Strict decoding (`Utf8.decode`) stops at the first broken part
and says where it is; lenient decoding (`Utf8.lossy`) puts one U+FFFD in its
place.
-/

namespace FrozenApp

namespace Utf8

/-- What a byte string starts with, and the number of bytes beyond the first. -/
inductive Lead where
  /-- A well-formed character. -/
  | char (c : Char) (more : Nat)
  /-- The start of a character with a byte after it that does not belong there,
  or a byte that starts no character. -/
  | broken (more : Nat)
  /-- The start of a character, cut short by the end of the string. -/
  | cut (more : Nat)
  deriving Repr, DecidableEq

/-- Is this a byte that continues a character? -/
def isTail (b : UInt8) : Bool := 0x80 ≤ b && b ≤ 0xBF

/-- The range of the second byte after a first byte that starts a longer
character. It leaves out spellings that are longer than needed, surrogates and
numbers beyond the last code point. -/
def secondRange (first : UInt8) : UInt8 × UInt8 :=
  if first = 0xE0 then (0xA0, 0xBF)
  else if first = 0xED then (0x80, 0x9F)
  else if first = 0xF0 then (0x90, 0xBF)
  else if first = 0xF4 then (0x80, 0x8F)
  else (0x80, 0xBF)

/-- The payload bits of a byte that continues a character. -/
def tailBits (b : UInt8) : Nat := b.toNat % 64

/-- Classify the first byte of a string by what follows it. -/
def lead (first : UInt8) (rest : Bytes) : Lead :=
  let (low, high) := secondRange first
  if first < 0x80 then .char (Char.ofNat first.toNat) 0
  else if first < 0xC2 || 0xF4 < first then .broken 0
  else
    match rest with
    | [] => .cut 0
    | b :: rest =>
      if b < low || high < b then .broken 0
      else if first < 0xE0 then
        .char (Char.ofNat (first.toNat % 32 * 64 + tailBits b)) 1
      else
        match rest with
        | [] => .cut 1
        | c :: rest =>
          if !isTail c then .broken 1
          else if first < 0xF0 then
            .char (Char.ofNat (first.toNat % 16 * 4096 + tailBits b * 64 + tailBits c)) 2
          else
            match rest with
            | [] => .cut 2
            | d :: _ =>
              if !isTail d then .broken 2
              else
                .char (Char.ofNat (first.toNat % 8 * 262144 + tailBits b * 4096 +
                  tailBits c * 64 + tailBits d)) 3

/-- A piece of a byte string that is meant to be UTF-8. -/
inductive Part where
  /-- A well-formed character. -/
  | char (c : Char)
  /-- Bytes that are no character; `atEnd` if more bytes could have completed
  one. -/
  | broken (bytes : Bytes) (atEnd : Bool)
  deriving Repr, DecidableEq

/-- The characters and broken parts of a byte string, in order. -/
def parts : Bytes → List Part
  | [] => []
  | b :: rest =>
    match lead b rest with
    | .char c more => .char c :: parts (rest.drop more)
    | .broken more => .broken (b :: rest.take more) false :: parts (rest.drop more)
    | .cut more => .broken (b :: rest.take more) true :: parts (rest.drop more)
termination_by s => s.length
decreasing_by all_goals simp only [List.length_cons, List.length_drop]; omega

/-- Why a byte string is not UTF-8. -/
inductive Fault where
  /-- A sequence of `count` bytes at `index` is no character. -/
  | invalid (count index : Nat)
  /-- The string ends inside the character that starts at `index`. -/
  | incomplete (index : Nat)
  deriving Repr, DecidableEq

/-- The wording of a fault. -/
def Fault.message : Fault → String
  | .invalid count index => s!"invalid utf-8 sequence of {count} bytes from index {index}"
  | .incomplete index => s!"incomplete utf-8 byte sequence from index {index}"

/-- The characters of parts that are all well formed, or the first broken one,
where `index` is the place of the first part. -/
def charsOfParts (index : Nat) : List Part → Except Fault (List Char)
  | [] => .ok []
  | .char c :: rest => (charsOfParts (index + c.utf8Size) rest).map (c :: ·)
  | .broken bytes atEnd :: _ =>
    .error (if atEnd then .incomplete index else .invalid bytes.length index)

/-- The text that a byte string spells. -/
def decode (s : Bytes) : Except Fault String :=
  (charsOfParts 0 (parts s)).map String.ofList

/-- The text that a byte string spells, with U+FFFD for each broken part. -/
def lossy (s : Bytes) : String :=
  String.ofList ((parts s).map fun
    | .char c => c
    | .broken _ _ => '\uFFFD')

end Utf8

end FrozenApp
