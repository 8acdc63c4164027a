import FrozenApp.Package.Entry
/-!
# Reading the table of contents

`Toc.parse` splits the table into its records. It fails at the first record that
is too short for its header, whose length does not fit, or whose name is not
UTF-8. `Toc.parseWithin` does the same within a bound on the number of records.
-/

namespace FrozenApp.Package

/-- Why a table of contents cannot be read; `position` is where the record starts. -/
inductive TocError where
  | truncated (position : Nat)
  | malformed (position length : Nat)
  | badName (position : Nat) (fault : Utf8.Fault)
  deriving Repr, DecidableEq

/-- What happened, then its cause. -/
def TocError.chain : TocError → List String
  | .truncated position => [s!"truncated TOC entry at offset {position}"]
  | .malformed position length =>
    [s!"malformed TOC entry at offset {position}: entry length {length}"]
  | .badName position fault =>
    [s!"name of TOC entry at offset {position}", "invalid UTF-8", fault.message]

/-- The text of a field that ends at its first NUL. -/
def fieldText (field : Bytes) : Except Utf8.Fault String :=
  Utf8.decode field.cutAtNul

namespace Toc

/-- The length that a record gives for itself. -/
def statedLength (s : Bytes) : Nat :=
  (s.uint32At 0).toNat

/-- The entry in a record with a given name. -/
def entryOf (record : Bytes) (name : String) : Entry where
  offset := record.uint32At 4
  length := record.uint32At 8
  uncompressedLength := record.uint32At 12
  compressed := record.getD 16 0 == 1
  kind := .ofCode (record.getD 17 0)
  name

/-- The entries of a table, where `position` is the place of its first record. -/
def parseFrom (position : Nat) (s : Bytes) : Except TocError (List Entry) :=
  if s.isEmpty then .ok []
  else if s.length < recordHeaderLength then .error (.truncated position)
  else
    let length := statedLength s
    if _h : length < recordHeaderLength ∨ s.length < length then
      .error (.malformed position length)
    else
      match fieldText ((s.take length).drop recordHeaderLength) with
      | .error fault => .error (.badName position fault)
      | .ok name =>
        match parseFrom (position + length) (s.drop length) with
        | .error e => .error e
        | .ok entries => .ok (entryOf s name :: entries)
termination_by s.length
decreasing_by simp only [List.length_drop, recordHeaderLength] at *; omega

/-- The entries of a table. -/
def parse (s : Bytes) : Except TocError (List Entry) :=
  parseFrom 0 s

/-- `parseFrom` with a bound on the number of records that are looked at. It gives up
where they do not suffice. -/
def parseWithin : (rounds position : Nat) → Bytes → Option (Except TocError (List Entry))
  | 0, _, s => if s.isEmpty then some (.ok []) else none
  | rounds + 1, position, s =>
    if s.isEmpty then some (.ok [])
    else if s.length < recordHeaderLength then some (.error (.truncated position))
    else
      let length := statedLength s
      if length < recordHeaderLength ∨ s.length < length then
        some (.error (.malformed position length))
      else
        match fieldText ((s.take length).drop recordHeaderLength) with
        | .error fault => some (.error (.badName position fault))
        | .ok name => (parseWithin rounds (position + length) (s.drop length)).map fun rest =>
          rest.map (entryOf s name :: ·)

end Toc

end FrozenApp.Package
