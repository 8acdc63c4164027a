import FrozenApp.FileTree
import FrozenApp.Package.Cookie
import FrozenApp.Zlib.Store
/-!
# Building a package

A package is built by adding entries one by one: first come the payloads, then
the table of contents, then the cookie. A step that fails adds nothing.

`Builder.addRaw` and `Builder.toBytes` say what comes of it. `Builder.push` changes the
builder in place instead, and `Builder.toBytesWords` writes as it goes along, in words
of 32 bits.
-/

namespace FrozenApp.Package

/-- An entry that waits to be written. -/
structure Pending where
  kind : Kind
  name : String
  /-- The bytes that go into the package. -/
  stored : Bytes
  uncompressedLength : UInt32
  compressed : Bool
  deriving Repr, DecidableEq

/-- A package that is being built. -/
structure Builder where
  version : UInt32
  libraryName : String
  /-- The entries in the order they were added. -/
  entries : List Pending
  deriving Repr, DecidableEq

/-- Why a package cannot be built or written. -/
inductive BuildError where
  /-- A name with a NUL would end at it. -/
  | nulInName (name : String)
  | entryTooLarge (name : String)
  /-- The field for the library's name has no room for a NUL behind it. -/
  | libraryNameTooLong (name : String)
  | packageTooLarge
  | write (path : Path) (e : FileError)
  | openForAppend (path : Path) (e : FileError)
  deriving Repr, DecidableEq

/-- Why a number does not go into 32 bits. -/
def tooLarge : String := "number too large to fit in target type"

/-- What happened, then its cause. -/
def BuildError.chain : BuildError → List String
  | .nulInName name => [s!"entry name contains NUL: {Text.quote name}"]
  | .entryTooLarge name => [s!"entry too large: {name}", tooLarge]
  | .libraryNameTooLong name =>
    [s!"python library name longer than {libraryNameLength - 1} bytes: {name}"]
  | .packageTooLarge => ["archive exceeds 4 GiB", tooLarge]
  | .write path e => [s!"write archive: {path.display}", e.message]
  | .openForAppend path e => [s!"open for append: {path.display}", e.message]

/-- A program that changes a builder and may fail. -/
abbrev BuildM := ExceptT BuildError (StateM Builder)

namespace Builder

/-- A package without entries. -/
def new (version : UInt32) (libraryName : String) : Builder :=
  { version, libraryName, entries := [] }

/-- Add an entry whose bytes are stored as they are, with the length that it is
to have once inflated. -/
def addRaw (b : Builder) (kind : Kind) (name : String) (stored : Bytes)
    (uncompressedLength : Nat) (compressed : Bool) : Except BuildError Builder :=
  if name.contains '\x00' then .error (.nulInName name)
  else if UInt32.size ≤ uncompressedLength then .error (.entryTooLarge name)
  else
    let uncompressedLength := UInt32.ofNat uncompressedLength
    .ok { b with entries := b.entries ++ [{ kind, name, stored, uncompressedLength, compressed }] }

/-- `addRaw` on a builder that is changed in place. -/
def push (kind : Kind) (name : String) (stored : Bytes) (size : Nat) (isCompressed : Bool) :
    BuildM Unit := do
  if name.contains '\x00' then throw (.nulInName name)
  if UInt32.size ≤ size then throw (.entryTooLarge name)
  modify fun b =>
    { b with entries := b.entries ++ [⟨kind, name, stored, UInt32.ofNat size, isCompressed⟩] }

/-- Add an entry without compression. -/
def add (b : Builder) (kind : Kind) (name : String) (payload : Bytes) :
    Except BuildError Builder :=
  b.addRaw kind name payload payload.length false

/-- Add an entry as a zlib stream, which `compress` makes of its content. -/
def addCompressed (b : Builder) (kind : Kind) (name : String) (payload : Bytes)
    (compress : Bytes → Bytes := Zlib.store) : Except BuildError Builder :=
  b.addRaw kind name (compress payload) payload.length true

/-- Add an option, which has no payload. -/
def addOption (b : Builder) (option : String) : Except BuildError Builder :=
  b.add .option option []

/-- The payloads, one behind the other. -/
def payloads (b : Builder) : Bytes :=
  b.entries.flatMap (·.stored)

/-- The record of an entry whose payload starts at `offset`. -/
def record (offset : Nat) (e : Pending) : Bytes :=
  let name := Bytes.ofString e.name
  let length := recordLength name.length
  (Bytes.ofUInt32 (UInt32.ofNat length) ++ Bytes.ofUInt32 (UInt32.ofNat offset) ++
    Bytes.ofUInt32 (UInt32.ofNat e.stored.length) ++ Bytes.ofUInt32 e.uncompressedLength ++
    [if e.compressed then 1 else 0, e.kind.code] ++ name).padTo length

/-- The records of entries whose payloads start at `offset`. -/
def records (offset : Nat) : List Pending → Bytes
  | [] => []
  | e :: rest => record offset e ++ records (offset + e.stored.length) rest

/-- The table of contents. -/
def toc (b : Builder) : Bytes :=
  records 0 b.entries

/-- The cookie behind payloads and a table of contents of the given lengths. -/
def cookie (b : Builder) (tocOffset tocLength : Nat) : Bytes :=
  cookieMagic ++ Bytes.ofUInt32 (UInt32.ofNat (tocOffset + tocLength + cookieLength)) ++
    Bytes.ofUInt32 (UInt32.ofNat tocOffset) ++ Bytes.ofUInt32 (UInt32.ofNat tocLength) ++
    Bytes.ofUInt32 b.version ++ (Bytes.ofString b.libraryName).padTo libraryNameLength

/-- The bytes of the package. -/
def toBytes (b : Builder) : Except BuildError Bytes :=
  if libraryNameLength ≤ (Bytes.ofString b.libraryName).length then
    .error (.libraryNameTooLong b.libraryName)
  else
    let payloads := b.payloads
    let toc := b.toc
    if UInt32.size ≤ payloads.length + toc.length + cookieLength then .error .packageTooLarge
    else .ok (payloads ++ toc ++ b.cookie payloads.length toc.length)

/-- Write the package as a file of its own. -/
def writeTo (b : Builder) (path : Path) : FileM BuildError Unit := do
  match b.toBytes with
  | .error e => throw e
  | .ok bytes => (FileM.writeFile path bytes).adapt (.write path)

/-- Append the package to a file that is there. -/
def appendTo (b : Builder) (path : Path) : FileM BuildError Unit := do
  match b.toBytes with
  | .error e => throw e
  | .ok bytes => (FileM.appendFile path bytes).adapt (.openForAppend path)

end Builder

/-! ## Written in words of 32 bits -/

/-- A number as a word, if it fits into one. -/
def checkedWord (n : Nat) : Except BuildError UInt32 :=
  if n < UInt32.size then .ok (UInt32.ofNat n) else .error .packageTooLarge

/-- Write payloads behind `out`. Where each of them starts is kept, and has to fit into a word. -/
def writePayloads (out : Bytes) : List Pending → Except BuildError (List UInt32 × Bytes)
  | [] => .ok ([], out)
  | p :: ps => do
    let offset ← checkedWord out.length
    let (offsets, out) ← writePayloads (out ++ p.stored) ps
    .ok (offset :: offsets, out)

/-- Cut a string, or fill it up with NULs. -/
def resize (length : Nat) (s : Bytes) : Bytes :=
  Bytes.padTo length (s.take length)

/-- Write the record of an entry behind `out`. The two lengths become words unchecked. -/
def writeRecord (out : Bytes) (p : Pending) (offset : UInt32) : Bytes :=
  let length := recordLength (Bytes.ofString p.name).length
  resize (out.length + length)
    (out ++ Bytes.ofUInt32 (UInt32.ofNat length) ++ Bytes.ofUInt32 offset ++
      Bytes.ofUInt32 (UInt32.ofNat p.stored.length) ++ Bytes.ofUInt32 p.uncompressedLength ++
      [if p.compressed then 1 else 0, p.kind.code] ++ Bytes.ofString p.name)

/-- Write the records of entries behind `out`, each with the place of its payload. -/
def writeRecords (out : Bytes) : List (Pending × UInt32) → Bytes
  | [] => out
  | (p, offset) :: rest => writeRecords (writeRecord out p offset) rest

/-- Write the table and the cookie behind the payloads in `out`. The length of the table is
a difference of words, which would wrap. -/
def Builder.finish (b : Builder) (offsets : List UInt32) (out : Bytes) : Except BuildError Bytes := do
  let tocOffset ← checkedWord out.length
  let out := writeRecords out (b.entries.zip offsets)
  let tocEnd ← checkedWord out.length
  let tocLength := tocEnd - tocOffset
  let packageLength ← checkedWord (out.length + cookieLength)
  .ok (out ++ (cookieMagic ++ Bytes.ofUInt32 packageLength ++ Bytes.ofUInt32 tocOffset ++
    Bytes.ofUInt32 tocLength ++ Bytes.ofUInt32 b.version ++
    (Bytes.ofString b.libraryName).padTo libraryNameLength))

/-- `Builder.toBytes` as it goes along: what is written grows, and each number is made a word
where it is known. -/
def Builder.toBytesWords (b : Builder) : Except BuildError Bytes :=
  if libraryNameLength ≤ (Bytes.ofString b.libraryName).length then
    .error (.libraryNameTooLong b.libraryName)
  else do
    let (offsets, out) ← writePayloads [] b.entries
    b.finish offsets out

/-! ## Steps -/

/-- A call that adds an entry. -/
inductive Step where
  | add (kind : Kind) (name : String) (payload : Bytes)
  | compressed (kind : Kind) (name : String) (payload : Bytes)
  | option (text : String)
  | raw (kind : Kind) (name : String) (stored : Bytes) (size : Nat) (isCompressed : Bool)
  deriving Repr, DecidableEq

namespace Step

def kind : Step → Kind
  | add kind .. | compressed kind .. | raw kind .. => kind
  | option _ => .option

def name : Step → String
  | add _ name _ | compressed _ name _ | raw _ name .. => name
  | option text => text

/-- The length that the entry gives. -/
def size : Step → Nat
  | add _ _ payload | compressed _ _ payload => payload.length
  | option _ => 0
  | raw _ _ _ size _ => size

def isCompressed : Step → Bool
  | add .. | option _ => false
  | compressed .. => true
  | raw _ _ _ _ isCompressed => isCompressed

/-- The bytes that go into the package. -/
def stored (compress : Bytes → Bytes) : Step → Bytes
  | add _ _ payload => payload
  | compressed _ _ payload => compress payload
  | option _ => []
  | raw _ _ stored .. => stored

/-- Take the step. -/
def run (compress : Bytes → Bytes) (b : Builder) : Step → Except BuildError Builder
  | add kind name payload => b.add kind name payload
  | compressed kind name payload => b.addCompressed kind name payload compress
  | option text => b.addOption text
  | raw kind name stored size isCompressed => b.addRaw kind name stored size isCompressed

/-- Take the step in place. -/
def take (compress : Bytes → Bytes) : Step → BuildM Unit
  | add kind name payload => Builder.push kind name payload payload.length false
  | compressed kind name payload => Builder.push kind name (compress payload) payload.length true
  | option text => Builder.push .option text [] 0 false
  | raw kind name stored size isCompressed => Builder.push kind name stored size isCompressed

end Step

/-- Take steps, up to the first that fails. -/
def build (compress : Bytes → Bytes) (b : Builder) (steps : List Step) :
    Except BuildError Builder :=
  steps.foldlM (fun b s => s.run compress b) b

/-- Take all steps in place, whether they fail or not; their outcomes. -/
def attempt (compress : Bytes → Bytes) (steps : List Step) :
    StateM Builder (List (Except BuildError Unit)) :=
  steps.mapM fun s => (s.take compress).run

end FrozenApp.Package
