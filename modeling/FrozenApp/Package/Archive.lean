import FrozenApp.Bytes.Search
import FrozenApp.FileTree
import FrozenApp.Package.Cookie
import FrozenApp.Zlib.Inflate
/-!
# Archives

An archive is a file with a package in it, usually appended to an executable.
The last cookie magic in the file decides where the package ends; the cookie
then says where it starts and where its table of contents lies. Payloads are
read from the file when they are asked for. `Archive.parse` counts places in
numbers that do not wrap, `Archive.parseWords` in words.
-/

namespace FrozenApp.Package

/-- Why a file cannot be opened as an archive. -/
inductive OpenError where
  /-- The file cannot be opened. -/
  | unopened (path : Path) (e : FileError)
  /-- The file cannot be searched for a cookie. -/
  | unsearched (path : Path) (e : FileError)
  | noCookie (path : Path)
  /-- The file ends within the cookie. -/
  | shortCookie (position : Nat)
  | badLibraryName (fault : Utf8.Fault)
  /-- The package would start ahead of the file. -/
  | overlong (packageLength : UInt32) (cookieEnd : Nat)
  /-- The table of contents does not lie within the package. -/
  | tocOutside (length offset packageLength : UInt32)
  /-- The file ends within the table of contents. -/
  | shortToc
  | badToc (e : TocError)
  deriving Repr, DecidableEq

/-- What happened, then its causes. -/
def OpenError.chain : OpenError → List String
  | .unopened path e => [s!"open archive: {path.display}", e.message]
  | .unsearched path e => [s!"scan for archive cookie: {path.display}", e.message]
  | .noCookie path => [s!"no archive cookie found in {path.display}"]
  | .shortCookie position =>
    [s!"read archive cookie at offset {position}", FileError.endOfFile.message]
  | .badLibraryName fault =>
    ["python library name in archive cookie", "invalid UTF-8", fault.message]
  | .overlong packageLength cookieEnd =>
    [s!"archive length {packageLength} exceeds cookie end offset {cookieEnd}"]
  | .tocOutside length offset packageLength =>
    [s!"table of contents ({length} bytes at {offset}) extends past the archive ({packageLength} bytes)"]
  | .shortToc => ["read archive table of contents", FileError.endOfFile.message]
  | .badToc e => e.chain

/-- An archive, with its table of contents read. -/
structure Archive where
  path : Path
  /-- Where the package starts in the file. -/
  packageOffset : Nat
  cookie : Cookie
  /-- The entries in the order of the table of contents. -/
  entries : List Entry
  deriving Repr, DecidableEq

namespace Archive

/-- Read the archive in the content of a file. -/
def parse (path : Path) (content : Bytes) : Except OpenError Archive :=
  match content.findLast? cookieMagic with
  | none => .error (.noCookie path)
  | some position =>
    let cookieEnd := position + cookieLength
    if content.length < cookieEnd then .error (.shortCookie position)
    else
      match Cookie.parse (content.slice position cookieLength) with
      | .error fault => .error (.badLibraryName fault)
      | .ok cookie =>
        if cookieEnd < cookie.packageLength.toNat then
          .error (.overlong cookie.packageLength cookieEnd)
        else if cookie.packageLength.toNat < cookie.tocOffset.toNat + cookie.tocLength.toNat then
          .error (.tocOutside cookie.tocLength cookie.tocOffset cookie.packageLength)
        else
          let packageOffset := cookieEnd - cookie.packageLength.toNat
          let tocStart := packageOffset + cookie.tocOffset.toNat
          if content.length < tocStart + cookie.tocLength.toNat then .error .shortToc
          else
            match Toc.parse (content.slice tocStart cookie.tocLength.toNat) with
            | .error e => .error (.badToc e)
            | .ok entries => .ok { path, packageOffset, cookie, entries }

/-- `parse` with words for places, whose sums and differences wrap. -/
def parseWords (path : Path) (content : Bytes) : Except OpenError Archive :=
  match content.findLast? cookieMagic with
  | none => .error (.noCookie path)
  | some position =>
    let cookieEnd := UInt64.ofNat position + UInt64.ofNat cookieLength
    if content.length < cookieEnd.toNat then .error (.shortCookie position)
    else
      match Cookie.parse (content.slice position cookieLength) with
      | .error fault => .error (.badLibraryName fault)
      | .ok cookie =>
        if cookieEnd < cookie.packageLength.toUInt64 then
          .error (.overlong cookie.packageLength cookieEnd.toNat)
        else if cookie.packageLength.toUInt64 <
            cookie.tocOffset.toUInt64 + cookie.tocLength.toUInt64 then
          .error (.tocOutside cookie.tocLength cookie.tocOffset cookie.packageLength)
        else
          let packageOffset := cookieEnd - cookie.packageLength.toUInt64
          let tocStart := packageOffset + cookie.tocOffset.toUInt64
          if content.length < (tocStart + cookie.tocLength.toUInt64).toNat then .error .shortToc
          else
            match Toc.parse (content.slice tocStart.toNat cookie.tocLength.toNat) with
            | .error e => .error (.badToc e)
            | .ok entries => .ok { path, packageOffset := packageOffset.toNat, cookie, entries }

/-- Open the archive at a path. -/
def read (files : FileTree) (path : Path) : Except OpenError Archive :=
  match files.lookup path with
  | .error e => .error (.unopened path e)
  | .ok .directory => .error (.unsearched path .isADirectory)
  | .ok (.file content) => parse path content

/-- The entries of a kind, in order. -/
def entriesOf (a : Archive) (kind : Kind) : List Entry :=
  a.entries.filter (·.kind = kind)

/-- The first entry of a name. -/
def find? (a : Archive) (name : String) : Option Entry :=
  a.entries.find? (·.name = name)

/-- Does the package carry files that have to be unpacked before use? -/
def isOnefile (a : Archive) : Bool :=
  a.entries.any (·.kind.isExtractable)

/-- Where the payload of an entry starts in the file. -/
def absoluteOffset (a : Archive) (e : Entry) : Nat :=
  a.packageOffset + e.offset.toNat

end Archive

/-- Why a payload cannot be extracted. -/
inductive ExtractError where
  /-- The payload would reach into the table of contents. -/
  | outside (name : String) (length offset : UInt32)
  /-- The archive can no longer be opened. -/
  | unopened (path : Path) (e : FileError)
  | unread (name : String) (e : FileError)
  | damaged (name : String) (fault : Zlib.Fault)
  /-- The payload does not have the length that the entry gives; at most one
  byte beyond it is looked at. -/
  | wrongLength (name : String) (expected : UInt32) (found : Nat)
  deriving Repr, DecidableEq

/-- What happened, then its cause. -/
def ExtractError.chain : ExtractError → List String
  | .outside name length offset =>
    [s!"failed to extract {name}: {length} bytes at offset {offset} extend past the package data"]
  | .unopened path e => [s!"open archive: {path.display}", e.message]
  | .unread name e => [s!"failed to extract {name}: read failed", e.message]
  | .damaged name fault => [s!"failed to extract {name}: decompression failed", fault.message]
  | .wrongLength name expected found =>
    [s!"failed to extract {name}: expected {expected} bytes, got {found}"]

namespace Archive

/-- What the stored bytes of an entry hold, looked at up to one byte beyond the
length that the entry gives. -/
def unpack (e : Entry) (stored : Bytes) : Except Zlib.Fault Bytes :=
  let size := e.uncompressedLength.toNat
  if e.compressed then Zlib.inflate size stored else .ok (stored.take (size + 1))

/-- Extract the payload of an entry, which need not be one of the archive's own,
from the content of the file. -/
def extractFrom (a : Archive) (e : Entry) (content : Bytes) : Except ExtractError Bytes :=
  match unpack e (content.slice (a.absoluteOffset e) e.length.toNat) with
  | .error fault => .error (.damaged e.name fault)
  | .ok payload =>
    if payload.length = e.uncompressedLength.toNat then .ok payload
    else .error (.wrongLength e.name e.uncompressedLength payload.length)

/-- Extract the payload of an entry. -/
def extract (files : FileTree) (a : Archive) (e : Entry) : Except ExtractError Bytes :=
  if a.cookie.tocOffset.toNat < e.offset.toNat + e.length.toNat then
    .error (.outside e.name e.length e.offset)
  else
    match files.lookup a.path with
    | .error cause => .error (.unopened a.path cause)
    | .ok .directory => .error (.unread e.name .isADirectory)
    | .ok (.file content) => a.extractFrom e content

end Archive

/-- Why a payload cannot be extracted into a file. -/
inductive UnpackError where
  | extract (e : ExtractError)
  | directory (path : Path) (e : FileError)
  | write (path : Path) (e : FileError)
  deriving Repr, DecidableEq

/-- What happened, then its cause. -/
def UnpackError.chain : UnpackError → List String
  | .extract e => e.chain
  | .directory path e => [s!"create dir: {path.display}", e.message]
  | .write path e => [s!"write: {path.display}", e.message]

/-- Extract the payload of an entry into a file. The directories around the file
are made where they are missing. -/
def Archive.extractToFile (a : Archive) (e : Entry) (destination : Path) :
    FileM UnpackError Unit := do
  match a.extract (← get) e with
  | .error cause => throw (.extract cause)
  | .ok payload =>
    match destination.parent? with
    | some around =>
      if around.isEmpty then pure ()
      else (FileM.makeDirectories around).adapt (.directory around)
    | none => pure ()
    (FileM.writeFile destination payload).adapt (.write destination)

/-- Why a file cannot be searched for a signature. -/
inductive SignatureError where
  | unopened (path : Path) (e : FileError)
  | unread (e : FileError)
  deriving Repr, DecidableEq

/-- What happened, then its cause. -/
def SignatureError.chain : SignatureError → List String
  | .unopened path e => [s!"open: {path.display}", e.message]
  | .unread e => [e.message]

/-- Does the file at a path hold a magic anywhere? A directory cannot be read,
but it is read only for a magic that the search can find. -/
def hasSignature (files : FileTree) (path : Path) (magic : Bytes) : Except SignatureError Bool :=
  match files.lookup path with
  | .error e => .error (.unopened path e)
  | .ok .directory =>
    if magic.isEmpty ∨ Bytes.windowSize < magic.length then .ok false
    else .error (.unread .isADirectory)
  | .ok (.file content) => .ok (content.findLast? magic).isSome

end FrozenApp.Package
