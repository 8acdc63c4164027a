import FrozenApp.Path
/-!
# Files and directories

A `FileTree` says what stands at each location. Looking a path up walks it name
by name, so a name behind a missing one is missing, a name behind a file is an
error of its own, and `..` leads back. The changing operations are programs over
the tree: where one fails, what it did before stays done.
-/

namespace FrozenApp

/-- Why a file operation fails. -/
inductive FileError where
  /-- Nothing stands there. -/
  | notFound
  /-- Something stands there already. -/
  | exists
  /-- A file stands where a directory is needed. -/
  | notADirectory
  /-- A directory stands where a file is needed. -/
  | isADirectory
  /-- The path, or a name in it, is longer than the system allows. -/
  | nameTooLong
  /-- The path holds a NUL. -/
  | nulInName
  /-- The file ends too early. -/
  | endOfFile
  deriving Repr, DecidableEq

/-- What a file error says. -/
def FileError.reason : FileError → String
  | .notFound => "No such file or directory"
  | .exists => "File exists"
  | .notADirectory => "Not a directory"
  | .isADirectory => "Is a directory"
  | .nameTooLong => "File name too long"
  | .nulInName => "file name contained an unexpected NUL byte"
  | .endOfFile => "failed to fill whole buffer"

/-- The number that the system has for a file error, if it is the system's. -/
def FileError.code? : FileError → Option Nat
  | .notFound => some 2
  | .exists => some 17
  | .notADirectory => some 20
  | .isADirectory => some 21
  | .nameTooLong => some 36
  | .nulInName | .endOfFile => none

/-- The wording of a file error. -/
def FileError.message (e : FileError) : String :=
  match e.code? with
  | some code => s!"{e.reason} (os error {code})"
  | none => e.reason

/-- Where a path starts: at the root, or that many levels above the working
directory. -/
inductive Origin where
  | root
  | working (up : Nat)
  deriving Repr, DecidableEq

/-- A place in the tree. -/
structure Location where
  origin : Origin
  /-- The names from the origin on, none of them `.` or `..`. -/
  names : List Bytes
  deriving Repr, DecidableEq

/-- The location around this one. -/
def Location.parent (l : Location) : Location :=
  match l.names, l.origin with
  | [], .root => l
  | [], .working up => ⟨.working (up + 1), []⟩
  | names, origin => ⟨origin, names.dropLast⟩

/-- The location of a name in this one. -/
def Location.child (l : Location) (name : Bytes) : Location :=
  { l with names := l.names ++ [name] }

/-- The location that a name leads to from this one. -/
def Location.step (l : Location) (name : Bytes) : Location :=
  if name = [Path.dot] then l
  else if name = [Path.dot, Path.dot] then l.parent
  else l.child name

/-- What stands at a location. -/
inductive Node where
  | file (content : Bytes)
  | directory
  deriving Repr, DecidableEq

/-- What stands where. The origins themselves are always directories. -/
structure FileTree where
  node? : Location → Option Node

namespace Path

/-- Where a path starts. -/
def origin (p : Path) : Location :=
  ⟨if p.isAbsolute then .root else .working 0, []⟩

/-- The locations along names from `l` on, where `p` is the path to `l`, with the
path to each. -/
def stagesFrom (l : Location) (p : Path) : List Bytes → List (Location × Path)
  | [] => []
  | name :: rest => (l.step name, p.join name) :: stagesFrom (l.step name) (p.join name) rest

/-- The locations along a path, the outermost first, with the path to each. -/
def stages (p : Path) : List (Location × Path) :=
  stagesFrom p.origin (if p.isAbsolute then [slash] else []) ((splitSlash p).filter (!·.isEmpty))

end Path

namespace FileTree

/-- A tree without files. -/
def empty : FileTree := ⟨fun _ => none⟩

/-- What stands at a location, the origins included. -/
def get? (t : FileTree) (l : Location) : Option Node :=
  if l.names.isEmpty then some .directory else t.node? l

/-- The tree with `node` at `l`. -/
def put (t : FileTree) (l : Location) (node : Node) : FileTree :=
  ⟨fun m => if m = l then some node else t.node? m⟩

/-- The most bytes that a name may have. -/
def nameMax : Nat := 255

/-- The most bytes that a path may have. -/
def pathMax : Nat := 4095

/-- Go from a directory through directories. -/
def descend (t : FileTree) : Location → List Bytes → Except FileError Location
  | l, [] => .ok l
  | l, name :: rest =>
    if nameMax < name.length then .error .nameTooLong
    else
      match t.get? (l.step name) with
      | none => .error .notFound
      | some (.file _) => .error .notADirectory
      | some .directory => descend t (l.step name) rest

/-- Where a path leads: the directory it goes through, the last name, and
whether that name has to be a directory. -/
structure Target where
  directory : Location
  /-- The last name; none for a path that ends in a directory by its spelling. -/
  name? : Option Bytes
  /-- Does a slash follow the last name? -/
  trailing : Bool
  deriving Repr, DecidableEq

/-- Walk a path up to its last name. -/
def walk (t : FileTree) (p : Path) : Except FileError Target :=
  if p.contains 0 then .error .nulInName
  else if p.isEmpty then .error .notFound
  else if pathMax < p.length then .error .nameTooLong
  else
    let names := (Path.splitSlash p).filter (!·.isEmpty)
    match names.getLast? with
    | none => .ok ⟨p.origin, none, false⟩
    | some last =>
      if Path.isProper last then do
        let directory ← t.descend p.origin names.dropLast
        if nameMax < last.length then .error .nameTooLong
        else .ok ⟨directory, some last, p.getLast? == some Path.slash⟩
      else
        (t.descend p.origin names).map (⟨·, none, false⟩)

/-- The place of what a path names, which has to be there. -/
def locate (t : FileTree) (p : Path) : Except FileError Location := do
  let target ← t.walk p
  match target.name? with
  | none => .ok target.directory
  | some name =>
    let l := target.directory.child name
    match t.get? l with
    | none => .error .notFound
    | some (.file _) => if target.trailing then .error .notADirectory else .ok l
    | some .directory => .ok l

/-- What a path names. -/
def lookup (t : FileTree) (p : Path) : Except FileError Node := do
  let l ← t.locate p
  match t.get? l with
  | some node => .ok node
  | none => .error .notFound

/-- Is there a directory? -/
def isDirectory (t : FileTree) (p : Path) : Bool :=
  match t.lookup p with
  | .ok .directory => true
  | _ => false

/-- The tree after making a directory at a path. -/
def makeDirectory (t : FileTree) (p : Path) : Except FileError FileTree := do
  let target ← t.walk p
  match target.name? with
  | none => .error .exists
  | some name =>
    let l := target.directory.child name
    match t.get? l with
    | some _ => .error .exists
    | none => .ok (t.put l .directory)

/-- The tree after a file has been written at a path, whatever it held before. -/
def writeFile (t : FileTree) (p : Path) (content : Bytes) : Except FileError FileTree := do
  let target ← t.walk p
  match target.name? with
  | none => .error .isADirectory
  | some name =>
    let l := target.directory.child name
    if target.trailing then .error .isADirectory
    else
      match t.get? l with
      | some .directory => .error .isADirectory
      | _ => .ok (t.put l (.file content))

/-- The tree after bytes have been added to the end of a file. The file has to
be there. -/
def appendFile (t : FileTree) (p : Path) (more : Bytes) : Except FileError FileTree := do
  match ← t.lookup p with
  | .directory => .error .isADirectory
  | .file content => t.writeFile p (content ++ more)

end FileTree

/-- A program that may change files and may fail. -/
abbrev FileM (ε : Type) := ExceptT ε (StateM FileTree)

namespace FileM

/-- Apply a change to the tree. -/
def change (f : FileTree → Except FileError FileTree) : FileM FileError Unit := do
  match f (← get) with
  | .ok t => set t
  | .error e => throw e

/-- Make a directory and, with `fuel` levels at most, those around it. -/
def makeDirectoriesWithin : Nat → Path → FileM FileError Unit
  | 0, _ => throw .notFound
  | fuel + 1, p =>
    if p.isEmpty then pure ()
    else do
      match (← get).makeDirectory p with
      | .ok t => set t
      | .error .notFound =>
        match p.parent? with
        | none => throw .notFound
        | some around => do
          makeDirectoriesWithin fuel around
          match (← get).makeDirectory p with
          | .ok t => set t
          | .error e => if (← get).isDirectory p then pure () else throw e
      | .error e => if (← get).isDirectory p then pure () else throw e

/-- Make a directory and those around it, where they are missing. -/
def makeDirectories (p : Path) : FileM FileError Unit :=
  makeDirectoriesWithin (p.length + 1) p

/-- Write a file. -/
def writeFile (p : Path) (content : Bytes) : FileM FileError Unit :=
  change (·.writeFile p content)

/-- Add bytes to the end of a file. -/
def appendFile (p : Path) (more : Bytes) : FileM FileError Unit :=
  change (·.appendFile p more)

end FileM

end FrozenApp
