import FrozenApp.Inspect.Command
/-!
# The command line

A command works on a tree of files. Here the tree is read from the system, as
far as the paths of the command go, and what the command has changed along them
is written back.
-/

namespace FrozenApp.CommandLine

open Inspect

/-- How the program is used. -/
def usage : String :=
  "usage:\n  info ARCHIVE\n  list ARCHIVE [--json]\n  extract ARCHIVE NAME --out FILE\n"

/-- The exit code for arguments that make no command. -/
def usageCode : UInt32 := 2

/-- The paths that a command works on. -/
def paths : Command → List Path
  | .info archive => [archive]
  | .list archive _ => [archive]
  | .extract archive _ destination => [archive, destination]

/-- The number that the system has for reading a directory as if it were a file. -/
def isADirectoryCode : UInt32 := 21

/-- What stands at a path of the system. -/
def nodeAt (path : String) : IO (Option Node) := do
  try
    return some (.file (← IO.FS.readBinFile path).toList)
  catch
    | .inappropriateType _ code _ =>
      return if code = isADirectoryCode then some .directory else none
    | _ => return none

/-- The tree with what stands along a path. -/
def readAlong (t : FileTree) (path : Path) : IO FileTree :=
  path.stages.foldlM (fun t (l, p) => do
    match ← nodeAt p.display with
    | some node => return t.put l node
    | none => return t) t

/-- Write back what has changed along a path. -/
def writeAlong (before after : FileTree) (path : Path) : IO Unit :=
  path.stages.forM fun (l, p) =>
    if after.get? l = before.get? l then pure ()
    else
      match after.get? l with
      | some .directory => IO.FS.createDir p.display
      | some (.file content) => IO.FS.writeBinFile p.display ⟨content.toArray⟩
      | none => pure ()

/-- Carry a command out on the files of the system: the exit code. -/
def run (command : Command) : IO UInt32 := do
  let before ← (paths command).foldlM readAlong FileTree.empty
  let (ending, after) := command.finish before
  IO.print ending.output
  (paths command).forM (writeAlong before after)
  IO.eprint ending.errorOutput
  return ending.code.toUInt32

end FrozenApp.CommandLine

/-- Inspect the package that the arguments name. -/
def main (args : List String) : IO UInt32 :=
  match FrozenApp.Inspect.Command.ofArguments? (args.map FrozenApp.Bytes.ofString) with
  | some command => FrozenApp.CommandLine.run command
  | none => do
    IO.eprint FrozenApp.CommandLine.usage
    return FrozenApp.CommandLine.usageCode
