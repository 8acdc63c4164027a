import FrozenApp.Text.Quoted
/-!
# Failures with their causes

A failure is told by what happened, followed by its causes, each the cause of the
one ahead of it. `Text.oneLine` puts them into a line, `Text.outline` puts the
causes below what happened.
-/

namespace FrozenApp.Text

/-- What happened and its causes in one line, the outermost first. -/
def oneLine (chain : List String) : String :=
  ": ".intercalate chain

/-- A cause with its number, where there are several. Further lines of it are
indented as far as the first one. -/
def numbered (several : Bool) (index : Nat) (cause : String) : String :=
  let lines := cause.splitOn "\n"
  if several then
    (padLeft 5 (toString index) ++ ": ") ++ "\n       ".intercalate lines
  else "    " ++ "\n    ".intercalate lines

/-- Causes on lines of their own, below what happened. -/
def outline : List String → String
  | [] => ""
  | [message] => message
  | message :: causes =>
    let lines := causes.zipIdx.map fun (cause, index) => numbered (1 < causes.length) index cause
    message ++ "\n\nCaused by:\n" ++ "\n".intercalate lines

end FrozenApp.Text
