import FrozenApp.Bytes
/-!
# Searching from the end

`Bytes.findLast?` looks for the last place where a pattern occurs. It reads the
data backwards in windows of `Bytes.windowSize` bytes. Neighbouring windows
share one byte less than the pattern is long, so a pattern that lies across a
boundary is whole in one of them. A pattern longer than a window is never found.
`Bytes.findWithin` does the same within a bound on the number of windows.
-/

namespace FrozenApp.Bytes

/-- How many bytes the search looks at together. -/
def windowSize : Nat := 8192

/-- The last place in `window` where `pattern` starts. -/
def lastMatch? (pattern : Bytes) : Bytes → Option Nat
  | [] => none
  | b :: rest =>
    match lastMatch? pattern rest with
    | some i => some (i + 1)
    | none => if pattern.isPrefixOf (b :: rest) then some 0 else none

/-- The last place where `pattern` lies within the first `stop` bytes of `data`,
for a pattern that is neither empty nor longer than a window of `size` bytes. -/
def scanBack (size : Nat) (pattern data : Bytes) (stop : Nat) : Option Nat :=
  let start := stop - size
  if stop - start < pattern.length then none
  else
    match lastMatch? pattern (data.slice start (stop - start)) with
    | some i => some (start + i)
    | none =>
      if start = 0 then none
      else scanBack size pattern data (start + pattern.length - 1)
termination_by stop
decreasing_by omega

/-- The last place where `pattern` occurs in `data`. An empty pattern occurs
nowhere. -/
def findLast? (data pattern : Bytes) : Option Nat :=
  if pattern.isEmpty ∨ data.length < pattern.length then none
  else scanBack windowSize pattern data data.length

/-- `scanBack` with a bound on the number of windows. It gives up where they do not
suffice, and where a window does not lie within the data. -/
def scanWithin (size : Nat) (pattern data : Bytes) : (windows stop : Nat) → Option (Option Nat)
  | 0, _ => none
  | windows + 1, stop =>
    let start := stop - size
    if data.length < stop then none
    else if stop - start < pattern.length then some none
    else
      match lastMatch? pattern (data.slice start (stop - start)) with
      | some i => some (some (start + i))
      | none =>
        if start = 0 then some none
        else scanWithin size pattern data windows (start + pattern.length - 1)

/-- `findLast?` with a bound on the number of windows. -/
def findWithin (windows : Nat) (data pattern : Bytes) : Option (Option Nat) :=
  if pattern.isEmpty ∨ data.length < pattern.length then some none
  else scanWithin windowSize pattern data windows data.length

end FrozenApp.Bytes
