import FrozenApp.Interpreter.Library
/-!
# An interpreter by a script

A launch can be rehearsed without an interpreter: a script says which calls fail,
and everything else succeeds. Calls are counted for each function, and a rule
applies to one call or to every call of its function. Objects and decoded
strings are numbered from one in the order they come to be.
-/

namespace FrozenApp.Interpreter

open Config (Block)

/-- What happens at a call of a function. -/
structure Rule where
  symbol : Symbol
  /-- Which call of the function the rule is about; zero stands for every call. -/
  nth : Nat
  fails : Bool
  /-- Whether an error is pending afterwards, if the rule decides it. -/
  pending : Option Bool
  /-- The outcome of an initializing function that fails. -/
  status : Status
  deriving Repr, DecidableEq

/-- How an interpreter behaves. -/
structure Script where
  rules : List Rule
  /-- What the record of the first stage is filled with. -/
  preConfig : PreConfig
  /-- What each byte of the configuration record is filled with. -/
  fill : UInt8
  /-- Is an error pending from the start? -/
  pending : Bool
  deriving Repr, DecidableEq

/-- Can a call of the function be made to fail? -/
def Symbol.isScripted : Symbol → Bool
  | decRef | exitStatusException | finalize | configClear | configInitIsolated | errClear
  | errOccurred | errPrint | rawFree | preConfigInitIsolated | statusException => false
  | _ => true

/-- Is what comes back an object that did not exist before? -/
def Call.object? : (c : Call) → c.Reply → Option ObjectId
  | .decodeFsDefault _, id => id
  | .unicodeFromString _, id => id
  | .sysGetObject _, id => id
  | .unmarshal _, id => id
  | .execCodeModule _ _, id => id
  | .addModule _, id => id
  | .moduleGetDict _, id => id
  | .evalCode _ _ _, id => id
  | _, _ => none

/-- The bytes that a call makes an object from. -/
def Call.source? : Call → Option Bytes
  | .decodeFsDefault value => some value
  | .unicodeFromString value => some value
  | .unmarshal data => some data
  | _ => none

namespace Trace

/-- The functions that have been called. -/
def symbols (t : Trace) : List Symbol :=
  t.filterMap fun
    | .called _ c _ => some c.symbol
    | _ => none

/-- The objects that have come to be. -/
def objects (t : Trace) : List ObjectId :=
  t.filterMap fun
    | .called _ c reply => c.object? reply
    | _ => none

/-- The strings that have been decoded. -/
def decodedStrings (t : Trace) : List Nat :=
  t.filterMap fun
    | .called _ (.decodeLocale _) reply => reply
    | _ => none

/-- The bytes that an object was made from. -/
def source? (t : Trace) (id : ObjectId) : Option Bytes :=
  t.findSome? fun
    | .called _ c reply => if c.object? reply = some id then c.source? else none
    | _ => none

end Trace

namespace Script

/-- The rule for a call of a function that has been called so often before. -/
def rule? (s : Script) (symbol : Symbol) (before : Nat) : Option Rule :=
  if symbol.isScripted then
    s.rules.find? fun r => r.symbol = symbol ∧ (r.nth = 0 ∨ r.nth = before + 1)
  else none

/-- Whether an error is pending after a call of a function. -/
def pendingAfter (s : Script) (symbol : Symbol) (before : Nat) (pending : Bool) : Bool :=
  match symbol with
  | .errPrint | .errClear => false
  | _ => ((s.rule? symbol before).bind (·.pending)).getD pending

/-- Whether an error is pending after calls, the latest first. -/
def isPending (s : Script) : List Symbol → Bool
  | [] => s.pending
  | symbol :: earlier => s.pendingAfter symbol (earlier.count symbol) (s.isPending earlier)

/-- What a call gives back. -/
def reply (s : Script) (t : Trace) (c : Call) : c.Reply :=
  let rule? := (s.rule? c.symbol (t.symbols.count c.symbol)).filter (·.fails)
  let succeeds := rule?.isNone
  let status := (rule?.map (·.status)).getD .ok
  let object? := if succeeds then some (t.objects.length + 1) else none
  match c with
  | .preConfigInitIsolated => s.preConfig
  | .preInitialize _ => status
  | .configInitIsolated _ => Vector.replicate _ s.fill
  | .configSetBytesString block _ _ => (status, block)
  | .configSetString block _ _ => (status, block)
  | .configSetWideStringList block _ _ => (status, block)
  | .initializeFromConfig _ => status
  | .statusException status => status.type != 0
  | .isInitialized => succeeds
  | .runSimpleString _ => succeeds
  | .decodeLocale _ => if succeeds then some (t.decodedStrings.length + 1) else none
  | .decodeFsDefault _ => object?
  | .unicodeFromString _ => object?
  | .sysGetObject _ => object?
  | .sysSetObject _ _ => succeeds
  | .listAppend _ _ => succeeds
  | .unmarshal _ => object?
  | .execCodeModule _ _ => object?
  | .addModule _ => object?
  | .moduleGetDict _ => object?
  | .setAttr _ _ _ => succeeds
  | .evalCode _ _ _ => object?
  | .errOccurred => s.isPending t.symbols.reverse
  | .configClear _ | .exitStatusException _ | .finalize | .rawFree _ | .decRef _ | .errPrint
  | .errClear => ()

/-- A library that behaves by a script and lacks some of the names. -/
def image (s : Script) (lacking : List String) : Image where
  address? name :=
    if lacking.contains name then none else (Symbol.all.map Symbol.name).idxOf? name |>.map (· + 1)
  run t _ c := s.reply t c

end Script

end FrozenApp.Interpreter
