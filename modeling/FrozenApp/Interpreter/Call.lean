import FrozenApp.Config.Block
import FrozenApp.Interpreter.Symbol
/-!
# Calls into the interpreter

A `Call` is one use of one function with its arguments, and `Call.Reply` is what
the function gives back. Objects and decoded strings belong to the interpreter
and are known by numbers; where a function may fail to give one, it gives none.
-/

namespace FrozenApp.Interpreter

/-- The outcome of an initializing function. -/
structure Status where
  type : Int32
  /-- The function that the outcome is about. -/
  function : Option Bytes
  message : Option Bytes
  exitCode : Int32
  deriving Repr, DecidableEq, Inhabited

/-- The outcome of success. -/
def Status.ok : Status := ⟨0, none, none, 0⟩

/-- The record for the first stage of initialization. -/
structure PreConfig where
  configInit : Int32
  parseArgv : Int32
  isolated : Int32
  useEnvironment : Int32
  configureLocale : Int32
  coerceCLocale : Int32
  coerceCLocaleWarn : Int32
  utf8Mode : Int32
  devMode : Int32
  allocator : Int32
  deriving Repr, DecidableEq, Inhabited

/-- An object of the interpreter. -/
abbrev ObjectId := Nat

/-- A string that the interpreter has decoded: where it keeps it, and what it was
decoded from. -/
structure WideString where
  address : Nat
  text : Bytes
  deriving Repr, DecidableEq

open Config (Block)

/-- A call with its arguments. Members of the configuration record are given by
their offsets in the block. -/
inductive Call where
  | preConfigInitIsolated
  | preInitialize (config : PreConfig)
  | configInitIsolated {size : Nat} (block : Block size)
  | configSetBytesString {size : Nat} (block : Block size) (offset : Nat) (value : Bytes)
  | configSetString {size : Nat} (block : Block size) (offset : Nat) (value : Bytes)
  | configSetWideStringList {size : Nat} (block : Block size) (offset : Nat)
      (items : List WideString)
  | configClear {size : Nat} (block : Block size)
  | initializeFromConfig {size : Nat} (block : Block size)
  | statusException (status : Status)
  | exitStatusException (status : Status)
  | isInitialized
  | finalize
  | runSimpleString (command : String)
  | decodeLocale (value : Bytes)
  | rawFree (address : Nat)
  | decodeFsDefault (value : Bytes)
  | unicodeFromString (value : Bytes)
  | sysGetObject (name : String)
  | sysSetObject (name : String) (value : ObjectId)
  | listAppend (list item : ObjectId)
  | decRef (object : ObjectId)
  | unmarshal (data : Bytes)
  | execCodeModule (name : String) (code : ObjectId)
  | addModule (name : String)
  | moduleGetDict (module : ObjectId)
  | setAttr (object : ObjectId) (name : String) (value : ObjectId)
  | evalCode (code globals locals : ObjectId)
  | errOccurred
  | errPrint
  | errClear

namespace Call

/-- The function that is called. -/
def symbol : Call → Symbol
  | preConfigInitIsolated => .preConfigInitIsolated
  | preInitialize _ => .preInitialize
  | configInitIsolated _ => .configInitIsolated
  | configSetBytesString _ _ _ => .configSetBytesString
  | configSetString _ _ _ => .configSetString
  | configSetWideStringList _ _ _ => .configSetWideStringList
  | configClear _ => .configClear
  | initializeFromConfig _ => .initializeFromConfig
  | statusException _ => .statusException
  | exitStatusException _ => .exitStatusException
  | isInitialized => .isInitialized
  | finalize => .finalize
  | runSimpleString _ => .runSimpleString
  | decodeLocale _ => .decodeLocale
  | rawFree _ => .rawFree
  | decodeFsDefault _ => .decodeFsDefault
  | unicodeFromString _ => .unicodeFromString
  | sysGetObject _ => .sysGetObject
  | sysSetObject _ _ => .sysSetObject
  | listAppend _ _ => .listAppend
  | decRef _ => .decRef
  | unmarshal _ => .unmarshal
  | execCodeModule _ _ => .execCodeModule
  | addModule _ => .addModule
  | moduleGetDict _ => .moduleGetDict
  | setAttr _ _ _ => .setAttr
  | evalCode _ _ _ => .evalCode
  | errOccurred => .errOccurred
  | errPrint => .errPrint
  | errClear => .errClear

/-- What the call gives back: the records that it fills, whether it succeeded, or
the object it made. A function that sets a member gives the block back as it
leaves it. -/
abbrev Reply : Call → Type
  | preConfigInitIsolated => PreConfig
  | preInitialize _ => Status
  | @configInitIsolated size _ => Block size
  | @configSetBytesString size _ _ _ => Status × Block size
  | @configSetString size _ _ _ => Status × Block size
  | @configSetWideStringList size _ _ _ => Status × Block size
  | initializeFromConfig _ => Status
  | statusException _ => Bool
  | isInitialized => Bool
  | runSimpleString _ => Bool
  | decodeLocale _ => Option Nat
  | decodeFsDefault _ => Option ObjectId
  | unicodeFromString _ => Option ObjectId
  | sysGetObject _ => Option ObjectId
  | sysSetObject _ _ => Bool
  | listAppend _ _ => Bool
  | unmarshal _ => Option ObjectId
  | execCodeModule _ _ => Option ObjectId
  | addModule _ => Option ObjectId
  | moduleGetDict _ => Option ObjectId
  | setAttr _ _ _ => Bool
  | evalCode _ _ _ => Option ObjectId
  | errOccurred => Bool
  | configClear _ | exitStatusException _ | finalize | rawFree _ | decRef _ | errPrint
  | errClear => Unit

instance (c : Call) : Inhabited c.Reply := by
  cases c <;> exact ⟨default⟩

end Call

end FrozenApp.Interpreter
