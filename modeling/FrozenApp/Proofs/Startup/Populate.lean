import FrozenApp.Proofs.Interpreter.Acts
import FrozenApp.Startup.Lifecycle
/-!
# What is done to the configuration record

Setting the members of a record is a list of assignments. `Assigned` says by
which calls one of them is made and what it makes of the record, with one case for every
way that it can go. They are made one after the other, up to the first that fails, and each
takes the record as the one ahead of it has left it (`Populated`, `populate_stage`).
-/

namespace FrozenApp.Interpreter

open Config (Block)

/-- The record that a call takes. -/
def Call.record? : Call → Option ((size : Nat) × Block size)
  | configInitIsolated block | configSetBytesString block _ _ | configSetString block _ _
  | configSetWideStringList block _ _ | configClear block | initializeFromConfig block => some ⟨_, block⟩
  | _ => none

/-- The functions that set a member of a record. -/
def Symbol.setters : List Symbol := [.configSetBytesString, .configSetString, .configSetWideStringList]

/-- The functions that are called to set the members of a record. -/
def Symbol.setting : List Symbol := setters ++ [.statusException, .decodeLocale, .rawFree]

/-- The functions that set members and start the interpreter with them. -/
def Symbol.sequence : List Symbol := .decodeLocale :: .initializeFromConfig :: setters

/-- The functions that a start calls. -/
def Symbol.starting : List Symbol :=
  [.preConfigInitIsolated, .preInitialize, .configInitIsolated, .initializeFromConfig, .exitStatusException,
    .configClear] ++ setting

end FrozenApp.Interpreter

namespace FrozenApp.Startup

open Config (Block Layout Member)
open Interpreter

variable {size : Nat}

/-! ## Assignments -/

/-- What is done to a member of the record. A string or a list of strings is set for a step of start-up. -/
inductive Assignment where
  | string (member : Member) (value : Bytes) (step : String)
  | stringList (member : Member) (values : List Bytes) (step : String)
  | int (member : Member) (value : Int32)
  | unsignedLong (member : Member) (value : UInt64)
  deriving Repr, DecidableEq

/-- The program that makes an assignment. -/
def Assignment.run (lib : Library) (layout : Layout) : Assignment → BlockM layout.size StepError Unit
  | string m value step => setString lib (layout.offset m) value step
  | stringList m values step => setStringList lib (layout.offset m) values step
  | int m value => setInt (layout.offset m) value
  | unsignedLong m value => setUnsignedLong (layout.offset m) value

/-- What the options say about plain members. -/
def plainAssignments (o : InterpreterOptions) : List Assignment :=
  [.int .siteImport 0, .int .writeBytecode 0, .int .configureCStdio 1, .int .bufferedStdio (flag !o.unbuffered),
    .int .optimizationLevel o.optimize, .int .verbose o.verbose, .int .installSignalHandlers 1,
    .int .devMode (flag o.devMode)] ++
  match o.hashSeed with
  | none => []
  | some seed => [.int .useHashSeed 1, .unsignedLong .hashSeed seed]

/-- What the options say about lists. A list without an item is not set. -/
def listAssignments (o : InterpreterOptions) : List Assignment :=
  (if o.warnOptions.isEmpty then []
    else [.stringList .warnoptions (o.warnOptions.map Bytes.ofString) "set warnoptions"]) ++
  if o.xOptions.isEmpty then []
  else [.stringList .xoptions (o.xOptions.map Bytes.ofString) "set xoptions"]

/-- What is done to the record, in order. -/
def assignments (s : Settings) : List Assignment :=
  [.string .programName s.programName "set program name", .string .home s.home "set python home",
    .stringList .moduleSearchPaths s.searchPaths "set module search paths", .int .moduleSearchPathsSet 1,
    .stringList .argv s.argv "set argv"] ++ plainAssignments s.options ++ listAssignments s.options

theorem populate_eq_forM (lib : Library) (layout : Layout) (s : Settings) :
    populate lib layout s = forM (assignments s) (·.run lib layout) := by
  simp only [populate, setPlainMembers, assignments, plainAssignments, listAssignments]
  cases s.options.hashSeed <;> cases s.options.warnOptions <;> cases s.options.xOptions <;> simp [Assignment.run]

/-! ## How an assignment is made -/

/-- How strings are decoded, up to the first one that is not: what has been decoded, and what it stops at. -/
inductive Decoded (step : String) : List Bytes → List WideString → Option StepError → List Exchange → Prop
  | nil : Decoded step [] [] none []
  | nul {value : Bytes} {values : List Bytes} (hnul : 0 ∈ value) :
      Decoded step (value :: values) [] (some (.nul step ⟨value⟩)) []
  | undecodable {value : Bytes} {values : List Bytes} (hnul : 0 ∉ value) :
      Decoded step (value :: values) [] (some (.undecodable step value)) [⟨.decodeLocale value, none⟩]
  | cons {value : Bytes} {values : List Bytes} {strings : List WideString} {failure : Option StepError}
      {l : List Exchange} (address : Nat) (hnul : 0 ∉ value) (hrest : Decoded step values strings failure l) :
      Decoded step (value :: values) (⟨address, value⟩ :: strings) failure (⟨.decodeLocale value, some address⟩ :: l)

/-- The calls that decode strings. -/
def decodings (strings : List WideString) : List Exchange :=
  strings.map fun s => ⟨.decodeLocale s.text, some s.address⟩

theorem Decoded.of_none {step : String} {values : List Bytes} {strings : List WideString} {l : List Exchange}
    (h : Decoded step values strings none l) :
    strings.map (·.text) = values ∧ (∀ value ∈ values, 0 ∉ value) ∧ l = decodings strings := by
  generalize hfailure : (none : Option StepError) = failure at h
  induction h with
  | nil => exact ⟨rfl, nofun, rfl⟩
  | nul | undecodable => cases hfailure
  | cons address hnul _ ih =>
    obtain ⟨rfl, hvalues, rfl⟩ := ih hfailure
    exact ⟨rfl, List.forall_mem_cons.2 ⟨hnul, hvalues⟩, rfl⟩

/-- Decoding stops at a string with a NUL, which is not handed over, or at one that
the interpreter cannot decode. -/
theorem Decoded.of_some {step : String} {values : List Bytes} {strings : List WideString} {e : StepError}
    {l : List Exchange} (h : Decoded step values strings (some e) l) :
    ∃ value rest, values = strings.map (·.text) ++ value :: rest ∧ (∀ s ∈ strings, 0 ∉ s.text) ∧
      (0 ∈ value ∧ l = decodings strings ∨ 0 ∉ value ∧ l = decodings strings ++ [⟨.decodeLocale value, none⟩]) := by
  generalize hfailure : some e = failure at h
  induction h with
  | nil => cases hfailure
  | nul hnul => exact ⟨_, _, rfl, nofun, .inl ⟨hnul, rfl⟩⟩
  | undecodable hnul => exact ⟨_, _, rfl, nofun, .inr ⟨hnul, rfl⟩⟩
  | cons address hnul _ ih =>
    obtain ⟨value, rest, rfl, hstrings, hstop⟩ := ih hfailure
    refine ⟨value, rest, rfl, List.forall_mem_cons.2 ⟨hnul, hstrings⟩, ?_⟩
    rcases hstop with ⟨hvalue, rfl⟩ | ⟨hvalue, rfl⟩
    · exact .inl ⟨hvalue, rfl⟩
    · exact .inr ⟨hvalue, rfl⟩

theorem Decoded.symbols {step : String} {values : List Bytes} {strings : List WideString} {failure : Option StepError}
    {l : List Exchange} (h : Decoded step values strings failure l) : ∀ x ∈ l, x.1.symbol = .decodeLocale := by
  induction h with
  | nil | nul => exact List.forall_mem_nil _
  | undecodable => exact List.forall_mem_singleton.2 rfl
  | cons _ _ _ ih => exact List.forall_mem_cons.2 ⟨rfl, ih⟩

/-- The calls that give decoded strings back. -/
def freeing (strings : List WideString) : List Exchange :=
  strings.map fun s => ⟨.rawFree s.address, ()⟩

/-- What a setter comes to whose outcome is taken for an exception or not. -/
def verdict (step : String) (status : Status) (refused : Bool) : Except StepError Unit :=
  if refused then .error (.refused step status) else .ok ()

/-- How a list of strings is set at an offset, with the record before and after it. -/
inductive ListSet {size : Nat} (b : Block size) (offset : Nat) (values : List Bytes) (step : String) :
    Except StepError Unit → Block size → List Exchange → Prop
  /-- What has been decoded is given back even where the list is not set. -/
  | undecoded {strings : List WideString} {e : StepError} {l : List Exchange}
      (hdecoded : Decoded step values strings (some e) l) :
      ListSet b offset values step (.error e) b (l ++ freeing strings)
  | set {strings : List WideString} {l : List Exchange} (next : Block size) (status : Status) (refused : Bool)
      (hdecoded : Decoded step values strings none l) :
      ListSet b offset values step (verdict step status refused) next
        (l ++ (⟨.configSetWideStringList b offset strings, (status, next)⟩ ::
          ⟨.statusException status, refused⟩ :: freeing strings))

/-- How an assignment goes, with the record before and after it. -/
inductive Assigned (layout : Layout) (b : Block layout.size) :
    Assignment → Except StepError Unit → Block layout.size → List Exchange → Prop
  | int {m : Member} {value : Int32} : Assigned layout b (.int m value) (.ok ()) (b.setInt (layout.offset m) value) []
  | unsignedLong {m : Member} {value : UInt64} :
      Assigned layout b (.unsignedLong m value) (.ok ()) (b.setUnsignedLong (layout.offset m) value) []
  | nul {m : Member} {value : Bytes} {step : String} (hnul : 0 ∈ value) :
      Assigned layout b (.string m value step) (.error (.nul step ⟨value⟩)) b []
  | string {m : Member} {value : Bytes} {step : String} (next : Block layout.size) (status : Status) (refused : Bool)
      (hnul : 0 ∉ value) :
      Assigned layout b (.string m value step) (verdict step status refused) next
        [⟨.configSetBytesString b (layout.offset m) value, (status, next)⟩, ⟨.statusException status, refused⟩]
  /-- What has been decoded of a list is given back even where the list is not set. -/
  | undecoded {m : Member} {values : List Bytes} {step : String} {strings : List WideString} {e : StepError}
      {l : List Exchange} (hdecoded : Decoded step values strings (some e) l) :
      Assigned layout b (.stringList m values step) (.error e) b (l ++ freeing strings)
  | stringList {m : Member} {values : List Bytes} {step : String} {strings : List WideString} {l : List Exchange}
      (next : Block layout.size) (status : Status) (refused : Bool) (hdecoded : Decoded step values strings none l) :
      Assigned layout b (.stringList m values step) (verdict step status refused) next
        (l ++ (⟨.configSetWideStringList b (layout.offset m) strings, (status, next)⟩ ::
          ⟨.statusException status, refused⟩ :: freeing strings))

/-- Assignments are made one after the other, up to the first that fails. -/
inductive Populated (layout : Layout) :
    Block layout.size → List Assignment → Except StepError Unit → Block layout.size → List Exchange → Prop
  | nil {b} : Populated layout b [] (.ok ()) b []
  | cons {b b' b'' a as r l l'} (h : Assigned layout b a (.ok ()) b' l) (hrest : Populated layout b' as r b'' l') :
      Populated layout b (a :: as) r b'' (l ++ l')
  | stopped {b b' a as e l} (h : Assigned layout b a (.error e) b' l) :
      Populated layout b (a :: as) (.error e) b' l

variable {layout : Layout}

theorem decodeAll_acts (lib : Library) (step : String) (values : List Bytes) :
    Acts (decodeAll lib step values) fun p l => Decoded step values p.1 p.2 l := by
  induction values with
  | nil => exact .pure .nil
  | cons value values ih =>
    rw [decodeAll]
    cases hraw : terminated value with
    | error e =>
      obtain ⟨hnul, rfl⟩ := terminated_eq_error hraw
      exact .pure (.nul hnul)
    | ok raw =>
      obtain ⟨hnul, rfl⟩ := terminated_eq_ok hraw
      refine .ask_bind fun address? => ?_
      cases address? with
      | none => exact .pure (.undecodable hnul)
      | some address =>
        refine .bind ih fun _ l hl => .pure ?_
        rw [List.append_nil]
        exact .cons address hnul hl

theorem freeAll_acts (lib : Library) (strings : List WideString) :
    Acts (freeAll lib strings) fun _ l => l = freeing strings := by
  induction strings with
  | nil => exact .pure rfl
  | cons s strings ih => exact .ask_bind fun _ => ih.mono fun _ l hl => by rw [hl]; rfl

theorem callSetter_stage {b : Block size} {step : String} {setter : Block size → StateM Trace (Status × Block size)}
    {P : Except StepError Unit → Block size → List Exchange → Prop}
    (h : Acts (setter b) fun p l =>
      ∀ refused, P (verdict step p.1 refused) p.2 (l ++ [⟨.statusException p.1, refused⟩])) :
    Stage (callSetter lib step setter) b P := by
  refine Stage.get_bind (Stage.lift_bind h ?_)
  rintro ⟨status, next⟩ l hl
  refine Stage.set_bind (Stage.ask_bind fun refused => ?_)
  cases refused with
  | true => exact .throw (hl true)
  | false => exact .pure (hl false)

theorem andAlways_stage {ε : Type} {m : BlockM size ε Unit} {after : StateM Trace Unit} {b : Block size}
    {P : Except ε Unit → Block size → List Exchange → Prop} {T : List Exchange → Prop}
    (h : Stage m b fun r b' l => ∀ l', T l' → P r b' (l ++ l')) (hafter : Acts after fun _ l => T l) :
    Stage (m.andAlways after) b P := by
  rw [Stage, BlockM.andAlways, ExceptT.run_mk]
  refine Over.bind h fun r b' l hl => Over.lift_bind hafter fun _ l' hl' => Over.pure ?_
  rw [List.append_nil]
  exact hl l' hl'

theorem setStringList_stage (lib : Library) (b : Block size) (offset : Nat) (values : List Bytes) (step : String) :
    Stage (setStringList lib offset values step) b (ListSet b offset values step) := by
  rw [setStringList]
  refine Stage.lift_bind (decodeAll_acts lib step values) ?_
  rintro ⟨strings, failure⟩ l hdecoded
  refine andAlways_stage ?_ (freeAll_acts lib strings)
  cases failure with
  | some e => exact .throw fun _ hfreed => by rw [hfreed]; exact .undecoded hdecoded
  | none =>
    refine callSetter_stage (.ask fun p refused _ hfreed => ?_)
    rw [hfreed]
    exact .set p.2 p.1 refused hdecoded

/-- However an assignment goes, it is one of the ways of `Assigned`. -/
theorem Assignment.run_stage (lib : Library) (layout : Layout) (a : Assignment) (b : Block layout.size) :
    Stage (a.run lib layout) b (Assigned layout b a) := by
  cases a with
  | int m value => exact .modify .int
  | unsignedLong m value => exact .modify .unsignedLong
  | string m value step =>
    rw [run, setString]
    cases hraw : terminated value with
    | error e =>
      obtain ⟨hnul, rfl⟩ := terminated_eq_error hraw
      exact .throw (.nul hnul)
    | ok raw =>
      obtain ⟨hnul, rfl⟩ := terminated_eq_ok hraw
      exact callSetter_stage (.ask fun p refused => .string p.2 p.1 refused hnul)
  | stringList m values step =>
    refine (setStringList_stage lib b (layout.offset m) values step).mono fun r b' l h => ?_
    cases h with
    | undecoded hdecoded => exact .undecoded hdecoded
    | set _ status refused hdecoded => exact .stringList _ status refused hdecoded

/-- However the members are set, the assignments are made in their order. -/
theorem populate_stage (lib : Library) (layout : Layout) (s : Settings) (b : Block layout.size) :
    Stage (populate lib layout s) b fun r b' l => Populated layout b (assignments s) r b' l := by
  rw [populate_eq_forM]
  generalize assignments s = as
  induction as generalizing b with
  | nil => exact .pure .nil
  | cons a as ih =>
    rw [List.forM_cons]
    refine Stage.bind (a.run_stage lib layout b) (fun _ b' l ha => ?_) fun _ b' l ha => .stopped ha
    exact (ih b').mono fun r b'' l' hrest => .cons ha hrest

/-! ## The functions that are called -/

theorem freeing_symbols (strings : List WideString) : ∀ x ∈ freeing strings, x.1.symbol = .rawFree := by
  simp [freeing, Call.symbol]

theorem Assigned.symbols {b b' : Block layout.size} {a : Assignment} {r : Except StepError Unit} {l : List Exchange}
    (h : Assigned layout b a r b' l) : ∀ x ∈ l, x.1.symbol ∈ Symbol.setting := by
  have hdecoded : ∀ {step values strings failure l}, Decoded step values strings failure l →
      ∀ x ∈ l, x.1.symbol ∈ Symbol.setting := fun h x hx => h.symbols x hx ▸ by decide
  have hfreed : ∀ strings, ∀ x ∈ freeing strings, x.1.symbol ∈ Symbol.setting :=
    fun strings x hx => freeing_symbols strings x hx ▸ by decide
  cases h with
  | int | unsignedLong | nul => exact List.forall_mem_nil _
  | string => simp [Call.symbol, Symbol.setting, Symbol.setters]
  | undecoded h => exact List.forall_mem_append.2 ⟨hdecoded h, hfreed _⟩
  | stringList next status refused h =>
    refine List.forall_mem_append.2 ⟨hdecoded h, List.forall_mem_cons.2 ⟨?_, List.forall_mem_cons.2 ⟨?_, hfreed _⟩⟩⟩
    · exact (by decide : Symbol.configSetWideStringList ∈ Symbol.setting)
    · exact (by decide : Symbol.statusException ∈ Symbol.setting)

theorem Populated.symbols {b b' : Block layout.size} {as : List Assignment} {r : Except StepError Unit}
    {l : List Exchange} (h : Populated layout b as r b' l) : ∀ x ∈ l, x.1.symbol ∈ Symbol.setting := by
  induction h with
  | nil => exact List.forall_mem_nil _
  | cons h _ ih => exact List.forall_mem_append.2 ⟨h.symbols, ih⟩
  | stopped h => exact h.symbols

end FrozenApp.Startup
