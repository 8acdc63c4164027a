import FrozenApp.Proofs.Interpreter.Load
/-!
# Binding a library

`bind_cases`: a library is bound as a whole, with every function at the address under its
own name, or it is closed again, and the error lists what it lacks. `Client` is whatever is
done with a bound library. It closes nothing, so that a library which is bound, used and
released is closed once, with nothing behind it (`binding_atomic`).
-/

namespace FrozenApp.Interpreter

/-! ## Names -/

/-- The name under which a library exports what a call is made to. -/
def Call.exportedName : Call → String
  | preConfigInitIsolated => "PyPreConfig_InitIsolatedConfig"
  | preInitialize _ => "Py_PreInitialize"
  | configInitIsolated _ => "PyConfig_InitIsolatedConfig"
  | configSetBytesString .. => "PyConfig_SetBytesString"
  | configSetString .. => "PyConfig_SetString"
  | configSetWideStringList .. => "PyConfig_SetWideStringList"
  | configClear _ => "PyConfig_Clear"
  | initializeFromConfig _ => "Py_InitializeFromConfig"
  | statusException _ => "PyStatus_Exception"
  | exitStatusException _ => "Py_ExitStatusException"
  | isInitialized => "Py_IsInitialized"
  | finalize => "Py_Finalize"
  | runSimpleString _ => "PyRun_SimpleStringFlags"
  | decodeLocale _ => "Py_DecodeLocale"
  | rawFree _ => "PyMem_RawFree"
  | decodeFsDefault _ => "PyUnicode_DecodeFSDefault"
  | unicodeFromString _ => "PyUnicode_FromString"
  | sysGetObject _ => "PySys_GetObject"
  | sysSetObject .. => "PySys_SetObject"
  | listAppend .. => "PyList_Append"
  | decRef _ => "Py_DecRef"
  | unmarshal _ => "PyMarshal_ReadObjectFromString"
  | execCodeModule .. => "PyImport_ExecCodeModule"
  | addModule _ => "PyImport_AddModule"
  | moduleGetDict _ => "PyModule_GetDict"
  | setAttr .. => "PyObject_SetAttrString"
  | evalCode .. => "PyEval_EvalCode"
  | errOccurred => "PyErr_Occurred"
  | errPrint => "PyErr_Print"
  | errClear => "PyErr_Clear"

/-- The names that a library has to export, in the order they are looked up. -/
def Symbol.required : List String := table.map (·.2)

theorem Symbol.map_name_all : all.map name = required := by
  decide

theorem Symbol.mem_all (s : Symbol) : s ∈ all := by
  cases s <;> decide

theorem Symbol.required_nodup : required.Nodup := by
  decide

theorem Call.name_symbol (c : Call) : c.symbol.name = c.exportedName := by
  cases c <;> rfl

/-! ## Binding -/

/-- These are the required names that a library does not export, in their order. -/
structure Lacks (image : Image) (names : List String) : Prop where
  mem : ∀ name, name ∈ names ↔ name ∈ Symbol.required ∧ image.address? name = none
  order : names.Sublist Symbol.required
  once : names.Nodup

/-- Every call goes to the address under its own name, and to no other. -/
def Wired (image : Image) (lib : Library) : Prop :=
  ∀ (c : Call) (t : Trace), ∃ address, image.address? c.exportedName = some address ∧
    (lib.ask c).run t = (image.run t address c, t ++ [.called address c (image.run t address c)])

/-- What binding a library comes to. -/
inductive Bound (image : Image) (path : Path) (version : Version) : Except BindError Library → Trace → Prop
  | complete {lib : Library} {new : Trace}
      (hall : ∀ name ∈ Symbol.required, ∃ address, image.address? name = some address)
      (hpath : lib.path = path) (hversion : lib.version = version) (hwired : Wired image lib) (hnew : Quiet [] [] new) :
      Bound image path version (.ok lib) new
  | lacking {names : List String} {new : Trace} (hnames : Lacks image names) (hne : names ≠ [])
      (hnew : Quiet [] [path] new) : Bound image path version (.error (.missing path names)) new

theorem lacks_missing (image : Image) :
    Lacks image ((Symbol.all.filter fun s => (image.address? s.name).isNone).map Symbol.name) := by
  have hmap : (Symbol.all.filter fun s => (image.address? s.name).isNone).map Symbol.name =
      Symbol.required.filter fun name => (image.address? name).isNone := by
    rw [← Symbol.map_name_all, List.filter_map]
    rfl
  rw [hmap]
  refine ⟨fun name => ?_, List.filter_sublist, Symbol.required_nodup.filter _⟩
  rw [List.mem_filter, Option.isNone_iff_eq_none]

theorem wired {image : Image} (hall : ∀ s : Symbol, ∃ address, image.address? s.name = some address)
    (path : Path) (version : Version) :
    Wired image { path, version, address := fun s => (image.address? s.name).getD 0, run := image.run } := by
  intro c t
  obtain ⟨address, haddress⟩ := hall c.symbol
  refine ⟨address, c.name_symbol ▸ haddress, ?_⟩
  have hgetD : (image.address? c.symbol.name).getD 0 = address := by
    rw [haddress]
    rfl
  rw [← hgetD]
  rfl

theorem bind_cases (image : Image) (path : Path) (version : Version) :
    Leaves (Library.bind image path version) (Bound image path version) := by
  have hlacks := lacks_missing image
  rw [Library.bind]
  split
  · next hmissing =>
    have hall : ∀ s : Symbol, ∃ address, image.address? s.name = some address := by
      intro s
      have hsome : (image.address? s.name).isNone ≠ true := List.filter_eq_nil_iff.1 hmissing s s.mem_all
      exact Option.ne_none_iff_exists'.1 fun hnone => hsome (by rw [hnone]; rfl)
    have hrequired : ∀ name ∈ Symbol.required, ∃ address, image.address? name = some address := by
      intro name hname
      rw [← Symbol.map_name_all] at hname
      obtain ⟨s, -, rfl⟩ := List.mem_map.1 hname
      exact hall s
    refine Gives.leaves (Gives.debug_bind Gives.pure) fun new hnew => ?_
    exact .complete hrequired rfl rfl (wired hall path version) hnew
  · next hmissing =>
    extract_lets names
    have hne : names ≠ [] := fun hnil => hmissing (List.map_eq_nil_iff.1 hnil)
    refine Gives.leaves ((Gives.closed path).bind ((Gives.debugEach _ names).bind Gives.pure)) fun new hnew => ?_
    exact .lacking hlacks hne hnew

/-- Binding succeeds for a library that exports every required name, and for no other. -/
theorem Bound.isOk_iff {image : Image} {path : Path} {version : Version} {r : Except BindError Library} {new : Trace}
    (h : Bound image path version r new) :
    (∃ lib, r = .ok lib) ↔ ∀ name ∈ Symbol.required, ∃ address, image.address? name = some address := by
  cases h with
  | complete hall => exact ⟨fun _ => hall, fun _ => ⟨_, rfl⟩⟩
  | @lacking names _ hnames hne =>
    refine ⟨fun ⟨_, hlib⟩ => (nomatch hlib), fun hall => ?_⟩
    obtain ⟨name, hname⟩ := List.exists_mem_of_ne_nil names hne
    obtain ⟨hrequired, hnone⟩ := (hnames.mem name).1 hname
    obtain ⟨address, haddress⟩ := hall name hrequired
    rw [hnone] at haddress
    cases haddress

/-! ## Using and releasing -/

/-- What is done with a bound library: lines of the log and calls, each of which may depend
on what the calls before have given back. -/
inductive Client (α : Type) where
  | done (a : α)
  | log (level : Level) (message : String) (next : Client α)
  | ask (c : Call) (next : c.Reply → Client α)

variable {α : Type}

def Client.use (lib : Library) : Client α → StateM Trace α
  | done a => pure a
  | log level message next => do
    emit (.log level message)
    next.use lib
  | ask c next => do
    let reply ← lib.ask c
    (next reply).use lib

/-- A library is bound, used and released. -/
def session (image : Image) (path : Path) (version : Version) (client : Library → Client α) :
    StateM Trace (Except BindError α) := do
  match ← Library.bind image path version with
  | .error e => return .error e
  | .ok lib =>
    let a ← (client lib).use lib
    lib.release
    return .ok a

theorem Client.use_closings (lib : Library) (client : Client α) :
    Leaves (client.use lib) fun _ new => new.closings = [] := by
  induction client with
  | done a => exact Leaves.pure rfl
  | log level message next ih =>
    refine Leaves.bind (Leaves.emit (P := fun _ new => new = [.log level message]) rfl) ?_
    rintro _ _ rfl
    exact Leaves.mono ih fun _ new hnew => by rw [closings_append, hnew]; rfl
  | ask c next ih =>
    have hask : Acts (lib.ask c) fun _ _ => True := Acts.ask fun _ => trivial
    refine Leaves.bind hask fun reply asked ⟨hinner, _⟩ => ?_
    refine Leaves.mono (ih reply) fun _ new hnew => ?_
    rw [closings_append, hnew, List.append_nil]
    refine List.filterMap_eq_nil_iff.2 fun e he => ?_
    have he := hinner e he
    cases e with
    | log | called => rfl
    | tried | closed => exact he.elim

theorem release_leaves (lib : Library) :
    Leaves lib.release fun _ new => ∃ before, new = before ++ [.closed lib.path] ∧ Trace.closings before = [] := by
  refine fun t => ⟨_, List.append_assoc .., ?_⟩
  exact ⟨_, rfl, rfl⟩

/-- A library is closed once: before the refusal to bind it, or as the last thing that
happens to it. -/
inductive ClosedOnce (path : Path) : Except BindError α → Trace → Prop
  | refused {e : BindError} {new : Trace} (hnew : Quiet [] [path] new) : ClosedOnce path (.error e) new
  | released {a : α} {held : Trace} (hheld : held.closings = []) : ClosedOnce path (.ok a) (held ++ [.closed path])

theorem session_closes (image : Image) (path : Path) (version : Version) (client : Library → Client α) :
    Leaves (session image path version client) (ClosedOnce path) := by
  refine Leaves.bind (bind_cases image path version) fun r bound hbound => ?_
  cases hbound with
  | lacking hnames hne hnew =>
    exact Leaves.pure (.refused (by rw [List.append_nil]; exact hnew))
  | @complete lib _ hall hpath hversion hwired hnew =>
    refine Leaves.bind ((client lib).use_closings lib) fun a used hused => ?_
    refine Leaves.bind (release_leaves lib) fun _ released hreleased => Leaves.pure ?_
    obtain ⟨before, rfl, hbefore⟩ := hreleased
    have hheld : Trace.closings (bound ++ (used ++ before)) = [] := by
      rw [closings_append, closings_append, hnew.closings, hused, hbefore]
      rfl
    have hclosed : ClosedOnce path (.ok a) (bound ++ (used ++ before) ++ [.closed path]) := .released hheld
    rw [← hpath] at hclosed ⊢
    simpa using hclosed

/-- Binding succeeds just if every required name is exported. Then each call goes to the
address under its own name; otherwise the error lists the names that are missing, in their
order. The library is closed once in either case: before the refusal, or when it is
released, whatever is done with it until then. -/
theorem binding_atomic (image : Image) (path : Path) (version : Version) :
    Leaves (Library.bind image path version) (fun r new =>
      ((∃ lib, r = .ok lib) ↔ ∀ name ∈ Symbol.required, ∃ address, image.address? name = some address) ∧
        Bound image path version r new) ∧
    ∀ (α : Type) (client : Library → Client α),
      Leaves (session image path version client) (ClosedOnce path) := by
  constructor
  · exact Leaves.mono (bind_cases image path version) fun _ _ h => ⟨h.isOk_iff, h⟩
  · intro α client
    exact session_closes image path version client

end FrozenApp.Interpreter
