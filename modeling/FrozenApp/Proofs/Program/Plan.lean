import FrozenApp.Launch
import FrozenApp.Proofs.Package.Extract
import FrozenApp.Proofs.Program.Location
/-!
# The plan of a program

The table of contents is a plan: `plan` lists its steps in their order. `Done` says
by which calls a step is carried out, and `Failed` by which it ends the run instead,
with one case for every way that it can go. A run takes the steps one after the
other, up to the first that ends it (`Followed`). `bootstrap_goes` and
`runScripts_goes`: this is how an interpreter is prepared and scripts are run.
-/

namespace FrozenApp.Program

open Interpreter Package

/-- A step of the plan. -/
inductive PlanStep where
  /-- Tell the interpreter where the program's home is. -/
  | home
  /-- Run a module. -/
  | module (entry : Entry)
  /-- Add a collection to the search path. -/
  | collection (entry : Entry)
  /-- Look up the module that scripts run in. -/
  | main
  | script (entry : Entry)
  deriving Repr, DecidableEq

/-- The steps that prepare an interpreter. -/
def preparation (archive : Archive) : List PlanStep :=
  .home :: ((archive.entries.filter (·.kind.isBootstrap)).map .module ++
    (archive.entriesOf .collection).map .collection)

/-- The steps that run the scripts. -/
def scripting (archive : Archive) : List PlanStep :=
  .main :: (archive.entriesOf .script).map .script

/-- What a package asks for, in the order in which it is to be done. -/
def plan (archive : Archive) : List PlanStep :=
  preparation archive ++ scripting archive

/-- The module that scripts run in, and its dictionary. -/
structure Scope where
  module : ObjectId
  dict : ObjectId
  deriving Repr, DecidableEq

/-- The calls that clear a pending error away. -/
inductive Drained : List Exchange → Prop
  | clean : Drained [⟨.errOccurred, false⟩]
  | pending : Drained [⟨.errOccurred, true⟩, ⟨.errPrint, ()⟩, ⟨.errClear, ()⟩]

/-- The path of a script's file as it is handed over. -/
def rawFile (home : Path) (name : String) : Bytes :=
  Bytes.ofString (scriptFile home name).display

/-- The calls that make the file of a script known. A script whose file cannot be
made a string runs without it. -/
inductive FilePublished (main : ObjectId) (raw : Bytes) : List Exchange → Prop
  | skipped : FilePublished main raw [⟨.unicodeFromString raw, none⟩]
  | set {file : ObjectId} (done : Bool) : FilePublished main raw
      [⟨.unicodeFromString raw, some file⟩, ⟨.setAttr main fileAttribute file, done⟩, ⟨.decRef file, ()⟩]

section

variable (files : FileTree) (archive : Archive) (home : Path)

/-- The calls that carry a step out, with the scope of scripts before and after it. -/
inductive Done : Option Scope → PlanStep → Option Scope → List Exchange → Prop
  | home {scope?} {value : ObjectId} (hnul : 0 ∉ home) : Done scope? .home scope?
      [⟨.decodeFsDefault home, some value⟩, ⟨.sysSetObject homeAttribute value, true⟩, ⟨.decRef value, ()⟩]
  /-- The code of a module comes from what is extracted for its entry, and runs under the entry's name. -/
  | module {scope?} {e : Entry} {data : Bytes} {code module : ObjectId} {drain : List Exchange}
      (hdata : archive.extract files e = .ok data) (hnul : 0 ∉ Bytes.ofString e.name) (hdrain : Drained drain) :
      Done scope? (.module e) scope? (⟨.unmarshal data, some code⟩ :: ⟨.execCodeModule e.name code, some module⟩ ::
        ⟨.decRef code, ()⟩ :: (drain ++ [⟨.decRef module, ()⟩]))
  | collection {scope?} {e : Entry} {searchPath item : ObjectId} (hnul : 0 ∉ archive.path) :
      Done scope? (.collection e) scope? [⟨.sysGetObject "path", some searchPath⟩,
        ⟨.decodeFsDefault (archive.location e), some item⟩, ⟨.listAppend searchPath item, true⟩, ⟨.decRef item, ()⟩]
  | main {scope?} {module dict : ObjectId} : Done scope? .main (some ⟨module, dict⟩)
      [⟨.addModule mainModule, some module⟩, ⟨.moduleGetDict module, some dict⟩]
  /-- The code of a script comes from what is extracted for its entry. The dictionary of the module that scripts
  run in holds both its globals and its locals. -/
  | script {scope : Scope} {e : Entry} {data : Bytes} {code result : ObjectId} {publish : List Exchange} (set : Bool)
      (hdata : archive.extract files e = .ok data) (hnul : 0 ∉ rawFile home e.name)
      (hpublish : FilePublished scope.module (rawFile home e.name) publish) :
      Done (some scope) (.script e) (some scope) (publish ++ [⟨.unmarshal data, some code⟩,
        ⟨.setAttr scope.module codeAttribute code, set⟩, ⟨.evalCode code scope.dict scope.dict, some result⟩,
        ⟨.decRef code, ()⟩, ⟨.decRef result, ()⟩])

/-- The calls of a step that is not carried out, and how it ends the run. -/
inductive Failed : Option Scope → PlanStep → Except LaunchError Int → List Exchange → Prop
  | homeNul {scope?} (hnul : 0 ∈ home) : Failed scope? .home (.error (.bootstrap (.homeNul ⟨home⟩))) []
  | homeNotConverted {scope?} {drain : List Exchange} (hnul : 0 ∉ home) (hdrain : Drained drain) :
      Failed scope? .home (.error (.bootstrap (.homeNotConverted home))) (⟨.decodeFsDefault home, none⟩ :: drain)
  | homeNotSet {scope?} {value : ObjectId} {drain : List Exchange} (hnul : 0 ∉ home) (hdrain : Drained drain) :
      Failed scope? .home (.error (.bootstrap .homeNotSet)) (⟨.decodeFsDefault home, some value⟩ ::
        ⟨.sysSetObject homeAttribute value, false⟩ :: ⟨.decRef value, ()⟩ :: drain)
  | moduleNotExtracted {scope?} {e : Entry} {cause : ExtractError} (hdata : archive.extract files e = .error cause) :
      Failed scope? (.module e) (.error (.bootstrap (.extract e.name cause))) []
  | moduleNul {scope?} {e : Entry} {data : Bytes} (hdata : archive.extract files e = .ok data)
      (hnul : 0 ∈ Bytes.ofString e.name) :
      Failed scope? (.module e) (.error (.bootstrap (.nameNul ⟨Bytes.ofString e.name⟩))) []
  | moduleNotUnmarshalled {scope?} {e : Entry} {data : Bytes} {drain : List Exchange}
      (hdata : archive.extract files e = .ok data) (hnul : 0 ∉ Bytes.ofString e.name) (hdrain : Drained drain) :
      Failed scope? (.module e) (.error (.bootstrap (.moduleFailed e.name))) (⟨.unmarshal data, none⟩ :: drain)
  | moduleNotRun {scope?} {e : Entry} {data : Bytes} {code : ObjectId} {drain : List Exchange}
      (hdata : archive.extract files e = .ok data) (hnul : 0 ∉ Bytes.ofString e.name) (hdrain : Drained drain) :
      Failed scope? (.module e) (.error (.bootstrap (.moduleFailed e.name)))
        (⟨.unmarshal data, some code⟩ :: ⟨.execCodeModule e.name code, none⟩ :: ⟨.decRef code, ()⟩ :: drain)
  | archivePathNul {scope?} {e : Entry} (hnul : 0 ∈ archive.path) :
      Failed scope? (.collection e) (.error (.bootstrap (.archivePathNul ⟨archive.path⟩))) []
  | noSearchPath {scope?} {e : Entry} (hnul : 0 ∉ archive.path) :
      Failed scope? (.collection e) (.error (.bootstrap .noSearchPath)) [⟨.sysGetObject "path", none⟩]
  | locationNotConverted {scope?} {e : Entry} {searchPath : ObjectId} {drain : List Exchange} (hnul : 0 ∉ archive.path)
      (hdrain : Drained drain) :
      Failed scope? (.collection e) (.error (.bootstrap (.locationNotConverted e.name)))
        (⟨.sysGetObject "path", some searchPath⟩ :: ⟨.decodeFsDefault (archive.location e), none⟩ :: drain)
  | locationNotAdded {scope?} {e : Entry} {searchPath item : ObjectId} {drain : List Exchange} (hnul : 0 ∉ archive.path)
      (hdrain : Drained drain) :
      Failed scope? (.collection e) (.error (.bootstrap (.locationNotAdded e.name)))
        (⟨.sysGetObject "path", some searchPath⟩ :: ⟨.decodeFsDefault (archive.location e), some item⟩ ::
          ⟨.listAppend searchPath item, false⟩ :: ⟨.decRef item, ()⟩ :: drain)
  | noMain {scope?} : Failed scope? .main (.error (.scripts .noMain)) [⟨.addModule mainModule, none⟩]
  | noMainDict {scope?} {module : ObjectId} : Failed scope? .main (.error (.scripts .noMainDict))
      [⟨.addModule mainModule, some module⟩, ⟨.moduleGetDict module, none⟩]
  | scriptNotExtracted {scope?} {e : Entry} {cause : ExtractError} (hdata : archive.extract files e = .error cause) :
      Failed scope? (.script e) (.error (.scripts (.extract e.name cause))) []
  | scriptNul {scope?} {e : Entry} {data : Bytes} (hdata : archive.extract files e = .ok data)
      (hnul : 0 ∈ rawFile home e.name) :
      Failed scope? (.script e) (.error (.scripts (.pathNul ⟨rawFile home e.name⟩))) []
  | scriptNotUnmarshalled {scope : Scope} {e : Entry} {data : Bytes} {publish : List Exchange}
      (hdata : archive.extract files e = .ok data) (hnul : 0 ∉ rawFile home e.name)
      (hpublish : FilePublished scope.module (rawFile home e.name) publish) :
      Failed (some scope) (.script e) (.error (.scripts (.notUnmarshalled e.name)))
        (publish ++ [⟨.unmarshal data, none⟩, ⟨.errPrint, ()⟩])
  /-- An exception that a script does not catch is printed, and gives the exit code. -/
  | raised {scope : Scope} {e : Entry} {data : Bytes} {code : ObjectId} {publish : List Exchange} (set : Bool)
      (hdata : archive.extract files e = .ok data) (hnul : 0 ∉ rawFile home e.name)
      (hpublish : FilePublished scope.module (rawFile home e.name) publish) :
      Failed (some scope) (.script e) (.ok unhandledExitCode) (publish ++ [⟨.unmarshal data, some code⟩,
        ⟨.setAttr scope.module codeAttribute code, set⟩, ⟨.evalCode code scope.dict scope.dict, none⟩,
        ⟨.decRef code, ()⟩, ⟨.errPrint, ()⟩])

/-- What steps come to. -/
inductive Next where
  /-- The plan goes on, with the scope of scripts if it has been looked up. -/
  | go (scope? : Option Scope)
  /-- The run ends. -/
  | stop (ending : Except LaunchError Int)

/-- Steps are taken one after the other, up to the first that ends the run. -/
inductive Followed : Option Scope → List PlanStep → Next → List Exchange → Prop
  | nil {scope?} : Followed scope? [] (.go scope?) []
  | cons {scope? scope?'} {step : PlanStep} {steps : List PlanStep} {next : Next} {l l' : List Exchange}
      (h : Done files archive home scope? step scope?' l) (hrest : Followed scope?' steps next l') :
      Followed scope? (step :: steps) next (l ++ l')
  | stopped {scope?} {step : PlanStep} {steps : List PlanStep} {ending : Except LaunchError Int} {l : List Exchange}
      (h : Failed files archive home scope? step ending l) : Followed scope? (step :: steps) (.stop ending) l

end

variable {files : FileTree} {archive : Archive} {home : Path}

theorem Followed.append {scope? scope?' : Option Scope} {steps steps' : List PlanStep} {next : Next}
    {l l' : List Exchange} (h : Followed files archive home scope? steps (.go scope?') l)
    (h' : Followed files archive home scope?' steps' next l') :
    Followed files archive home scope? (steps ++ steps') next (l ++ l') := by
  generalize hnext : Next.go scope?' = reached at h
  induction h with
  | nil => cases hnext; exact h'
  | cons hstep _ ih => rw [List.append_assoc]; exact .cons hstep (ih hnext)
  | stopped => cases hnext

theorem Followed.append_stopped {scope? : Option Scope} {steps : List PlanStep} {ending : Except LaunchError Int}
    {l : List Exchange} (h : Followed files archive home scope? steps (.stop ending) l) (steps' : List PlanStep) :
    Followed files archive home scope? (steps ++ steps') (.stop ending) l := by
  generalize hnext : Next.stop ending = reached at h
  induction h with
  | nil => cases hnext
  | cons hstep _ ih => exact .cons hstep (ih hnext)
  | stopped hstep => cases hnext; exact .stopped hstep

/-! ## Preparing an interpreter -/

/-- What a step of the preparation comes to. -/
def Next.ofPreparation {α : Type} : Except BootstrapError α → Next
  | .ok _ => .go none
  | .error e => .stop (.error (.bootstrap e))

/-- A step goes on or ends the run. -/
def Attempted (files : FileTree) (archive : Archive) (home : Path) (scope? : Option Scope) (step : PlanStep) :
    Next → List Exchange → Prop
  | .go scope?', l => Done files archive home scope? step scope?' l
  | .stop ending, l => Failed files archive home scope? step ending l

theorem drainError_acts (lib : Library) : Acts (drainError lib) fun _ l => Drained l := by
  refine .ask_bind fun pending => ?_
  cases pending with
  | false => exact .pure .clean
  | true => exact .ask_bind fun _ => .ask_bind fun _ => .pure .pending

theorem publishHome_goes (lib : Library) : Goes (publishHome lib home) fun r l =>
    Attempted files archive home none .home (.ofPreparation r) l := by
  refine .debug_bind ?_
  cases hraw : terminated home with
  | error e =>
    obtain ⟨hnul, rfl⟩ := terminated_eq_error hraw
    exact .throw (.homeNul hnul)
  | ok raw =>
    obtain ⟨hnul, rfl⟩ := terminated_eq_ok hraw
    refine .ask_bind fun value? => ?_
    cases value? with
    | none => exact .lift_throw (drainError_acts lib) fun _ _ hdrain => .homeNotConverted hnul hdrain
    | some value =>
      refine .ask_bind fun set => .ask_bind fun _ => ?_
      cases set with
      | true => exact .pure (.home hnul)
      | false => exact .lift_throw (drainError_acts lib) fun _ _ hdrain => .homeNotSet hnul hdrain

/-- What running the code of a module comes to. -/
inductive ModuleRun (name : String) (data : Bytes) : Option ObjectId → List Exchange → Prop
  | notUnmarshalled : ModuleRun name data none [⟨.unmarshal data, none⟩]
  | run {code : ObjectId} (module? : Option ObjectId) : ModuleRun name data module?
      [⟨.unmarshal data, some code⟩, ⟨.execCodeModule name code, module?⟩, ⟨.decRef code, ()⟩]

theorem runModule_acts (lib : Library) (name : String) (data : Bytes) :
    Acts (runModule lib name data) (ModuleRun name data) := by
  refine .ask_bind fun code? => ?_
  cases code? with
  | none => exact .logError_bind (.pure .notUnmarshalled)
  | some code =>
    refine .debug_bind (.ask_bind fun module? => .ask_bind fun _ => ?_)
    cases module? with
    | none => exact .logError_bind (.pure (.run none))
    | some module => exact .pure (.run (some module))

/-- What is extracted is never too large to be handed over. -/
theorem signedLength?_of_extract {e : Entry} {data : Bytes} (h : archive.extract files e = .ok data) :
    signedLength? data = some (Int64.ofNat data.length) :=
  signedLength?_of_lt (Nat.lt_trans (length_lt_of_extract h) (by decide))

theorem importModule_goes (lib : Library) (e : Entry) : Goes (importModule files lib archive e) fun r l =>
    Attempted files archive home none (.module e) (.ofPreparation r) l := by
  rw [importModule]
  cases hdata : archive.extract files e with
  | error cause => exact .throw (.moduleNotExtracted hdata)
  | ok data =>
    refine .debug_bind ?_
    cases hraw : terminated (Bytes.ofString e.name) with
    | error nul =>
      obtain ⟨hnul, rfl⟩ := terminated_eq_error hraw
      exact .throw (.moduleNul hdata hnul)
    | ok raw =>
      obtain ⟨hnul, -⟩ := terminated_eq_ok hraw
      simp only [signedLength?_of_extract hdata]
      refine .lift_bind (runModule_acts lib e.name data) fun module? run hrun => ?_
      refine .lift_bind (drainError_acts lib) fun _ drain hdrain => ?_
      cases hrun with
      | notUnmarshalled => exact .throw (by simpa using .moduleNotUnmarshalled hdata hnul hdrain)
      | @run code =>
        cases module? with
        | none => exact .throw (by simpa using .moduleNotRun hdata hnul hdrain)
        | some module => exact .lift (.ask fun _ => .module hdata hnul hdrain)

theorem installCollection_goes (lib : Library) (e : Entry) : Goes (installCollection lib archive e) fun r l =>
    Attempted files archive home none (.collection e) (.ofPreparation r) l := by
  refine .debug_bind ?_
  rw [collectionLocation_eq]
  by_cases hnul : 0 ∈ archive.path
  · rw [if_pos hnul]
    exact .throw (.archivePathNul hnul)
  · rw [if_neg hnul]
    refine .ask_bind fun searchPath? => ?_
    cases searchPath? with
    | none => exact .throw (.noSearchPath hnul)
    | some searchPath =>
      refine .ask_bind fun item? => ?_
      cases item? with
      | none => exact .lift_throw (drainError_acts lib) fun _ _ hdrain => .locationNotConverted hnul hdrain
      | some item =>
        refine .ask_bind fun added => .ask_bind fun _ => ?_
        cases added with
        | true => exact .pure (.collection hnul)
        | false => exact .lift_throw (drainError_acts lib) fun _ _ hdrain => .locationNotAdded hnul hdrain

/-- One step for each entry. -/
theorem forEntries_goes {action : Entry → Act BootstrapError Unit} {step : Entry → PlanStep}
    (h : ∀ e, Goes (action e) fun r l => Attempted files archive home none (step e) (.ofPreparation r) l)
    (entries : List Entry) : Goes (forEntries entries action) fun r l =>
      (∀ n, r = .ok n → n = entries.length) ∧
        Followed files archive home none (entries.map step) (.ofPreparation r) l := by
  induction entries with
  | nil => exact .pure ⟨fun _ hn => by cases hn; rfl, .nil⟩
  | cons e entries ih =>
    refine .bind (h e) (fun _ l hstep => ?_) fun _ l hstep => ⟨nofun, .stopped hstep⟩
    refine .bind ih (fun n l' ⟨hn, hrest⟩ => ?_) fun _ l' ⟨_, hrest⟩ => ⟨nofun, .cons hstep hrest⟩
    refine .pure ⟨fun _ hm => ?_, ?_⟩
    · cases hm
      rw [hn n rfl, List.length_cons]
    · rw [List.append_nil]
      exact .cons hstep hrest

theorem importModules_goes (files : FileTree) (lib : Library) (archive : Archive) (home : Path) :
    Goes (importModules files lib archive) fun r l =>
      (∀ n, r = .ok n → n = (archive.entries.filter (·.kind.isBootstrap)).length) ∧
        Followed files archive home none ((archive.entries.filter (·.kind.isBootstrap)).map .module) (.ofPreparation r) l :=
  forEntries_goes (importModule_goes lib) _

theorem installCollections_goes (files : FileTree) (lib : Library) (archive : Archive) (home : Path) :
    Goes (installCollections lib archive) fun r l =>
      (∀ n, r = .ok n → n = (archive.entriesOf .collection).length) ∧
        Followed files archive home none ((archive.entriesOf .collection).map .collection) (.ofPreparation r) l :=
  forEntries_goes (installCollection_goes lib) _

/-- An interpreter is prepared by the steps of the preparation. -/
theorem bootstrap_goes (files : FileTree) (lib : Library) (archive : Archive) (home : Path) :
    Goes (bootstrap files lib archive home) fun r l =>
      Followed files archive home none (preparation archive) (.ofPreparation r) l := by
  refine .bind (publishHome_goes lib) (fun _ l hhome => ?_) fun _ l hhome => .stopped hhome
  refine .bind (importModules_goes files lib archive home) (fun _ l' ⟨_, hmodules⟩ => ?_)
    fun _ l' ⟨_, hmodules⟩ => .cons hhome (hmodules.append_stopped _)
  refine .bind (installCollections_goes files lib archive home) (fun _ l'' ⟨_, hcollections⟩ => ?_)
    fun _ l'' ⟨_, hcollections⟩ => .cons hhome (hmodules.append hcollections)
  refine .lift (.debug ?_)
  rw [List.append_nil]
  exact .cons hhome (hmodules.append hcollections)

/-! ## Running scripts -/

/-- What a script comes to. -/
def Next.ofScript (scope : Scope) : Except ScriptError Bool → Next
  | .ok true => .go (some scope)
  | .ok false => .stop (.ok unhandledExitCode)
  | .error e => .stop (.error (.scripts e))

/-- How a run ends whose steps have come to this. -/
def Next.ending : Next → Except LaunchError Int
  | go _ => .ok 0
  | stop ending => ending

theorem publishFile_acts (lib : Library) (main : ObjectId) (raw : Bytes) :
    Acts (publishFile lib main raw) fun _ l => FilePublished main raw l := by
  refine .ask_bind fun file? => ?_
  cases file? with
  | none => exact .pure .skipped
  | some file => exact .ask_bind fun done => .ask fun _ => .set done

theorem runScript_goes (lib : Library) (scope : Scope) (e : Entry) :
    Goes (runScript files lib archive home scope.module scope.dict e) fun r l =>
      Attempted files archive home (some scope) (.script e) (.ofScript scope r) l := by
  rw [runScript]
  cases hdata : archive.extract files e with
  | error cause => exact .throw (.scriptNotExtracted hdata)
  | ok data =>
    extract_lets file
    cases hraw : terminated (Bytes.ofString file.display) with
    | error nul =>
      obtain ⟨hnul, rfl⟩ := terminated_eq_error hraw
      exact .throw (.scriptNul hdata hnul)
    | ok raw =>
      obtain ⟨hnul, rfl⟩ := terminated_eq_ok hraw
      simp only [signedLength?_of_extract hdata]
      refine .debug_bind (.lift_bind (publishFile_acts lib scope.module _) fun _ publish hpublish => .ask_bind fun code? => ?_)
      cases code? with
      | none => exact .ask_bind fun _ => .throw (.scriptNotUnmarshalled hdata hnul hpublish)
      | some code =>
        refine .ask_bind fun set => .ask_bind fun result? => .ask_bind fun _ => ?_
        cases result? with
        | none => exact .ask_bind fun _ => .logError_bind (.pure (.raised set hdata hnul hpublish))
        | some result => exact .ask_bind fun _ => .pure (.script set hdata hnul hpublish)

theorem runEach_goes (lib : Library) (scope : Scope) (entries : List Entry) :
    Goes (runEach (runScript files lib archive home scope.module scope.dict) entries) fun r l =>
      ∃ next, Followed files archive home (some scope) (entries.map .script) next l ∧
        r.mapError LaunchError.scripts = next.ending := by
  induction entries with
  | nil => exact .pure ⟨_, .nil, rfl⟩
  | cons e entries ih =>
    refine .bind (runScript_goes lib scope e) (fun done l hscript => ?_) fun _ l hscript => ⟨_, .stopped hscript, rfl⟩
    cases done with
    | true => exact ih.mono fun r l' ⟨next, hrest, hr⟩ => ⟨next, .cons hscript hrest, hr⟩
    | false =>
      refine .pure ⟨_, .stopped ?_, rfl⟩
      rw [List.append_nil]
      exact hscript

/-- Scripts are run by the steps behind the preparation. -/
theorem runScripts_goes (files : FileTree) (lib : Library) (archive : Archive) (home : Path) :
    Goes (runScripts files lib archive home) fun r l =>
      ∃ next, Followed files archive home none (scripting archive) next l ∧
        r.mapError LaunchError.scripts = next.ending := by
  refine .ask_bind fun module? => ?_
  cases module? with
  | none => exact .throw ⟨_, .stopped .noMain, rfl⟩
  | some module =>
    refine .ask_bind fun dict? => ?_
    cases dict? with
    | none => exact .throw ⟨_, .stopped .noMainDict, rfl⟩
    | some dict =>
      refine (runEach_goes lib ⟨module, dict⟩ _).mono ?_
      rintro r l ⟨next, hscripts, hr⟩
      exact ⟨next, .cons .main hscripts, hr⟩

/-- A program follows the plan of its package. -/
theorem program_goes (host : Host) (files : FileTree) (lib : Library) : Goes (host.program files lib) fun r l =>
    ∃ next, Followed files host.archive host.home none (plan host.archive) next l ∧ r = next.ending := by
  -- scripts are run behind a preparation that has not failed, with no scope yet
  refine .bind (Q := fun r l => ∃ r', r = r'.mapError LaunchError.bootstrap ∧
    Followed files host.archive host.home none (preparation host.archive) (.ofPreparation r') l) ?_ ?_ ?_
  · exact .map ((bootstrap_goes files lib host.archive host.home).mono fun r l h => ⟨r, rfl, h⟩)
  · rintro _ l ⟨r, hr, h⟩
    cases r with
    | error => cases hr
    | ok =>
      refine .map ((runScripts_goes files lib host.archive host.home).mono ?_)
      rintro r l' ⟨next, h', hr'⟩
      exact ⟨next, h.append h', hr'⟩
  · rintro _ l ⟨r, hr, h⟩
    cases r with
    | ok => cases hr
    | error => cases hr; exact ⟨_, h.append_stopped _, rfl⟩

end FrozenApp.Program
