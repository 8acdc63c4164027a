import FrozenApp.Interpreter.Scripted
import FrozenApp.Proofs.Package.RoundTrip
import FrozenApp.Proofs.Program.Plan
import FrozenApp.Proofs.Startup.Laws
import FrozenApp.Proofs.Utf8
/-!
# The attributes of the main module

Right ahead of its evaluation, each script is introduced to the module that it runs in:
its file and its code are to become attributes. `runScripts_introduces`: whatever comes of
this, the script is evaluated. An attribute is then the one for the script if it could be
set, and otherwise what an earlier script has left (`runScripts_stale`). Its file is spelled
by the bytes of its path if they are UTF-8, and only then (`rawFile_eq_iff`).
-/

namespace FrozenApp.Program

open Interpreter Package
open Startup (Guarded)

/-! ## What is set last -/

/-- The object that a call sets an attribute to. -/
def set? (o : ObjectId) (name : String) : Exchange → Option ObjectId
  | ⟨.setAttr o' name' value, true⟩ => if o' = o ∧ name' = name then some value else none
  | _ => none

/-- The object that an attribute has been set to last. -/
def lastSet? (o : ObjectId) (name : String) (l : List Exchange) : Option ObjectId :=
  (l.filterMap (set? o name)).getLast?

@[simp]
theorem lastSet?_nil (o : ObjectId) (name : String) : lastSet? o name [] = none := rfl

theorem lastSet?_append (o : ObjectId) (name : String) (l l' : List Exchange) :
    lastSet? o name (l ++ l') = (lastSet? o name l').or (lastSet? o name l) := by
  rw [lastSet?, List.filterMap_append, List.getLast?_append]
  rfl

@[simp]
theorem lastSet?_cons (o : ObjectId) (name : String) (x : Exchange) (l : List Exchange) :
    lastSet? o name (x :: l) = (lastSet? o name l).or (set? o name x) := by
  rw [← List.singleton_append, lastSet?_append]
  cases hx : set? o name x <;> simp [lastSet?, hx]

theorem codeAttribute_ne_fileAttribute : codeAttribute ≠ fileAttribute := by decide

section

variable {main : ObjectId} {raw : Bytes} {l : List Exchange}

theorem FilePublished.lastSet?_code (h : FilePublished main raw l) : lastSet? main codeAttribute l = none := by
  cases h with
  | skipped => rfl
  | set done => cases done <;> simp [set?, codeAttribute_ne_fileAttribute.symm]

/-- The file is the last to be set, if the interpreter can make a string of it and set it. -/
theorem FilePublished.lastSet?_file (h : FilePublished main raw l) :
    (∃ file, lastSet? main fileAttribute l = some file ∧ (⟨.unicodeFromString raw, some file⟩ : Exchange) ∈ l) ∨
      lastSet? main fileAttribute l = none ∧ ∀ file, (⟨.setAttr main fileAttribute file, true⟩ : Exchange) ∉ l := by
  cases h with
  | skipped => exact .inr ⟨rfl, by simp⟩
  | @set file done =>
    cases done with
    | true => exact .inl ⟨file, by simp [set?], by simp⟩
    | false => exact .inr ⟨by simp [set?], by simp⟩

end

/-! ## Introducing a script -/

variable {files : FileTree} {archive : Archive} {home : Path}

/-- What is called for a script right ahead of its evaluation: `publish` for its file, and then
what makes its code and tries to set it, which has succeeded if `set`. -/
structure Introduces (files : FileTree) (archive : Archive) (home : Path) (main : ObjectId) (e : Entry) (code : ObjectId)
    (publish : List Exchange) (set : Bool) (l : List Exchange) : Prop where
  script : e ∈ archive.entriesOf .script
  published : FilePublished main (rawFile home e.name) publish
  calls : ∃ data, archive.extract files e = .ok data ∧
    l = publish ++ [⟨.unmarshal data, some code⟩, ⟨.setAttr main codeAttribute code, set⟩]

/-- What the attributes of the module are as code is evaluated, where `ahead` stands ahead of its introduction. -/
structure Attributes (home : Path) (main : ObjectId) (e : Entry) (code : ObjectId) (publish : List Exchange) (set : Bool)
    (ahead before : List Exchange) : Prop where
  code_set : lastSet? main codeAttribute before = if set then some code else lastSet? main codeAttribute ahead
  file_set : (∃ file, lastSet? main fileAttribute before = some file ∧
      (⟨.unicodeFromString (rawFile home e.name), some file⟩ : Exchange) ∈ publish) ∨
    lastSet? main fileAttribute before = lastSet? main fileAttribute ahead ∧
      ∀ file, (⟨.setAttr main fileAttribute file, true⟩ : Exchange) ∉ publish

theorem Introduces.attributes {main : ObjectId} {e : Entry} {code : ObjectId} {publish l : List Exchange} {set : Bool}
    (h : Introduces files archive home main e code publish set l) (ahead : List Exchange) :
    Attributes home main e code publish set ahead (ahead ++ l) := by
  obtain ⟨-, hpublish, data, -, rfl⟩ := h
  have hcode : ∀ name, lastSet? main name [⟨.unmarshal data, some code⟩, ⟨.setAttr main codeAttribute code, set⟩] =
      if set ∧ codeAttribute = name then some code else none := by
    intro name
    cases set <;> simp [set?]
  refine ⟨?_, ?_⟩
  · rw [lastSet?_append, lastSet?_append, hpublish.lastSet?_code, hcode]
    cases set <;> simp
  · rw [lastSet?_append, lastSet?_append, hcode, if_neg fun h => codeAttribute_ne_fileAttribute h.2, Option.none_or]
    rcases hpublish.lastSet?_file with ⟨file, hfile, hmade⟩ | ⟨hnone, hnot⟩
    · exact .inl ⟨file, by rw [hfile, Option.some_or], hmade⟩
    · exact .inr ⟨by rw [hnone, Option.none_or], hnot⟩

/-- Code that is evaluated is that of a script, which is introduced right ahead. -/
def Introduced (files : FileTree) (archive : Archive) (home : Path) (before : List Exchange) (x : Exchange) : Prop :=
  x.1.symbol = .evalCode → ∃ main dict e code publish set ahead l, x.1 = .evalCode code dict dict ∧
    before = ahead ++ l ∧ (⟨.addModule mainModule, some main⟩ : Exchange) ∈ ahead ∧
      Introduces files archive home main e code publish set l ∧ Attributes home main e code publish set ahead before

theorem introduced_of_symbols {l : List Exchange} (h : ∀ x ∈ l, x.1.symbol ≠ .evalCode) (ahead : List Exchange) :
    Guarded (fun before x => Introduced files archive home (ahead ++ before) x) l :=
  .of_mem fun _ x hx heval => absurd heval (h x hx)

theorem Drained.not_evalCode {l : List Exchange} (h : Drained l) : ∀ x ∈ l, x.1.symbol ≠ .evalCode := by
  cases h <;> simp [Call.symbol]

theorem FilePublished.not_evalCode {main : ObjectId} {raw : Bytes} {l : List Exchange} (h : FilePublished main raw l) :
    ∀ x ∈ l, x.1.symbol ≠ .evalCode := by
  cases h <;> simp [Call.symbol]

/-- A script is evaluated behind its introduction, and nothing else is. -/
theorem introduced_of_script {scope : Scope} {e : Entry} {data : Bytes} {code : ObjectId} {publish ahead behind : List Exchange}
    (he : e ∈ archive.entriesOf .script) (hdata : archive.extract files e = .ok data)
    (hpublish : FilePublished scope.module (rawFile home e.name) publish)
    (hmain : (⟨.addModule mainModule, some scope.module⟩ : Exchange) ∈ ahead) (set : Bool) (result? : Option ObjectId)
    (hbehind : ∀ x ∈ behind, x.1.symbol ≠ .evalCode) :
    Guarded (fun before x => Introduced files archive home (ahead ++ before) x)
      (publish ++ ⟨.unmarshal data, some code⟩ :: ⟨.setAttr scope.module codeAttribute code, set⟩ ::
        ⟨.evalCode code scope.dict scope.dict, result?⟩ :: behind) := by
  have hintroduces : Introduces files archive home scope.module e code publish set
      (publish ++ [⟨.unmarshal data, some code⟩, ⟨.setAttr scope.module codeAttribute code, set⟩]) :=
    ⟨he, hpublish, data, hdata, rfl⟩
  have hattributes := hintroduces.attributes ahead
  have hcalls : ∀ x ∈ publish ++ [⟨.unmarshal data, some code⟩, ⟨.setAttr scope.module codeAttribute code, set⟩],
      x.1.symbol ≠ .evalCode := List.forall_mem_append.2 ⟨hpublish.not_evalCode, by simp [Call.symbol]⟩
  -- the introduction is what stands ahead of the evaluation
  rw [List.append_cons, List.append_cons, List.append_assoc _ [_] [_]]
  refine (introduced_of_symbols hcalls ahead).append (.cons (fun _ => ?_) ?_)
  · rw [List.append_nil]
    exact ⟨scope.module, scope.dict, e, code, publish, set, ahead, _, rfl, rfl, hmain, hintroduces, hattributes⟩
  · exact .of_mem fun _ x hx heval => absurd heval (hbehind x hx)

/-! ## Running scripts -/

/-- The module that scripts run in has been looked up. -/
def Found (scope? : Option Scope) (ahead : List Exchange) : Prop :=
  ∀ scope ∈ scope?, (⟨.addModule mainModule, some scope.module⟩ : Exchange) ∈ ahead

theorem Done.found {scope? scope?' : Option Scope} {step : PlanStep} {l ahead : List Exchange}
    (h : Done files archive home scope? step scope?' l) (hfound : Found scope? ahead) : Found scope?' (ahead ++ l) := by
  intro scope hscope
  cases h with
  | main =>
    cases hscope
    simp
  | home | module | collection | script => exact List.mem_append_left _ (hfound scope hscope)

theorem Done.introduced {scope? scope?' : Option Scope} {step : PlanStep} {l ahead : List Exchange}
    (h : Done files archive home scope? step scope?' l) (hfound : Found scope? ahead)
    (hstep : ∀ e, step = .script e → e ∈ archive.entriesOf .script) :
    Guarded (fun before x => Introduced files archive home (ahead ++ before) x) l := by
  cases h with
  | home | collection | main => exact introduced_of_symbols (by simp [Call.symbol]) ahead
  | module _ _ hdrain =>
    refine introduced_of_symbols ?_ ahead
    simp only [List.forall_mem_cons, List.forall_mem_append]
    exact ⟨by simp [Call.symbol], by simp [Call.symbol], by simp [Call.symbol], hdrain.not_evalCode, by simp [Call.symbol]⟩
  | @script scope e data code result publish set hdata _ hpublish =>
    exact introduced_of_script (hstep e rfl) hdata hpublish (hfound scope rfl) set (some result) (by simp [Call.symbol])

theorem Failed.introduced {scope? : Option Scope} {step : PlanStep} {ending : Except LaunchError Int}
    {l ahead : List Exchange} (h : Failed files archive home scope? step ending l) (hfound : Found scope? ahead)
    (hstep : ∀ e, step = .script e → e ∈ archive.entriesOf .script) :
    Guarded (fun before x => Introduced files archive home (ahead ++ before) x) l := by
  cases h with
  | @raised scope e data code publish set hdata _ hpublish =>
    exact introduced_of_script (hstep e rfl) hdata hpublish (hfound scope rfl) set none (by simp [Call.symbol])
  | scriptNotUnmarshalled _ _ hpublish =>
    exact introduced_of_symbols (List.forall_mem_append.2 ⟨hpublish.not_evalCode, by simp [Call.symbol]⟩) ahead
  | homeNul | moduleNotExtracted | moduleNul | archivePathNul | scriptNotExtracted | scriptNul => exact .nil
  | noSearchPath | noMain | noMainDict => exact introduced_of_symbols (by simp [Call.symbol]) ahead
  | homeNotConverted _ hdrain | homeNotSet _ hdrain | moduleNotUnmarshalled _ _ hdrain | moduleNotRun _ _ hdrain
  | locationNotConverted _ hdrain | locationNotAdded _ hdrain =>
    refine introduced_of_symbols ?_ ahead
    simpa [Call.symbol] using hdrain.not_evalCode

theorem Followed.introduced {scope? : Option Scope} {steps : List PlanStep} {next : Next} {l ahead : List Exchange}
    (h : Followed files archive home scope? steps next l) (hfound : Found scope? ahead)
    (hsteps : ∀ e, .script e ∈ steps → e ∈ archive.entriesOf .script) :
    Guarded (fun before x => Introduced files archive home (ahead ++ before) x) l := by
  induction h generalizing ahead with
  | nil => exact .nil
  | @cons _ _ step steps _ l _ hstep _ ih =>
    refine (hstep.introduced hfound fun e he => hsteps e (he ▸ List.mem_cons_self)).append ?_
    have hrest := ih (hstep.found hfound) fun e he => hsteps e (List.mem_cons_of_mem _ he)
    exact hrest.mono fun before x hx => by rwa [List.append_assoc] at hx
  | stopped hstep => exact hstep.introduced hfound fun e he => hsteps e (he ▸ List.mem_cons_self)

/-- What is handed over as the file of a script is its path, if that is UTF-8, and only then. -/
theorem rawFile_eq_iff (home : Path) (name : String) :
    rawFile home name = scriptFile home name ↔ ∃ s : String, scriptFile home name = Bytes.ofString s := by
  constructor
  · intro h
    exact ⟨_, h.symm⟩
  · rintro ⟨s, hs⟩
    rw [rawFile, Path.display, hs, Utf8.lossy_ofString]

example : rawFile [0x2f, 0xff] "app" ≠ scriptFile [0x2f, 0xff] "app" := by decide +kernel

/-- Whatever the interpreter replies, code is evaluated only behind the introduction of its
script, and its attributes are those of the script as far as they could be set. What is
handed over as its file is its path, if that is UTF-8, and only then. -/
theorem runScripts_introduces (files : FileTree) (lib : Library) (archive : Archive) (home : Path) :
    (Goes (runScripts files lib archive home) fun _ l => Guarded (Introduced files archive home) l) ∧
      ∀ name, rawFile home name = scriptFile home name ↔ ∃ s : String, scriptFile home name = Bytes.ofString s := by
  refine ⟨(runScripts_goes files lib archive home).mono ?_, rawFile_eq_iff home⟩
  rintro r l ⟨next, h, -⟩
  have hscripts : ∀ e, .script e ∈ scripting archive → e ∈ archive.entriesOf .script := by
    intro e he
    simpa [scripting] using he
  have hguarded : Guarded (fun before x => Introduced files archive home ([] ++ before) x) l := h.introduced nofun hscripts
  exact hguarded

/-- A package with two scripts. -/
def scriptsBuilder : Builder where
  version := 312
  libraryName := "libpython3.12.so.1.0"
  entries := [⟨.script, "a", [49], 1, false⟩, ⟨.script, "b", [50], 1, false⟩]

theorem toBytes_scriptsBuilder : scriptsBuilder.toBytes = .ok scriptsBuilder.bytes :=
  toBytes_eq_bytes (by decide) (by decide)

/-- The attributes of the second script cannot be set. -/
def staleScript : Script where
  rules := [⟨.setAttr, 3, true, none, .ok⟩, ⟨.setAttr, 4, true, none, .ok⟩]
  preConfig := default
  fill := 0
  pending := false

/-- An interpreter that sets the attributes of the first script only. -/
def staleLibrary : Library where
  path := .ofString "/app/libpython3.12.so"
  version := .ofNumbers 3 12
  address _ := 0
  run t _ c := staleScript.reply t c

/-- The code that a call evaluates. -/
def evaluated? : Exchange → Option ObjectId
  | ⟨.evalCode code _ _, _⟩ => some code
  | _ => none

/-- How the two scripts are run. -/
def staleRun : Except ScriptError Int × Trace :=
  (runScripts ⟨fun _ => some (.file scriptsBuilder.bytes)⟩ staleLibrary (scriptsBuilder.archiveAt (.ofString "/app") 0)
    (.ofString "/opt")).run.run []

/-- The second script is evaluated with the attributes of the first. Objects are numbered in
the order in which they come to be, and the module that scripts run in is the first. -/
theorem runScripts_stale :
    Archive.read ⟨fun _ => some (.file scriptsBuilder.bytes)⟩ (.ofString "/app") =
        .ok (scriptsBuilder.archiveAt (.ofString "/app") 0) ∧
      staleRun.1 = .ok 0 ∧
      ((staleRun.2.calls[15]?).bind evaluated? = some 7 ∧ staleRun.2.source? 7 = some [50]) ∧
      lastSet? 1 codeAttribute (staleRun.2.calls.take 15) = some 4 ∧
      lastSet? 1 fileAttribute (staleRun.2.calls.take 15) = some 3 ∧
        staleRun.2.source? 3 = some (.ofString "/opt/a.py") := by
  refine ⟨?_, by decide +kernel⟩
  exact read_toBytes_alone (by decide) toBytes_scriptsBuilder rfl (by decide +kernel)

end FrozenApp.Program
