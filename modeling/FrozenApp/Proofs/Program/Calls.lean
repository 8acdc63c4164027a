import FrozenApp.Proofs.Program.Plan
/-!
# What a program calls

The steps of a plan call functions that work with objects, and none that start or
end an interpreter. A run that no error ends gives the exit code 0 or 1
(`program_calls`).
-/

namespace FrozenApp.Program

open Interpreter Package

/-- The functions that a program calls. -/
def symbols : List Symbol :=
  [.decodeFsDefault, .sysSetObject, .decRef, .errOccurred, .errPrint, .errClear, .unmarshal, .execCodeModule,
    .sysGetObject, .listAppend, .addModule, .moduleGetDict, .unicodeFromString, .setAttr, .evalCode]

/-- What a program returns, if it does not fail. -/
def Returns {ε α : Type} (m : Act ε α) (P : α → Prop) : Prop :=
  Acts m.run fun r _ => ∀ a, r = .ok a → P a

/-- An exit code of scripts. -/
def IsExitCode (code : Int) : Prop :=
  code = 0 ∨ code = unhandledExitCode

variable {files : FileTree} {archive : Archive} {home : Path}

theorem Drained.calls {l : List Exchange} (h : Drained l) : ∀ x ∈ l, x.1.symbol ∈ symbols := by
  cases h <;> simp [Call.symbol, symbols]

theorem FilePublished.calls {main : ObjectId} {raw : Bytes} {l : List Exchange} (h : FilePublished main raw l) :
    ∀ x ∈ l, x.1.symbol ∈ symbols := by
  cases h <;> simp [Call.symbol, symbols]

theorem Done.calls {scope? scope?' : Option Scope} {step : PlanStep} {l : List Exchange}
    (h : Done files archive home scope? step scope?' l) : ∀ x ∈ l, x.1.symbol ∈ symbols := by
  cases h with
  | home | collection | main => simp [Call.symbol, symbols]
  | module _ _ hdrain =>
    simp only [List.forall_mem_cons, List.forall_mem_append]
    refine ⟨?_, ?_, ?_, hdrain.calls, ?_⟩ <;> simp [Call.symbol, symbols]
  | script _ _ _ hpublish =>
    rw [List.forall_mem_append]
    exact ⟨hpublish.calls, by simp [Call.symbol, symbols]⟩

theorem Failed.calls {scope? : Option Scope} {step : PlanStep} {ending : Except LaunchError Int} {l : List Exchange}
    (h : Failed files archive home scope? step ending l) : ∀ x ∈ l, x.1.symbol ∈ symbols := by
  cases h with
  | homeNul | moduleNotExtracted | moduleNul | archivePathNul | scriptNotExtracted | scriptNul =>
    exact List.forall_mem_nil _
  | noSearchPath | noMain | noMainDict => simp [Call.symbol, symbols]
  | homeNotConverted _ hdrain | homeNotSet _ hdrain | moduleNotUnmarshalled _ _ hdrain | moduleNotRun _ _ hdrain
  | locationNotConverted _ hdrain | locationNotAdded _ hdrain =>
    simp only [List.forall_mem_cons]
    simpa [Call.symbol, symbols] using hdrain.calls
  | scriptNotUnmarshalled _ _ hpublish | raised _ _ _ hpublish =>
    rw [List.forall_mem_append]
    exact ⟨hpublish.calls, by simp [Call.symbol, symbols]⟩

/-- A step that ends the run leaves an error of its own or an exit code. -/
theorem Failed.ending {scope? : Option Scope} {step : PlanStep} {ending : Except LaunchError Int} {l : List Exchange}
    (h : Failed files archive home scope? step ending l) :
    (∀ e, ending ≠ .error (.start e)) ∧ ∀ code, ending = .ok code → IsExitCode code := by
  cases h with
  | raised => exact ⟨nofun, fun code hcode => .inr (Except.ok.inj hcode).symm⟩
  | _ => exact ⟨nofun, nofun⟩

theorem Followed.calls {scope? : Option Scope} {steps : List PlanStep} {next : Next} {l : List Exchange}
    (h : Followed files archive home scope? steps next l) : ∀ x ∈ l, x.1.symbol ∈ symbols := by
  induction h with
  | nil => exact List.forall_mem_nil _
  | cons hstep _ ih => exact List.forall_mem_append.2 ⟨hstep.calls, ih⟩
  | stopped hstep => exact hstep.calls

theorem Followed.ending {scope? : Option Scope} {steps : List PlanStep} {next : Next} {l : List Exchange}
    (h : Followed files archive home scope? steps next l) :
    (∀ e, next.ending ≠ .error (.start e)) ∧ ∀ code, next.ending = .ok code → IsExitCode code := by
  induction h with
  | nil => exact ⟨nofun, fun code hcode => .inl (Except.ok.inj hcode).symm⟩
  | cons _ _ ih => exact ih
  | stopped hstep => exact hstep.ending

/-- A program starts and ends no interpreter. -/
theorem program_calls (host : Host) (files : FileTree) (lib : Library) : Goes (host.program files lib) fun r l =>
    (∀ x ∈ l, x.1.symbol ∈ symbols) ∧ (∀ e, r ≠ .error (.start e)) ∧ ∀ code, r = .ok code → IsExitCode code := by
  refine (program_goes host files lib).mono ?_
  rintro _ l ⟨next, h, rfl⟩
  exact ⟨h.calls, h.ending⟩

end FrozenApp.Program
