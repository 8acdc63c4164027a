import FrozenApp.Proofs.Program.Calls
import FrozenApp.Proofs.Program.Plan
/-!
# The order of a program

The calls of a run tell how far it has come: a step that is carried out makes other
calls than one that ends the run (`Done.not_failed`), so the same calls never belong
to two readings of the plan (`Followed.unique`). `program_follows_plan`: a program
carries out the first steps of its plan, in their order. It ends with 0 where these
are all of them, with 1 where an exception comes out of a script, and with an error
otherwise.
-/

namespace FrozenApp.Program

open Interpreter Package

variable {files : FileTree} {archive : Archive} {home : Path}

/-! ## The calls tell how a step went -/

theorem Drained.unique {l l' x x' : List Exchange} (h : Drained l) (h' : Drained l') (heq : l ++ x = l' ++ x') :
    x = x' := by
  cases h <;> cases h' <;> cases heq <;> rfl

theorem FilePublished.unique {main : ObjectId} {raw : Bytes} {l l' x x' : List Exchange}
    (h : FilePublished main raw l) (h' : FilePublished main raw l') (heq : l ++ x = l' ++ x') : x = x' := by
  cases h <;> cases h' <;> cases heq <;> rfl

/-- The calls of a step that is carried out can be told from what comes behind. -/
theorem Done.unique {scope? scope₁ scope₂ : Option Scope} {step : PlanStep} {l l' x x' : List Exchange}
    (h : Done files archive home scope? step scope₁ l) (h' : Done files archive home scope? step scope₂ l')
    (heq : l ++ x = l' ++ x') : scope₁ = scope₂ ∧ x = x' := by
  cases h with
  | home => cases h'; cases heq; exact ⟨rfl, rfl⟩
  | collection => cases h'; cases heq; exact ⟨rfl, rfl⟩
  | main => cases h'; cases heq; exact ⟨rfl, rfl⟩
  | module hdata _ hdrain =>
    cases h' with
    | module hdata' _ hdrain' =>
      rw [hdata] at hdata'
      cases hdata'
      simp only [List.cons_append, List.append_assoc] at heq
      injection heq with _ heq
      injection heq with _ heq
      injection heq with _ heq
      cases hdrain.unique hdrain' heq
      exact ⟨rfl, rfl⟩
  | script set hdata _ hpublish =>
    cases h' with
    | script set' hdata' _ hpublish' =>
      rw [List.append_assoc, List.append_assoc] at heq
      cases hpublish.unique hpublish' heq
      exact ⟨rfl, rfl⟩

/-- The calls of a step that is carried out are none that end the run there. -/
theorem Done.not_failed {scope? scope?' : Option Scope} {step : PlanStep} {ending : Except LaunchError Int}
    {l l' x : List Exchange} (h : Done files archive home scope? step scope?' l)
    (h' : Failed files archive home scope? step ending l') : l ++ x ≠ l' := by
  intro heq
  cases h with
  | home hnul =>
    cases h' with
    | homeNul hnul' => exact hnul hnul'
    | homeNotConverted => cases heq
    | homeNotSet => cases heq
  | collection hnul =>
    cases h' with
    | archivePathNul hnul' => exact hnul hnul'
    | noSearchPath => cases heq
    | locationNotConverted => cases heq
    | locationNotAdded => cases heq
  | main =>
    cases h' with
    | noMain => cases heq
    | noMainDict => cases heq
  | module hdata hnul hdrain =>
    cases h' with
    | moduleNotExtracted hdata' => rw [hdata] at hdata'; cases hdata'
    | moduleNul hdata' hnul' => exact hnul hnul'
    | moduleNotUnmarshalled => cases heq
    | moduleNotRun => cases heq
  | script set hdata hnul hpublish =>
    cases h' with
    | scriptNotExtracted hdata' => rw [hdata] at hdata'; cases hdata'
    | scriptNul _ hnul' => exact hnul hnul'
    | scriptNotUnmarshalled _ _ hpublish' =>
      rw [List.append_assoc] at heq
      cases hpublish.unique hpublish' heq
    | raised _ _ _ hpublish' =>
      rw [List.append_assoc] at heq
      cases hpublish.unique hpublish' heq

/-- Where the calls are those of steps that are all carried out, no step has ended the run. -/
theorem Followed.unique {scope? scope?' : Option Scope} {steps : List PlanStep} {next : Next} {l l' x : List Exchange}
    (h : Followed files archive home scope? steps (.go scope?') l) (h' : Followed files archive home scope? steps next l')
    (heq : l ++ x = l') : next = .go scope?' := by
  generalize hnext : Next.go scope?' = reached at h
  -- step by step, the same calls are taken off both runs
  induction h generalizing l' with
  | nil => cases h'; rfl
  | cons hstep _ ih =>
    rw [List.append_assoc] at heq
    cases h' with
    | cons hstep' hrest' =>
      obtain ⟨rfl, heq⟩ := hstep.unique hstep' heq
      exact ih hrest' heq hnext
    | stopped hstep' => exact absurd heq (hstep.not_failed hstep')
  | stopped => cases hnext

/-! ## Exceptions -/

/-- Code is evaluated, and an exception comes out of it. -/
def Raises (x : Exchange) : Prop :=
  ∃ code globals locals, x = ⟨.evalCode code globals locals, none⟩

theorem Drained.not_raises {l : List Exchange} (h : Drained l) : ∀ x ∈ l, ¬ Raises x := by
  cases h <;> simp [Raises]

theorem FilePublished.not_raises {main : ObjectId} {raw : Bytes} {l : List Exchange} (h : FilePublished main raw l) :
    ∀ x ∈ l, ¬ Raises x := by
  cases h <;> simp [Raises]

theorem Done.not_raises {scope? scope?' : Option Scope} {step : PlanStep} {l : List Exchange}
    (h : Done files archive home scope? step scope?' l) : ∀ x ∈ l, ¬ Raises x := by
  cases h with
  | home | collection | main => simp [Raises]
  | module _ _ hdrain =>
    simp only [List.forall_mem_cons, List.forall_mem_append]
    exact ⟨by simp [Raises], by simp [Raises], by simp [Raises], hdrain.not_raises, by simp [Raises]⟩
  | script _ _ _ hpublish =>
    rw [List.forall_mem_append]
    exact ⟨hpublish.not_raises, by simp [Raises]⟩

/-- The code of a script is evaluated, an exception comes out of it, and is printed behind. -/
def EndsRaising (l : List Exchange) : Prop :=
  ∃ code dict, [⟨.evalCode code dict dict, none⟩, ⟨.decRef code, ()⟩, ⟨.errPrint, ()⟩] <:+ l

/-- A step that ends the run with an exit code has raised an exception, and every other one has not. -/
theorem Failed.raises {scope? : Option Scope} {step : PlanStep} {ending : Except LaunchError Int} {l : List Exchange}
    (h : Failed files archive home scope? step ending l) :
    ending = .ok unhandledExitCode ∧ EndsRaising l ∨ (∃ e, ending = .error e) ∧ ∀ x ∈ l, ¬ Raises x := by
  cases h with
  | @raised scope _ _ code _ set _ _ _ =>
    exact .inl ⟨rfl, code, scope.dict, List.suffix_append_of_suffix (List.suffix_append [_, _] _)⟩
  | homeNul | moduleNotExtracted | moduleNul | archivePathNul | scriptNotExtracted | scriptNul =>
    exact .inr ⟨⟨_, rfl⟩, List.forall_mem_nil _⟩
  | noSearchPath | noMain | noMainDict => exact .inr ⟨⟨_, rfl⟩, by simp [Raises]⟩
  | homeNotConverted _ hdrain | homeNotSet _ hdrain | moduleNotUnmarshalled _ _ hdrain | moduleNotRun _ _ hdrain
  | locationNotConverted _ hdrain | locationNotAdded _ hdrain =>
    exact .inr ⟨⟨_, rfl⟩, by simpa [Raises] using hdrain.not_raises⟩
  | scriptNotUnmarshalled _ _ hpublish =>
    refine .inr ⟨⟨_, rfl⟩, ?_⟩
    rw [List.forall_mem_append]
    exact ⟨hpublish.not_raises, by simp [Raises]⟩

theorem Followed.raises {scope? : Option Scope} {steps : List PlanStep} {next : Next} {l : List Exchange}
    (h : Followed files archive home scope? steps next l) :
    next.ending = .ok unhandledExitCode ∧ EndsRaising l ∨
      (next.ending = .ok 0 ∨ ∃ e, next.ending = .error e) ∧ ∀ x ∈ l, ¬ Raises x := by
  induction h with
  | nil => exact .inr ⟨.inl rfl, List.forall_mem_nil _⟩
  | cons hstep _ ih =>
    rcases ih with ⟨hending, code, dict, hl⟩ | ⟨hending, hl⟩
    · exact .inl ⟨hending, code, dict, List.suffix_append_of_suffix hl⟩
    · exact .inr ⟨hending, List.forall_mem_append.2 ⟨hstep.not_raises, hl⟩⟩
  | stopped hstep =>
    rcases hstep.raises with h | ⟨hending, hl⟩
    · exact .inl h
    · exact .inr ⟨.inr hending, hl⟩

/-! ## The order of a run -/

/-- Either all steps are carried out, or those ahead of the one that ends the run. -/
theorem Followed.split {scope? : Option Scope} {steps : List PlanStep} {next : Next} {l : List Exchange}
    (h : Followed files archive home scope? steps next l) :
    (∃ scope?', next = .go scope?') ∨ ∃ done step rest scope?' calls last, steps = done ++ step :: rest ∧
      l = calls ++ last ∧ Followed files archive home scope? done (.go scope?') calls ∧
        Failed files archive home scope?' step next.ending last := by
  induction h with
  | nil => exact .inl ⟨_, rfl⟩
  | stopped hstep => exact .inr ⟨[], _, _, _, [], _, rfl, rfl, .nil, hstep⟩
  | cons hstep _ ih =>
    rcases ih with hnext | ⟨done, step, rest, scope?', calls, last, rfl, rfl, hdone, hfailed⟩
    · exact .inl hnext
    · exact .inr ⟨_ :: done, step, rest, scope?', _, last, rfl, (List.append_assoc ..).symm, .cons hstep hdone, hfailed⟩

/-- The order that the run of a program keeps to. -/
structure InOrder (files : FileTree) (archive : Archive) (home : Path) (r : Except LaunchError Int) (l : List Exchange) :
    Prop where
  /-- The steps that are carried out come first in the plan, in its order, and the
  next one ends the run. No call belongs to a later step. -/
  steps : (∃ scope?, Followed files archive home none (plan archive) (.go scope?) l) ∨
    ∃ done step rest scope? calls last, plan archive = done ++ step :: rest ∧ l = calls ++ last ∧
      Followed files archive home none done (.go scope?) calls ∧ Failed files archive home scope? step r last
  /-- The exit code is 0 where the whole plan is carried out, and only there. -/
  whole_iff : r = .ok 0 ↔ ∃ scope?, Followed files archive home none (plan archive) (.go scope?) l
  /-- It is 1 where an exception comes out of a script, and only there. -/
  raised_iff : r = .ok unhandledExitCode ↔ ∃ x ∈ l, Raises x
  /-- The exception is printed. -/
  printed : r = .ok unhandledExitCode → EndsRaising l
  /-- There is no other exit code. -/
  exit_code : ∀ code, r = .ok code → IsExitCode code

theorem Followed.inOrder {next : Next} {l : List Exchange} (h : Followed files archive home none (plan archive) next l) :
    InOrder files archive home next.ending l := by
  have hcodes : unhandledExitCode ≠ 0 := by decide
  refine ⟨?_, ?_, ?_, ?_, ?_⟩
  · rcases h.split with ⟨scope?, rfl⟩ | hstopped
    · exact .inl ⟨scope?, h⟩
    · exact .inr hstopped
  · constructor
    · intro hzero
      rcases h.split with ⟨scope?, rfl⟩ | ⟨_, _, _, _, _, _, _, _, _, hfailed⟩
      · exact ⟨scope?, h⟩
      · rcases hfailed.raises with ⟨hone, -⟩ | ⟨⟨e, he⟩, -⟩
        · rw [hone] at hzero
          exact absurd (Except.ok.inj hzero) hcodes
        · rw [he] at hzero
          cases hzero
    · rintro ⟨scope?, hwhole⟩
      rw [hwhole.unique h (List.append_nil l)]
      rfl
  · rcases h.raises with ⟨hone, code, dict, hl⟩ | ⟨hother, hl⟩
    · exact iff_of_true hone ⟨_, hl.subset (List.mem_cons_self ..), code, dict, dict, rfl⟩
    · refine iff_of_false (fun hone => ?_) fun ⟨x, hx, hraises⟩ => hl x hx hraises
      rw [hone] at hother
      rcases hother with hzero | ⟨e, he⟩
      · exact hcodes (Except.ok.inj hzero)
      · cases he
  · intro hone
    rcases h.raises with ⟨-, hl⟩ | ⟨hzero | ⟨e, he⟩, -⟩
    · exact hl
    · exact absurd (Except.ok.inj (hone.symm.trans hzero)) hcodes
    · cases hone.symm.trans he
  · exact h.ending.2

/-- The run of a program keeps to the order of the table of contents. The modules
and collections that are counted are those that the table holds. -/
theorem program_follows_plan (host : Host) (files : FileTree) (lib : Library) :
    Goes (host.program files lib) (InOrder files host.archive host.home) ∧
      Returns (importModules files lib host.archive) (· = (host.archive.entries.filter (·.kind.isBootstrap)).length) ∧
      Returns (installCollections lib host.archive) (· = (host.archive.entriesOf .collection).length) := by
  refine ⟨(program_goes host files lib).mono ?_, ?_, ?_⟩
  · rintro _ l ⟨next, h, rfl⟩
    exact h.inOrder
  · exact (importModules_goes files lib host.archive host.home).mono fun r l h => h.1
  · exact (installCollections_goes files lib host.archive host.home).mono fun r l h => h.1

end FrozenApp.Program
