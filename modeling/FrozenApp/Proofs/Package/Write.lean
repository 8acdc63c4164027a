import FrozenApp.Proofs.FileProgram
import FrozenApp.Proofs.Package.Build
import Mathlib.Data.List.Forall2
/-!
# Steps that fail and files that are not written

A builder can be changed in place. There a step checks first and adds its entry last, so
that one that fails leaves the builder as it was, and any run of steps comes to what its
successful steps build (`attempt_run`). A package is written only once there are bytes of
it, and then to one file (`Handed`). `failures_leave_no_trace` puts this together.
-/

namespace FrozenApp.Package

/-! ## Steps in place -/

namespace Step

variable {compress : Bytes → Bytes}

/-- What a step in place gives, and what it leaves. -/
theorem take_run (s : Step) (b : Builder) : (s.take compress).run.run b =
    match s.run compress b with
    | .ok b' => (.ok (), b')
    | .error e => (.error e, b) := by
  have hpush : s.take compress = Builder.push s.kind s.name (s.stored compress) s.size s.isCompressed := by
    cases s <;> rfl
  rw [hpush, run_eq_addRaw, Builder.push, Builder.addRaw]
  by_cases hname : s.name.contains '\x00'
  · simp only [if_pos hname]
    rfl
  by_cases hsize : UInt32.size ≤ s.size
  · simp only [if_neg hname, if_pos hsize]
    rfl
  · simp only [if_neg hname, if_neg hsize]
    rfl

theorem run_error_congr {s : Step} {b : Builder} {e : BuildError} (h : s.run compress b = .error e) (c : Builder) :
    s.run compress c = .error e := by
  rw [run_eq_addRaw, Builder.addRaw] at h ⊢
  by_cases hname : s.name.contains '\x00'
  · rw [if_pos hname] at h ⊢
    exact h
  by_cases hsize : UInt32.size ≤ s.size
  · rw [if_neg hname, if_pos hsize] at h ⊢
    exact h
  · rw [if_neg hname, if_neg hsize] at h
    cases h

/-- The outcome of a step, which is the same on all builders. -/
structure Outcome (compress : Bytes → Bytes) (s : Step) (r : Except BuildError Unit) : Prop where
  ok_iff : r = .ok () ↔ s.Allowed
  eq_map : ∀ b, r = (s.run compress b).map fun _ => ()

theorem outcome_take (s : Step) (b : Builder) : s.Outcome compress ((s.take compress).run.run b).1 := by
  rw [take_run]
  cases hrun : s.run compress b with
  | ok b' =>
    have hs := ((s.run_eq_ok_iff ..).1 hrun).1
    refine ⟨iff_of_true rfl hs, fun c => ?_⟩
    rw [(s.run_eq_ok_iff compress c _).2 ⟨hs, rfl⟩]
    rfl
  | error e =>
    refine ⟨iff_of_false nofun fun hs => ?_, fun c => ?_⟩
    · rw [(s.run_eq_ok_iff compress b _).2 ⟨hs, rfl⟩] at hrun
      cases hrun
    · rw [run_error_congr hrun c]
      rfl

end Step

/-- The steps that have not failed. -/
def successes (steps : List Step) (outcomes : List (Except BuildError Unit)) : List Step :=
  ((steps.zip outcomes).filter (·.2.isOk)).map (·.1)

theorem attempt_cons (compress : Bytes → Bytes) (s : Step) (steps : List Step) (b : Builder) :
    (attempt compress (s :: steps)).run b =
      let (r, b) := (s.take compress).run.run b
      let (outcomes, b) := (attempt compress steps).run b
      (r :: outcomes, b) := by
  rw [attempt, List.mapM_cons]
  rfl

/-- Steps that fail might as well not have been taken. -/
theorem attempt_run (compress : Bytes → Bytes) (steps : List Step) (b : Builder) :
    ∃ outcomes final, (attempt compress steps).run b = (outcomes, final) ∧
      List.Forall₂ (Step.Outcome compress) steps outcomes ∧ build compress b (successes steps outcomes) = .ok final := by
  induction steps generalizing b with
  | nil => exact ⟨[], b, rfl, .nil, rfl⟩
  | cons s steps ih =>
    have houtcome : s.Outcome compress ((s.take compress).run.run b).1 := s.outcome_take b
    rw [attempt_cons]
    rw [Step.take_run] at houtcome ⊢
    cases hrun : s.run compress b with
    | ok b' =>
      obtain ⟨outcomes, final, hrest, houtcomes, hbuild⟩ := ih b'
      rw [hrun] at houtcome
      refine ⟨.ok () :: outcomes, final, ?_, .cons houtcome houtcomes, ?_⟩
      · simp only [hrest]
      · show build compress b (s :: successes steps outcomes) = _
        rw [build, List.foldlM_cons, hrun]
        exact hbuild
    | error e =>
      obtain ⟨outcomes, final, hrest, houtcomes, hbuild⟩ := ih b
      rw [hrun] at houtcome
      refine ⟨.error e :: outcomes, final, ?_, .cons houtcome houtcomes, hbuild⟩
      simp only [hrest]

/-! ## Writing a package -/

/-- How a program ends that hands the bytes of a builder on to another. -/
inductive Handed (b : Builder) (cause : FileError → BuildError) (ending : Bytes → Except FileError Unit → FileTree → Prop)
    (t : FileTree) : Except BuildError Unit → FileTree → Prop
  | unserialized {e : BuildError} (h : b.toBytes = .error e) : Handed b cause ending t (.error e) t
  | handed {bytes : Bytes} {r : Except FileError Unit} {result : Except BuildError Unit} {t' : FileTree}
      (hbytes : b.toBytes = .ok bytes) (h : ending bytes r t') (hr : r.mapError cause = result) :
      Handed b cause ending t result t'

namespace Handed

variable {b : Builder} {cause : FileError → BuildError} {ending : Bytes → Except FileError Unit → FileTree → Prop}
  {t t' : FileTree} {result : Except BuildError Unit}

theorem of_ok (h : Handed b cause ending t (.ok ()) t') : ∃ bytes, b.toBytes = .ok bytes ∧ ending bytes (.ok ()) t' := by
  cases h with
  | @handed bytes r _ _ hbytes h hr =>
    cases r with
    | error => cases hr
    | ok => exact ⟨bytes, hbytes, h⟩

theorem of_error (h : Handed b cause ending t result t') {e : BuildError} (he : result = .error e)
    (hending : ∀ bytes e t', ending bytes (.error e) t' → t' = t) : t' = t := by
  cases h with
  | unserialized => rfl
  | @handed bytes r _ _ _ h hr =>
    cases r with
    | error cause' => exact hending bytes cause' t' h
    | ok =>
      rw [← hr] at he
      cases he

theorem eq_ok (h : Handed b cause ending t result t') {bytes : Bytes} (hbytes : b.toBytes = .ok bytes)
    (hending : ∀ r t', ending bytes r t' → r = .ok ()) : result = .ok () := by
  cases h with
  | unserialized h => rw [hbytes] at h; cases h
  | handed hbytes' h hr =>
    rw [hbytes] at hbytes'
    cases hbytes'
    rw [← hr, hending _ _ h]
    rfl

end Handed

theorem writeTo_changes (b : Builder) (path : Path) (t : FileTree) :
    Changes (b.writeTo path) t (Handed b (.write path) (FileM.Wrote t path) t) := by
  rw [Builder.writeTo]
  cases hbytes : b.toBytes with
  | error e => exact .throw (.unserialized hbytes)
  | ok bytes => exact .adapt ((FileM.writeFile_changes t path bytes).mono fun _ _ h => .handed hbytes h rfl)

theorem appendTo_changes (b : Builder) (path : Path) (t : FileTree) :
    Changes (b.appendTo path) t (Handed b (.openForAppend path) (FileM.Appended t path) t) := by
  rw [Builder.appendTo]
  cases hbytes : b.toBytes with
  | error e => exact .throw (.unserialized hbytes)
  | ok bytes => exact .adapt ((FileM.appendFile_changes t path bytes).mono fun _ _ h => .handed hbytes h rfl)

/-- What it comes to that a package is written to a file of its own, or to the end of a file. -/
structure Saving (b : Builder) (path : Path) (t : FileTree) : Prop where
  /-- Where there are no bytes to write, the files are not touched. -/
  unserialized : ∀ e, b.toBytes = .error e →
    (b.writeTo path).run.run t = (.error e, t) ∧ (b.appendTo path).run.run t = (.error e, t)
  refused : ∀ e t', (b.writeTo path).run.run t = (.error e, t') ∨ (b.appendTo path).run.run t = (.error e, t') → t' = t
  written : ∀ t', (b.writeTo path).run.run t = (.ok (), t') →
    ∃ bytes, b.toBytes = .ok bytes ∧ t.Rewritten path bytes t'
  appended : ∀ t', (b.appendTo path).run.run t = (.ok (), t') →
    ∃ bytes old, b.toBytes = .ok bytes ∧ t.lookup path = .ok (.file old) ∧ t.Rewritten path (old ++ bytes) t'
  /-- Appending creates no file, however it ends. -/
  vacant : ∀ l, t.get? l = none → ((b.appendTo path).run.run t).2.get? l = none
  written_iff : (∃ t', (b.writeTo path).run.run t = (.ok (), t')) ↔
    (∃ bytes, b.toBytes = .ok bytes) ∧ ∃ l, t.Writable path l
  appended_iff : (∃ t', (b.appendTo path).run.run t = (.ok (), t')) ↔
    (∃ bytes, b.toBytes = .ok bytes) ∧ ∃ old, t.lookup path = .ok (.file old)

theorem saving (b : Builder) (path : Path) (t : FileTree) : Saving b path t where
  unserialized e h := by
    rw [Builder.writeTo, Builder.appendTo, h]
    exact ⟨rfl, rfl⟩
  refused e t' := by
    rintro (hrun | hrun)
    · exact ((writeTo_changes b path t).of_run hrun).of_error rfl fun _ _ _ h => by cases h; rfl
    · exact ((appendTo_changes b path t).of_run hrun).of_error rfl fun _ _ _ h => by cases h; rfl
  written t' hrun := by
    obtain ⟨bytes, hbytes, h⟩ := ((writeTo_changes b path t).of_run hrun).of_ok
    cases h with
    | written h => exact ⟨bytes, hbytes, h.rewritten⟩
  appended t' hrun := by
    obtain ⟨bytes, hbytes, h⟩ := ((appendTo_changes b path t).of_run hrun).of_ok
    cases h with
    | appended hlocate hfile h =>
      exact ⟨bytes, _, hbytes, (FileTree.lookup_eq_ok_iff ..).2 ⟨_, hlocate, hfile⟩, h.rewritten⟩
  vacant l hl := by
    refine (appendTo_changes b path t).mono (P := fun _ t' => t'.get? l = none) fun _ t' h => ?_
    cases h with
    | unserialized => exact hl
    | handed _ h =>
      cases h with
      | refused => exact hl
      | @appended m _ _ _ hfile h =>
        have hne : l ≠ m := by
          rintro rfl
          rw [hfile] at hl
          cases hl
        rw [h.elsewhere l hne, hl]
  written_iff := by
    constructor
    · rintro ⟨t', hrun⟩
      obtain ⟨bytes, hbytes, h⟩ := ((writeTo_changes b path t).of_run hrun).of_ok
      cases h with
      | @written l _ h => exact ⟨⟨bytes, hbytes⟩, l, h.before⟩
    · rintro ⟨⟨bytes, hbytes⟩, l, hl⟩
      refine ⟨_, Prod.ext ((writeTo_changes b path t).eq_ok hbytes fun _ _ h => ?_) rfl⟩
      cases h with
      | written => rfl
      | refused h => exact absurd hl (h l)
  appended_iff := by
    constructor
    · rintro ⟨t', hrun⟩
      obtain ⟨bytes, hbytes, h⟩ := ((appendTo_changes b path t).of_run hrun).of_ok
      cases h with
      | appended hlocate hfile => exact ⟨⟨bytes, hbytes⟩, _, (FileTree.lookup_eq_ok_iff ..).2 ⟨_, hlocate, hfile⟩⟩
    · rintro ⟨⟨bytes, hbytes⟩, old, hold⟩
      refine ⟨_, Prod.ext ((appendTo_changes b path t).eq_ok hbytes fun _ _ h => ?_) rfl⟩
      cases h with
      | appended => rfl
      | refused h => exact absurd hold (h old)

/-- Steps that fail leave no trace: a builder on which any steps were tried is what the
successful ones among them build. Nor does a package that cannot be saved: files change
only where saving ends well, and then only the one that is written. -/
theorem failures_leave_no_trace (compress : Bytes → Bytes) (b : Builder) (steps : List Step) :
    ∃ outcomes final, (attempt compress steps).run b = (outcomes, final) ∧
      List.Forall₂ (Step.Outcome compress) steps outcomes ∧
      build compress b (successes steps outcomes) = .ok final ∧
      (build compress b (successes steps outcomes) >>= Builder.toBytes) = final.toBytes ∧
      ∀ path t, Saving final path t := by
  obtain ⟨outcomes, final, hrun, houtcomes, hbuild⟩ := attempt_run compress steps b
  refine ⟨outcomes, final, hrun, houtcomes, hbuild, ?_, saving final⟩
  rw [hbuild]
  rfl

end FrozenApp.Package
