import FrozenApp.Interpreter.Scripted
import FrozenApp.Proofs.Package.RoundTrip
import FrozenApp.Proofs.Program.Order
import Mathlib.Data.List.Infix
/-!
# Errors that are left pending

`ErrorPending p l q`: an error is pending behind the calls `l` exactly if `q`, where `p`
says so of the state ahead of them. Behind a call that fails, the interpreter is asked for
its error, which is printed and cleared, with one exception: where there is no search path,
nothing is asked (`bootstrap_settles_errors`), so that an error stays (`noSearchPath_silent`).
-/

namespace FrozenApp.Program

open Interpreter Package

/-- A call that cannot do what it is there for. -/
def Fails : Exchange → Prop
  | ⟨.decodeFsDefault _, none⟩ | ⟨.sysGetObject _, none⟩ | ⟨.unmarshal _, none⟩ | ⟨.execCodeModule _ _, none⟩ => True
  | ⟨.sysSetObject _ _, false⟩ | ⟨.listAppend _ _, false⟩ => True
  | _ => False

/-- A preparation that ends so because a call fails. -/
def BootstrapError.FromCall : BootstrapError → Prop
  | .homeNotConverted _ | .homeNotSet | .moduleFailed _ | .noSearchPath | .locationNotConverted _ | .locationNotAdded _ =>
    True
  | .homeNul _ | .extract _ _ | .nameNul _ | .moduleTooLarge _ | .archivePathNul _ | .locationNul _ => False

/-- Is an error pending ahead of calls and behind them? Asking does not change that,
clearing leaves none, and any other call may leave one or not. -/
inductive ErrorPending : Bool → List Exchange → Bool → Prop
  | nil {p} : ErrorPending p [] p
  | asked {p q l} (h : ErrorPending p l q) : ErrorPending p (⟨.errOccurred, p⟩ :: l) q
  | cleared {p q l} (h : ErrorPending false l q) : ErrorPending p (⟨.errClear, ()⟩ :: l) q
  | other {p p' q l} {x : Exchange} (hx : x.1.symbol ∉ [.errOccurred, .errClear]) (h : ErrorPending p' l q) :
      ErrorPending p (x :: l) q

theorem ErrorPending.split {p q : Bool} {l l' : List Exchange} (h : ErrorPending p (l ++ l') q) :
    ∃ m, ErrorPending p l m ∧ ErrorPending m l' q := by
  induction l generalizing p with
  | nil => exact ⟨p, .nil, h⟩
  | cons x l ih =>
    cases h with
    | asked h =>
      obtain ⟨m, hl, hl'⟩ := ih h
      exact ⟨m, .asked hl, hl'⟩
    | cleared h =>
      obtain ⟨m, hl, hl'⟩ := ih h
      exact ⟨m, .cleared hl, hl'⟩
    | other hx h =>
      obtain ⟨m, hl, hl'⟩ := ih h
      exact ⟨m, .other hx hl, hl'⟩

theorem ErrorPending.append {p m q : Bool} {l l' : List Exchange} (h : ErrorPending p l m) (h' : ErrorPending m l' q) :
    ErrorPending p (l ++ l') q := by
  induction h with
  | nil => exact h'
  | asked _ ih => exact .asked (ih h')
  | cleared _ ih => exact .cleared (ih h')
  | other hx _ ih => exact .other hx (ih h')

/-- Behind a drain, no error is pending. -/
theorem Drained.errorPending {p q : Bool} {l drain : List Exchange} (h : Drained drain)
    (hpending : ErrorPending p (l ++ drain) q) : q = false := by
  obtain ⟨m, -, hm⟩ := hpending.split
  cases h with
  | clean =>
    cases hm with
    | asked h => cases h; rfl
    | other hx => simp [Call.symbol] at hx
  | pending =>
    cases hm with
    | asked hm =>
      cases hm with
      | other _ hm =>
        cases hm with
        | cleared h => cases h; rfl
        | other hx => simp [Call.symbol] at hx
    | other hx => simp [Call.symbol] at hx

theorem Drained.asked {drain : List Exchange} (h : Drained drain) : ∃ pending, (⟨.errOccurred, pending⟩ : Exchange) ∈ drain := by
  cases h with
  | clean => exact ⟨false, List.mem_cons_self⟩
  | pending => exact ⟨true, List.mem_cons_self⟩

/-! ## What follows a call that fails -/

/-- What follows a call that fails: an object that is still held is given back, and a
pending error is cleared away. Nothing follows where there is no search path. -/
inductive Aftermath : Exchange → List Exchange → Prop
  | drained {x drain} (hx : x.1.symbol ≠ .sysGetObject) (h : Drained drain) : Aftermath x drain
  | released {x drain} (o : ObjectId) (hx : x.1.symbol ≠ .sysGetObject) (h : Drained drain) :
      Aftermath x (⟨.decRef o, ()⟩ :: drain)
  | silent : Aftermath ⟨.sysGetObject "path", none⟩ []

theorem Aftermath.drain {x : Exchange} {after : List Exchange} (h : Aftermath x after) (hx : x.1.symbol ≠ .sysGetObject) :
    ∃ drain, Drained drain ∧ drain <:+ after := by
  cases h with
  | drained _ h => exact ⟨_, h, List.suffix_refl _⟩
  | released o _ h => exact ⟨_, h, List.suffix_cons _ _⟩
  | silent => exact absurd rfl hx

variable {files : FileTree} {archive : Archive} {home : Path}

theorem Drained.not_fails {drain : List Exchange} (h : Drained drain) : ∀ x ∈ drain, ¬ Fails x := by
  cases h <;> simp [Fails]

theorem FilePublished.not_fails {main : ObjectId} {raw : Bytes} {l : List Exchange} (h : FilePublished main raw l) :
    ∀ x ∈ l, ¬ Fails x := by
  cases h <;> simp [Fails]

theorem Done.not_fails {scope? scope?' : Option Scope} {step : PlanStep} {l : List Exchange}
    (h : Done files archive home scope? step scope?' l) : ∀ x ∈ l, ¬ Fails x := by
  cases h with
  | home | collection | main => simp [Fails]
  | module _ _ hdrain =>
    simp only [List.forall_mem_cons, List.forall_mem_append]
    exact ⟨by simp [Fails], by simp [Fails], by simp [Fails], hdrain.not_fails, by simp [Fails]⟩
  | script _ _ _ hpublish =>
    rw [List.forall_mem_append]
    exact ⟨hpublish.not_fails, by simp [Fails]⟩

theorem Followed.not_fails {scope? scope?' : Option Scope} {steps : List PlanStep} {l : List Exchange}
    (h : Followed files archive home scope? steps (.go scope?') l) : ∀ x ∈ l, ¬ Fails x := by
  generalize hnext : Next.go scope?' = next at h
  induction h with
  | nil => exact List.forall_mem_nil _
  | cons hstep _ ih => exact List.forall_mem_append.2 ⟨hstep.not_fails, ih hnext⟩
  | stopped => cases hnext

/-- Of the calls of a preparation that ends with an error, just one fails. -/
structure FailsOnce (e : BootstrapError) (before : List Exchange) (x : Exchange) (after : List Exchange) : Prop where
  fails : Fails x
  none_before : ∀ y ∈ before, ¬ Fails y
  none_after : ∀ y ∈ after, ¬ Fails y
  fromCall : e.FromCall
  aftermath : Aftermath x after
  noSearchPath : x.1.symbol = .sysGetObject → e = .noSearchPath

section

variable {e : BootstrapError} {before drain : List Exchange} {x : Exchange}

theorem FailsOnce.drained (hfails : Fails x) (hbefore : ∀ y ∈ before, ¬ Fails y) (he : e.FromCall)
    (hx : x.1.symbol ≠ .sysGetObject) (h : Drained drain) : FailsOnce e before x drain :=
  ⟨hfails, hbefore, h.not_fails, he, .drained hx h, fun hsymbol => absurd hsymbol hx⟩

theorem FailsOnce.released (o : ObjectId) (hfails : Fails x) (hbefore : ∀ y ∈ before, ¬ Fails y) (he : e.FromCall)
    (hx : x.1.symbol ≠ .sysGetObject) (h : Drained drain) : FailsOnce e before x (⟨.decRef o, ()⟩ :: drain) :=
  ⟨hfails, hbefore, List.forall_mem_cons.2 ⟨id, h.not_fails⟩, he, .released o hx h, fun hsymbol => absurd hsymbol hx⟩

end

/-- A step of the preparation ends it at one call that fails, or before any is made. -/
theorem Failed.failsOnce {scope? : Option Scope} {step : PlanStep} {e : BootstrapError} {l : List Exchange}
    (h : Failed files archive home scope? step (.error (.bootstrap e)) l) :
    (l = [] ∧ ¬ e.FromCall) ∨ ∃ before x after, l = before ++ x :: after ∧ FailsOnce e before x after := by
  have hnone : ∀ y ∈ ([] : List Exchange), ¬ Fails y := List.forall_mem_nil _
  cases h with
  | homeNul | moduleNotExtracted | moduleNul | archivePathNul => exact .inl ⟨rfl, id⟩
  | homeNotConverted _ hdrain | moduleNotUnmarshalled _ _ hdrain =>
    exact .inr ⟨[], _, _, rfl, .drained trivial hnone trivial (by simp [Call.symbol]) hdrain⟩
  | @homeNotSet _ value _ _ hdrain =>
    refine .inr ⟨[⟨.decodeFsDefault home, some value⟩], _, _, rfl, ?_⟩
    exact .released value trivial (by simp [Fails]) trivial (by simp [Call.symbol]) hdrain
  | @moduleNotRun _ _ data code _ _ _ hdrain =>
    refine .inr ⟨[⟨.unmarshal data, some code⟩], _, _, rfl, ?_⟩
    exact .released code trivial (by simp [Fails]) trivial (by simp [Call.symbol]) hdrain
  | noSearchPath => exact .inr ⟨[], _, [], rfl, trivial, hnone, hnone, trivial, .silent, fun _ => rfl⟩
  | @locationNotConverted _ _ searchPath _ _ hdrain =>
    refine .inr ⟨[⟨.sysGetObject "path", some searchPath⟩], _, _, rfl, ?_⟩
    exact .drained trivial (by simp [Fails]) trivial (by simp [Call.symbol]) hdrain
  | @locationNotAdded _ e searchPath item _ _ hdrain =>
    refine .inr ⟨[⟨.sysGetObject "path", some searchPath⟩, ⟨.decodeFsDefault (archive.location e), some item⟩], _, _, rfl, ?_⟩
    exact .released item trivial (by simp [Fails]) trivial (by simp [Call.symbol]) hdrain

/-- A preparation succeeds without a call that fails, or ends at the only one. -/
theorem Followed.failsOnce {r : Except BootstrapError Unit} {l : List Exchange}
    (h : Followed files archive home none (preparation archive) (.ofPreparation r) l) :
    ((∀ x ∈ l, ¬ Fails x) ∧ ∀ e, r = .error e → ¬ e.FromCall) ∨
      ∃ e before x after, r = .error e ∧ l = before ++ x :: after ∧ FailsOnce e before x after := by
  cases r with
  | ok => exact .inl ⟨h.not_fails, nofun⟩
  | error e =>
    rcases h.split with ⟨scope?, hnext⟩ | ⟨done, step, rest, scope?, calls, last, -, rfl, hdone, hfailed⟩
    · cases hnext
    · rcases hfailed.failsOnce with ⟨rfl, he⟩ | ⟨before, x, after, rfl, honce⟩
      · rw [List.append_nil]
        exact .inl ⟨hdone.not_fails, fun _ hr => Except.error.inj hr ▸ he⟩
      · refine .inr ⟨e, calls ++ before, x, after, rfl, (List.append_assoc ..).symm, ?_⟩
        exact { honce with none_before := List.forall_mem_append.2 ⟨hdone.not_fails, honce.none_before⟩ }

/-! ## The preparation -/

/-- What becomes of an error behind a call that fails. -/
structure Settled (r : Except BootstrapError Unit) (before : List Exchange) (x : Exchange) (after : List Exchange) :
    Prop where
  error : ∃ e, r = .error e
  aftermath : Aftermath x after
  /-- The interpreter is asked for its error, and none is pending in the end. -/
  cleared : x.1.symbol ≠ .sysGetObject → (∃ pending, (⟨.errOccurred, pending⟩ : Exchange) ∈ after) ∧
    ∀ p q, ErrorPending p (before ++ x :: after) q → q = false
  /-- Where there is no search path, what the call has left is what is left in the end. -/
  silent : x.1.symbol = .sysGetObject → r = .error .noSearchPath ∧ after = [] ∧
    ∀ p q, ErrorPending p before q → ∀ q', ErrorPending p (before ++ x :: after) q'

theorem FailsOnce.settled {e : BootstrapError} {before after : List Exchange} {x : Exchange} (h : FailsOnce e before x after) :
    Settled (.error e) before x after where
  error := ⟨e, rfl⟩
  aftermath := h.aftermath
  cleared hx := by
    obtain ⟨drain, hdrain, ahead, rfl⟩ := h.aftermath.drain hx
    obtain ⟨pending, hpending⟩ := hdrain.asked
    refine ⟨⟨pending, List.mem_append_right _ hpending⟩, fun p q hflag => ?_⟩
    rw [← List.cons_append, ← List.append_assoc] at hflag
    exact hdrain.errorPending hflag
  silent hx := by
    have hafter : after = [] := by
      cases h.aftermath with
      | drained hne | released _ hne => exact absurd hx hne
      | silent => rfl
    refine ⟨by rw [h.noSearchPath hx], hafter, fun p q hbefore q' => ?_⟩
    rw [hafter]
    exact hbefore.append (.other (by rw [hx]; decide) .nil)

/-- Whatever the interpreter replies, a preparation fails through a call exactly if one
fails. Behind it, a pending error is cleared away unless there is no search path. -/
theorem bootstrap_settles_errors (files : FileTree) (lib : Library) (archive : Archive) (home : Path) :
    Goes (bootstrap files lib archive home) fun r l =>
      ((∃ e, r = .error e ∧ e.FromCall) ↔ ∃ x ∈ l, Fails x) ∧
        ∀ before x after, l = before ++ x :: after → Fails x → Settled r before x after := by
  refine (bootstrap_goes files lib archive home).mono fun r l h => ?_
  rcases h.failsOnce with ⟨hnone, hr⟩ | ⟨e, before, x, after, rfl, rfl, honce⟩
  · refine ⟨iff_of_false ?_ ?_, ?_⟩
    · rintro ⟨e, he, hcall⟩
      exact hr e he hcall
    · rintro ⟨x, hx, hfails⟩
      exact hnone x hx hfails
    · rintro before x after rfl hfails
      exact absurd hfails (hnone x (by simp))
  · refine ⟨iff_of_true ⟨e, rfl, honce.fromCall⟩ ⟨x, by simp, honce.fails⟩, fun before' x' after' heq hfails => ?_⟩
    -- no other call fails
    have hbefore : x' ∉ before := fun hx => honce.none_before _ hx hfails
    have hafter : x' ∉ after := fun hx => honce.none_after _ hx hfails
    obtain ⟨rfl, rfl, rfl⟩ := (List.append_cons_inj_of_notMem hbefore hafter).1 heq
    exact honce.settled

/-- A package with one collection of modules. -/
def pathlessBuilder : Builder where
  version := 312
  libraryName := "libpython3.12.so.1.0"
  entries := [⟨.collection, "PYZ", [99], 1, false⟩]

theorem toBytes_pathlessBuilder : pathlessBuilder.toBytes = .ok pathlessBuilder.bytes :=
  toBytes_eq_bytes (by decide) (by decide)

/-- There is no search path, and an error is pending where it has been asked for. -/
def pathlessScript : Script where
  rules := [⟨.sysGetObject, 0, true, some true, .ok⟩]
  preConfig := default
  fill := 0
  pending := false

/-- An interpreter without a search path. -/
def pathlessLibrary : Library where
  path := .ofString "/app/libpython3.12.so"
  version := .ofNumbers 3 12
  address _ := 0
  run t _ c := pathlessScript.reply t c

/-- The interpreter is not asked for the error that its missing search path leaves. -/
theorem noSearchPath_silent :
    Archive.read ⟨fun _ => some (.file pathlessBuilder.bytes)⟩ (.ofString "/app") =
        .ok (pathlessBuilder.archiveAt (.ofString "/app") 0) ∧
      ∃ t : Trace, (bootstrap ⟨fun _ => some (.file pathlessBuilder.bytes)⟩ pathlessLibrary
          (pathlessBuilder.archiveAt (.ofString "/app") 0) (.ofString "/opt/app")).run.run [] = (.error .noSearchPath, t) ∧
        t.calls = [⟨.decodeFsDefault (.ofString "/opt/app"), some 1⟩, ⟨.sysSetObject homeAttribute 1, true⟩, ⟨.decRef 1, ()⟩,
          ⟨.sysGetObject "path", none⟩] ∧
        pathlessLibrary.run t 0 .errOccurred = true := by
  refine ⟨?_, _, rfl, rfl, rfl⟩
  exact read_toBytes_alone (by decide) toBytes_pathlessBuilder rfl (by decide +kernel)

end FrozenApp.Program
