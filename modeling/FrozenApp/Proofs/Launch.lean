import FrozenApp.Launcher
import FrozenApp.Proofs.Interpreter.Load
import FrozenApp.Proofs.Program.Calls
import FrozenApp.Proofs.Startup.Laws
/-!
# What a launch keeps to

`Ran` lists the ways in which a program can be run in an interpreter, and `Safe`
is what they have in common. `Launched` lists the ways in which a launch can go:
it is refused before anything is tried, no candidate for the library can be bound,
or one is bound, used and closed. `execute_launched`: every launch goes one of
these ways, whatever the loader and the interpreter do.
-/

namespace FrozenApp

open Config (Block Layout)
open Interpreter Package Startup Lifecycle

/-! ## Running a program in an interpreter -/

/-- How a program is run in an interpreter: the outcome, and the calls. -/
inductive Ran (version : Version) (s : Settings) : Except LaunchError Int → List Exchange → Prop
  /-- The interpreter is not started. -/
  | stopped {e : StartError} {state : State} {l : List Exchange} (h : Started version s (.error e) state l) :
      Ran version s (.error (.start e)) l
  | ran {start program final : List Exchange} {outcome : Except LaunchError Int}
      (h : Started version s (.ok ()) .running start) (hprogram : ∀ x ∈ program, x.1.symbol ∈ Program.symbols)
      (hfinal : FinalCalls final) (houtcome : ∀ e, outcome ≠ .error (.start e))
      (hcode : ∀ code, outcome = .ok code → Program.IsExitCode code) :
      Ran version s outcome (start ++ program ++ final)

/-- What has been done when the interpreter is about to be finalized. -/
inductive Prepared (version : Version) (s : Settings) : Except LaunchError Int → Lifecycle → List Exchange → Prop
  | stopped {e : StartError} {life : Lifecycle} {l : List Exchange} (hrecord : life.record? = none)
      (h : Started version s (.error e) life.state l) : Prepared version s (.error (.start e)) life l
  | ran {start program : List Exchange} {outcome : Except LaunchError Int} {life : Lifecycle}
      (hrecord : life.record? = none) (h : Started version s (.ok ()) life.state start)
      (hprogram : ∀ x ∈ program, x.1.symbol ∈ Program.symbols) (houtcome : ∀ e, outcome ≠ .error (.start e))
      (hcode : ∀ code, outcome = .ok code → Program.IsExitCode code) :
      Prepared version s outcome life (start ++ program)

theorem runProgram_stage (host : Host) (files : FileTree) (lib : Library) (s : Settings) :
    Stage (host.runProgram files lib s) (.new lib) (Prepared lib.version s) := by
  have hstart : Stage ((Lifecycle.start s).adapt LaunchError.start) (.new lib) fun r life l =>
      ∃ r', r = r'.mapError LaunchError.start ∧ Started lib.version s r' life.state l ∧ life.record? = none := by
    refine Over.map ((Lifecycle.start_stage s rfl rfl).mono fun r life l ⟨h, hlife⟩ => ⟨r, rfl, h, ?_⟩)
    rw [hlife]
    rfl
  refine Stage.bind hstart ?_ ?_
  · rintro _ life l ⟨r, hr, h, hrecord⟩
    cases r with
    | error => cases hr
    | ok =>
      refine Over.lift ((Program.program_calls host files lib).mono fun outcome l' ⟨hl', houtcome, hcode⟩ => ?_)
      exact .ran hrecord h hl' houtcome hcode
  · rintro e life l ⟨r, hr, h, hrecord⟩
    cases r with
    | error => cases hr; exact .stopped hrecord h
    | ok => cases hr

/-- What follows behind the program, and gives the outcome back. -/
theorem Prepared.ran_of_finalized {version : Version} {s : Settings} {outcome : Except LaunchError Int}
    {life life' : Lifecycle} {l final : List Exchange} (h : Prepared version s outcome life l)
    (hfinal : Finalized life life' final) : Ran version s outcome (l ++ final) ∧ life'.clearing = [] := by
  cases h with
  | stopped hrecord h =>
    cases hfinal with
    | skipped => rw [List.append_nil, clearing, hrecord]; exact ⟨.stopped h, rfl⟩
    | finalized hstate => cases h.running_iff.1 hstate
  | ran hrecord h hprogram houtcome hcode =>
    have hrunning : life.state = .running := h.running_iff.2 rfl
    cases hfinal with
    | skipped hstate => exact absurd hrunning hstate
    | finalized _ hfinal =>
      rw [clearing, hrecord]
      rw [hrunning] at h
      exact ⟨.ran h hprogram hfinal houtcome hcode, rfl⟩

theorem runInterpreter_acts (host : Host) (files : FileTree) (lib : Library) (s : Settings) :
    Acts (host.runInterpreter files lib s) (Ran lib.version s) := by
  rw [Host.runInterpreter]
  refine Acts.map ?_
  -- the outcome is known ahead of the end, which does not depend on it
  refine Over.bind (R := fun outcome _ l => Ran lib.version s outcome l) (runProgram_stage host files lib s) ?_
  intro outcome life l h
  refine Over.bind (finalize_over life) fun _ life' final hfinal => ?_
  obtain ⟨hran, hclearing⟩ := h.ran_of_finalized hfinal
  refine Over.bind (releaseConfig_over life') ?_
  rintro _ _ _ ⟨-, rfl⟩
  refine Over.pure ?_
  rw [hclearing, List.append_nil, List.append_nil]
  exact hran

/-- What can be relied on while a program is run in an interpreter. -/
structure Safe (version : Version) (outcome : Except LaunchError Int) (l : List Exchange) : Prop where
  /-- The layout that has been selected for the library is found again for the record. -/
  layout : ∀ e, outcome ≠ .error (.start (.noLayout e))
  orderly : Orderly version l
  /-- The interpreter is asked whether it is initialized if, and only if, it has been. -/
  asked_iff : (∃ answer, ⟨.isInitialized, answer⟩ ∈ l) ↔ Succeeded l
  /-- It is finalized, and this once, if it has been initialized and says so. -/
  finalized_iff : times .finalize l = 1 ↔ Succeeded l ∧ ⟨.isInitialized, true⟩ ∈ l
  /-- No call but the last one finalizes it. -/
  finalized_last : ∀ x ∈ l.dropLast, x.1.symbol ≠ .finalize
  /-- A program that ends has run in an interpreter, and its exit code is none of a
  launch that fails. -/
  ended : ∀ code, outcome = .ok code →
    Succeeded l ∧ Program.IsExitCode code ∧ Launcher.exitStatus code ≠ Launcher.failureCode

/-- Neither a start nor a program has to do with an end. -/
theorem mem_ran {start program final : List Exchange} (hstart : ∀ x ∈ start, x.1.symbol ∈ Symbol.starting)
    (hprogram : ∀ x ∈ program, x.1.symbol ∈ Program.symbols) {x : Exchange}
    (hx : x.1.symbol ∈ [Symbol.isInitialized, .finalize]) : x ∈ start ++ program ++ final ↔ x ∈ final := by
  have hnot : ∀ s ∈ [Symbol.isInitialized, .finalize], s ∉ Symbol.starting ++ Program.symbols := by decide
  simp only [List.mem_append] at hnot ⊢
  constructor
  · rintro ((h | h) | h)
    · exact absurd (.inl (hstart x h)) (hnot _ hx)
    · exact absurd (.inr (hprogram x h)) (hnot _ hx)
    · exact h
  · exact Or.inr

theorem Ran.safe {version : Version} {s : Settings} {outcome : Except LaunchError Int} {l : List Exchange}
    {layout : Layout} (h : Ran version s outcome l) (hlayout : Layout.select version s.freeThreaded = .ok layout) :
    Safe version outcome l := by
  cases h with
  | stopped h =>
    -- a start calls nothing that has to do with an end
    have hnot : ∀ f ∈ [Symbol.isInitialized, .finalize], ∀ x ∈ l, x.1.symbol ≠ f := by
      intro f hf x hx heq
      have hdisjoint : ∀ f ∈ [Symbol.isInitialized, .finalize], f ∉ Symbol.starting := by decide
      exact hdisjoint f hf (heq ▸ h.symbols x hx)
    refine ⟨?_, Tries.nil.orderly_append h, iff_of_false ?_ h.not_succeeded, iff_of_false ?_ ?_, ?_, nofun⟩
    · intro e heq
      cases heq
      rw [h.select_error] at hlayout
      cases hlayout
    · rintro ⟨answer, hx⟩
      exact hnot .isInitialized (by decide) _ hx rfl
    · rw [times_eq_zero (hnot .finalize (by decide))]
      decide
    · exact fun hsucceeded => h.not_succeeded hsucceeded.1
    · exact fun x hx => hnot .finalize (by decide) x (List.mem_of_mem_dropLast hx)
  | @ran start program final _ h hprogram hfinal houtcome hcode =>
    have hother : ∀ x ∈ program, x.1.symbol ∉ .finalize :: Symbol.starting := by
      have hdisjoint : ∀ f ∈ Program.symbols, f ∉ .finalize :: Symbol.starting := by decide
      exact fun x hx => hdisjoint _ (hprogram x hx)
    have hsucceeded : Succeeded (start ++ program) := h.succeeded.append_right program
    have htimes : times .finalize (start ++ program) = 0 := by
      rw [times_append, h.times_eq_zero (by decide), times_eq_zero fun x hx heq => hother x hx (by simp [heq])]
    refine ⟨fun e => houtcome _, ?_, iff_of_true ?_ (hsucceeded.append_right final), ?_, ?_, ?_⟩
    · exact ((Tries.nil.orderly_append h).append_other hother).append_final hsucceeded htimes hfinal
    · cases hfinal with
      | idle => exact ⟨false, (mem_ran h.symbols hprogram (by simp [Call.symbol])).2 (List.mem_cons_self ..)⟩
      | done => exact ⟨true, (mem_ran h.symbols hprogram (by simp [Call.symbol])).2 (List.mem_cons_self ..)⟩
    · rw [times_append, htimes, mem_ran h.symbols hprogram (by simp [Call.symbol]),
        and_iff_right (hsucceeded.append_right final)]
      cases hfinal <;> simp [Call.symbol]
    · have hne : final ≠ [] := by cases hfinal <;> simp
      rw [List.dropLast_append_of_ne_nil hne]
      intro x hx heq
      rw [mem_ran h.symbols hprogram (by simp [heq])] at hx
      revert x
      cases hfinal <;> simp [Call.symbol]
    · intro code hok
      refine ⟨hsucceeded.append_right final, hcode code hok, ?_⟩
      rcases hcode code hok with rfl | rfl <;> decide

/-! ## Launching -/

/-- The version that the package names. -/
def Host.version (host : Host) : Version :=
  ⟨host.archive.cookie.version⟩

theorem Host.selectLayout_eq {host : Host} (h : host.archive.isOnefile = false) : host.selectLayout =
    (Layout.select host.version host.options.launch.freeThreaded).mapError LaunchError.noLayout := by
  simp only [selectLayout, h, version]
  cases Layout.select ⟨host.archive.cookie.version⟩ host.options.launch.freeThreaded <;> rfl

theorem unload_gives (host : Host) :
    Gives host.unload { host with library? := none } [] (host.library?.map Library.path).toList := by
  obtain ⟨archive, executable, home, argv, options, library?⟩ := host
  cases library? with
  | none => exact Gives.pure
  | some lib => exact Gives.debug_bind ((Gives.debug_bind (Gives.closed lib.path)).bind_pure rfl)

theorem attach_gives (host : Host) (lib : Library) :
    Gives (host.attach lib) { host with library? := some lib } [] (host.library?.map Library.path).toList :=
  (unload_gives host).bind_pure rfl

/-- How a launch goes: the outcome, the host afterwards, and what is done. -/
inductive Launched (host : Host) (loader : Loader) : Except LaunchError Int → Host → Trace → Prop
  /-- The package holds files to unpack. -/
  | onefile (honefile : host.archive.isOnefile = true) :
      Launched host loader (.error (.onefile host.archive.path)) host []
  | noLayout {e : Config.SelectError} (honefile : host.archive.isOnefile = false)
      (hlayout : Layout.select host.version host.options.launch.freeThreaded = .error e) :
      Launched host loader (.error (.noLayout e)) host []
  /-- All candidates have been tried, and none can be bound. -/
  | noLibrary {layout : Layout} {first : BindError} {errors : List BindError} {search : Trace}
      (honefile : host.archive.isOnefile = false)
      (hlayout : Layout.select host.version host.options.launch.freeThreaded = .ok layout)
      (herrors : (host.libraryPaths host.version).map (loader.outcome · host.version) = (first :: errors).map .error)
      (hsearch : Quiet ((host.libraryPaths host.version).map (·, host.version))
        ((first :: errors).flatMap BindError.closings) search) :
      Launched host loader (.error (.noLibrary (some first))) host search
  /-- The candidates have been tried up to the first one that can be bound. The library
  that was attached is closed then, and the new one behind all calls. -/
  | bound {layout : Layout} {failed rest : List Path} {path : Path} {errors : List BindError} {lib : Library}
      {outcome : Except LaunchError Int} {search former run release : Trace}
      (honefile : host.archive.isOnefile = false)
      (hlayout : Layout.select host.version host.options.launch.freeThreaded = .ok layout)
      (hpaths : host.libraryPaths host.version = failed ++ path :: rest)
      (herrors : failed.map (loader.outcome · host.version) = errors.map .error)
      (hlib : loader.outcome path host.version = .ok lib)
      (hsearch : Quiet ((failed ++ [path]).map (·, host.version)) (errors.flatMap BindError.closings) search)
      (hformer : Quiet [] (host.library?.map Library.path).toList former)
      (hrun : ∀ e ∈ run, e.IsInner) (hsafe : Safe host.version outcome run.calls)
      (hrelease : Quiet [] [path] release) :
      Launched host loader outcome { host with library? := none } (search ++ (former ++ (run ++ release)))

/-- However a launch goes, it goes one of these ways, and no library is tried twice. -/
theorem execute_launched (host : Host) (files : FileTree) (loader : Loader) (environment? : String → Option Bytes) :
    (host.libraryPaths host.version).Nodup ∧
      Leaves (host.execute files loader environment?) fun r new => Launched host loader r.1 r.2 new := by
  refine ⟨host.libraryPaths_nodup host.version, ?_⟩
  rw [Host.execute]
  cases honefile : host.archive.isOnefile with
  | true =>
    rw [Host.selectLayout, if_pos honefile]
    exact Leaves.pure (.onefile honefile)
  | false =>
    cases hlayout : Layout.select host.version host.options.launch.freeThreaded with
    | error e =>
      rw [Host.selectLayout_eq honefile, hlayout]
      exact Leaves.pure (.noLayout honefile hlayout)
    | ok layout =>
      rw [Host.selectLayout_eq honefile, hlayout]
      dsimp only [Except.mapError]
      obtain ⟨r, tried, errors, hload, hfound⟩ := loadFirst_gives loader host.version (host.libraryPaths host.version)
      -- the line of the log counts as a part of the search
      rw [← bind_assoc]
      refine Leaves.bind (Gives.debug_bind hload) ?_
      rintro _ search ⟨rfl, hsearch⟩
      generalize hpaths : host.libraryPaths host.version = paths at hfound
      cases hfound with
      | none herrors =>
        rw [← hpaths] at hsearch herrors
        refine Leaves.pure ?_
        rw [List.append_nil]
        cases errors with
        | nil => exact absurd (List.map_eq_nil_iff.1 herrors) (host.libraryPaths_ne_nil host.version)
        | cons first errors => exact .noLibrary honefile hlayout herrors hsearch
      | @bound failed rest path _ lib herrors hlib hpath hversion =>
        subst hpath
        refine Leaves.bind (attach_gives host lib) ?_
        rintro _ former ⟨rfl, hformer⟩
        refine Leaves.bind (runInterpreter_acts _ files lib _) ?_
        rintro outcome run ⟨hrun, hran⟩
        rw [hversion] at hran
        have hsafe : Safe host.version outcome run.calls := hran.safe hlayout
        -- the library is closed first, and the end of the program is logged then
        refine ((unload_gives { host with library? := some lib }).bind
          (?_ : Gives _ (outcome, { host with library? := none }) [] [])).leaves ?_
        · match outcome with
          | .ok 0 => exact Gives.debug_bind Gives.pure
          | .ok (.ofNat (code + 1)) => exact Gives.debug_bind Gives.pure
          | .ok (.negSucc code) => exact Gives.debug_bind Gives.pure
          | .error _ => exact Gives.pure
        · intro release hrelease
          exact .bound honefile hlayout hpaths herrors hlib hsearch hformer hrun hsafe hrelease

end FrozenApp
