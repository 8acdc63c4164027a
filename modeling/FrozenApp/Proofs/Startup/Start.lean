import FrozenApp.Proofs.Startup.Populate
/-!
# How a start goes

`Started` lists the ways in which a start can end, with the calls that are made
on each of them; the record is cleared on every one that has it. That a start goes one of these
ways, whatever the interpreter replies, is `start_stage`.
-/

namespace FrozenApp.Startup

open Config (Block Layout)
open Interpreter

/-- The calls of the first stage, and whether the interpreter takes its outcome for
an exception. -/
def preInitCalls (pre config : PreConfig) (status : Status) (refused : Bool) : List Exchange :=
  [⟨.preConfigInitIsolated, pre⟩, ⟨.preInitialize config, status⟩, ⟨.statusException status, refused⟩]

/-- What follows once the members have been set or one of them cannot be, before the
record is cleared. -/
inductive Ending {size : Nat} (block : Block size) :
    Except StepError Unit → Except StartError Unit → State → List Exchange → Prop
  /-- A member cannot be set. -/
  | stuck (e : StepError) : Ending block (.error e) (.error (.step e)) .configAllocated []
  | failed (status : Status) : Ending block (.ok ()) (.error (.failed status)) .configPopulated
      [⟨.initializeFromConfig block, status⟩, ⟨.statusException status, true⟩, ⟨.exitStatusException status, ()⟩]
  | running (status : Status) : Ending block (.ok ()) (.ok ()) .running
      [⟨.initializeFromConfig block, status⟩, ⟨.statusException status, false⟩]

/-- How a start from the first state ends: the outcome, the state behind it, and
the calls. -/
inductive Started (version : Version) (s : Settings) : Except StartError Unit → State → List Exchange → Prop
  | refused {pre : PreConfig} {status : Status} :
      Started version s (.error (.step (.refused "python pre-initialization" status))) .uninitialized
        (preInitCalls pre (adjustPreConfig s pre) status true)
  | noLayout {pre : PreConfig} {status : Status} {e : Config.SelectError}
      (hlayout : Layout.select version s.freeThreaded = .error e) :
      Started version s (.error (.noLayout e)) .preInitialized
        (preInitCalls pre (adjustPreConfig s pre) status false)
  | configured {pre : PreConfig} {status : Status} {layout : Layout} {block block' : Block layout.size}
      {set : Except StepError Unit} {uses tail : List Exchange} {r : Except StartError Unit} {state : State}
      (hlayout : Layout.select version s.freeThreaded = .ok layout)
      (hpopulated : Populated layout block (assignments s) set block' uses) (hending : Ending block' set r state tail) :
      Started version s r state (preInitCalls pre (adjustPreConfig s pre) status false ++
        ⟨.configInitIsolated Block.zero, block⟩ :: (uses ++ (tail ++ [⟨.configClear block', ()⟩])))

/-- A start succeeds exactly if the interpreter runs behind it. -/
theorem Started.running_iff {version : Version} {s : Settings} {r : Except StartError Unit} {state : State}
    {l : List Exchange} (h : Started version s r state l) : state = .running ↔ r = .ok () := by
  cases h with
  | refused => exact iff_of_false nofun nofun
  | noLayout => exact iff_of_false nofun nofun
  | configured _ _ hending =>
    cases hending with
    | stuck => exact iff_of_false nofun nofun
    | failed => exact iff_of_false nofun nofun
    | running => exact iff_of_true rfl rfl

theorem Started.select_error {version : Version} {s : Settings} {e : Config.SelectError} {state : State}
    {l : List Exchange} (h : Started version s (.error (.noLayout e)) state l) :
    Layout.select version s.freeThreaded = .error e := by
  cases h with
  | noLayout hlayout => exact hlayout
  | configured _ _ hending => cases hending

namespace Lifecycle

variable {life : Lifecycle} {ε α β : Type}

theorem ask_bind {c : Call} {f : c.Reply → LifeM ε β} {R : Except ε β → Lifecycle → List Exchange → Prop}
    (h : ∀ r, Stage (f r) life fun r' life' l => R r' life' (⟨c, r⟩ :: l)) : Stage (ask c >>= f) life R := by
  have hask : (ask c >>= f : LifeM ε β) = get >>= fun life => liftM (life.library.ask c) >>= f := by
    rw [ask, bind_assoc]
  rw [hask]
  exact Stage.get_bind (Stage.ask_bind h)

theorem advance_stage {next : State} {P : Except ε Unit → Lifecycle → List Exchange → Prop}
    (h : P (.ok ()) { life with state := next } []) : Stage (advance next) life P :=
  Stage.get_bind (Stage.debug_bind (Stage.modify h))

/-- How the first stage ends. -/
inductive PreStarted (s : Settings) (life : Lifecycle) : Except StartError Unit → Lifecycle → List Exchange → Prop
  | refused (pre : PreConfig) (status : Status) :
      PreStarted s life (.error (.step (.refused "python pre-initialization" status))) life
        (preInitCalls pre (adjustPreConfig s pre) status true)
  | passed (pre : PreConfig) (status : Status) :
      PreStarted s life (.ok ()) { life with state := .preInitialized }
        (preInitCalls pre (adjustPreConfig s pre) status false)

theorem preInitialize_stage (s : Settings) (life : Lifecycle) :
    Stage (preInitialize s) life (PreStarted s life) := by
  rw [preInitialize]
  refine ask_bind fun pre => ?_
  extract_lets last rest
  have hrest : Stage (rest ()) life fun r life' l => PreStarted s life r life' (⟨.preConfigInitIsolated, pre⟩ :: l) := by
    dsimp only [rest, last]
    refine ask_bind fun status => ask_bind fun refused => ?_
    cases refused with
    | true => exact Stage.throw_bind (.refused pre status)
    | false => exact advance_stage (.passed pre status)
  split
  · exact Stage.debug_bind hrest
  · exact hrest

/-- How a record is allocated. -/
inductive Allocated (s : Settings) (life : Lifecycle) : Except StartError Unit → Lifecycle → List Exchange → Prop
  | noLayout {e : Config.SelectError} (hlayout : Layout.select life.library.version s.freeThreaded = .error e) :
      Allocated s life (.error (.noLayout e)) life []
  | done {layout : Layout} (block : Block layout.size)
      (hlayout : Layout.select life.library.version s.freeThreaded = .ok layout) :
      Allocated s life (.ok ()) { life with state := .configAllocated, record? := some ⟨layout, block⟩ }
        [⟨.configInitIsolated (Block.zero : Block layout.size), block⟩]

theorem allocate_stage (s : Settings) (life : Lifecycle) : Stage (allocate s) life (Allocated s life) := by
  rw [allocate]
  refine Stage.get_bind ?_
  split
  · next e hlayout => exact Stage.throw (.noLayout hlayout)
  · next layout hlayout =>
    refine ask_bind fun block => Stage.debug_bind (Stage.modify_bind (advance_stage ?_))
    exact .done block hlayout

/-- How the members of a record are set. -/
inductive RecordFilled (s : Settings) (life : Lifecycle) (layout : Layout) (block : Block layout.size) :
    Except StartError Unit → Lifecycle → List Exchange → Prop
  | stopped {e : StepError} {block' : Block layout.size} {uses : List Exchange}
      (hpopulated : Populated layout block (assignments s) (.error e) block' uses) :
      RecordFilled s life layout block (.error (.step e)) { life with record? := some ⟨layout, block'⟩ } uses
  | done {block' : Block layout.size} {uses : List Exchange}
      (hpopulated : Populated layout block (assignments s) (.ok ()) block' uses) :
      RecordFilled s life layout block (.ok ())
        { life with state := .configPopulated, record? := some ⟨layout, block'⟩ } uses

theorem fillRecord_stage (s : Settings) {life : Lifecycle} {layout : Layout} {block : Block layout.size}
    (hrecord : life.record? = some ⟨layout, block⟩) :
    Stage (fillRecord s) life (RecordFilled s life layout block) := by
  obtain ⟨library, state, record?⟩ := life
  cases hrecord
  rw [fillRecord]
  refine Stage.get_bind (Stage.get_bind ?_)
  have hpopulate : Acts ((populate library layout s).run block) fun p l =>
      Populated layout block (assignments s) p.1 p.2 l := populate_stage library layout s block
  refine Stage.lift_bind hpopulate ?_
  rintro ⟨outcome, block'⟩ uses hpopulated
  refine Stage.modify_bind ?_
  cases outcome with
  | error e => exact Stage.throw (by rw [List.append_nil]; exact .stopped hpopulated)
  | ok => exact advance_stage (by rw [List.append_nil]; exact .done hpopulated)

/-- However the interpreter is started with a record, it is one of the ways of `Ending`. -/
theorem startInterpreter_stage {life : Lifecycle} {record : Record} (hstate : life.state = .configPopulated)
    (hrecord : life.record? = some record) :
    Stage startInterpreter life fun r life' l =>
      Ending record.block (.ok ()) r life'.state l ∧ life' = { life with state := life'.state } := by
  obtain ⟨library, state, record?⟩ := life
  cases hstate; cases hrecord
  rw [startInterpreter]
  refine Stage.get_bind (Stage.debug_bind ?_)
  refine ask_bind fun status => ask_bind fun failed => ?_
  cases failed with
  | true => exact ask_bind fun _ => Stage.throw_bind ⟨.failed status, rfl⟩
  | false => exact advance_stage ⟨.running status, rfl⟩

/-- The calls that give a record back. -/
def clearing (life : Lifecycle) : List Exchange :=
  match life.record? with
  | none => []
  | some record => [⟨.configClear record.block, ()⟩]

theorem releaseConfig_over (life : Lifecycle) :
    Over releaseConfig life fun _ life' l => life' = { life with record? := none } ∧ l = life.clearing := by
  obtain ⟨library, state, record?⟩ := life
  rw [releaseConfig]
  refine Over.get_bind ?_
  cases record? with
  | none => exact Over.pure ⟨rfl, rfl⟩
  | some record => exact Over.get_bind (Over.ask_bind fun _ => Over.debug_bind (Over.modify ⟨rfl, rfl⟩))

theorem startStages_stage (s : Settings) {life : Lifecycle} (hrecord : life.record? = none)
    (hstate : life.state = .uninitialized) :
    Stage (startStages s) life fun r life' l =>
      Started life.library.version s r life'.state (l ++ life'.clearing) ∧ life'.library = life.library := by
  obtain ⟨library, state, record?⟩ := life
  cases hrecord; cases hstate
  -- a stage that fails ends the start, and `clearing` is what is then still to be done
  rw [startStages]
  refine Stage.bind (preInitialize_stage s _) ?_ ?_
  · rintro _ _ _ (_ | ⟨pre, status⟩)
    refine Stage.bind (allocate_stage s _) ?_ ?_
    · rintro _ _ _ (_ | ⟨block, hlayout⟩)
      refine Stage.bind (fillRecord_stage s rfl) ?_ ?_
      · rintro _ _ _ (_ | hpopulated)
        refine (startInterpreter_stage rfl rfl).mono ?_
        rintro r life' l ⟨hending, hlife⟩
        rw [hlife]
        have h : Started library.version s r _ (preInitCalls pre (adjustPreConfig s pre) status false ++ _) :=
          .configured hlayout hpopulated hending
        exact ⟨by simpa [clearing] using h, rfl⟩
      · rintro e life' l (hpopulated | _)
        have h : Started library.version s _ _ (preInitCalls pre (adjustPreConfig s pre) status false ++ _) :=
          .configured hlayout hpopulated (.stuck _)
        exact ⟨by simpa [clearing] using h, rfl⟩
    · rintro e life' l (hlayout | _)
      exact ⟨.noLayout hlayout, rfl⟩
  · rintro e life' l (⟨pre, status⟩ | _)
    exact ⟨.refused, rfl⟩

/-- However a start from the first state goes, it is one of the ways of `Started`,
and no record is held behind it. -/
theorem start_stage (s : Settings) {life : Lifecycle} (hrecord : life.record? = none)
    (hstate : life.state = .uninitialized) :
    Stage (start s) life fun r life' l => Started life.library.version s r life'.state l ∧
      life' = { life with state := life'.state } := by
  obtain ⟨library, state, record?⟩ := life
  cases hrecord; cases hstate
  rw [Stage, start, ExceptT.run_mk]
  refine Over.get_bind ?_
  dsimp only
  rw [if_neg (by simp)]
  refine Over.bind (startStages_stage s rfl rfl) ?_
  rintro outcome life' l ⟨hstarted, hlibrary⟩
  refine Over.bind (releaseConfig_over life') ?_
  rintro _ _ l' ⟨rfl, rfl⟩
  have hend : Started library.version s outcome life'.state (l ++ life'.clearing) ∧
      { life' with record? := none } = Lifecycle.mk library life'.state none :=
    ⟨hstarted, by rw [hlibrary]⟩
  cases outcome with
  | ok =>
    refine Over.pure ?_
    rw [List.append_nil]
    exact hend
  | error e =>
    refine Over.get_bind (Over.debug_bind (Over.pure ?_))
    rw [List.append_nil]
    exact hend

/-- A start from any other state is refused before anything is done. -/
theorem start_of_ne (s : Settings) {life : Lifecycle} (hstate : life.state ≠ .uninitialized) (t : Trace) :
    ((start s).run.run life).run t = ((.error (.wrongState life.state), life), t) := by
  rw [start, ExceptT.run_mk]
  show StateT.run (StateT.run (if life.state ≠ State.uninitialized then _ else _) life) t = _
  rw [if_pos hstate]
  rfl

/-! ## Finalizing -/

/-- The calls that finalize an interpreter, if it takes itself for initialized. -/
inductive FinalCalls : List Exchange → Prop
  | idle : FinalCalls [⟨.isInitialized, false⟩]
  | done (out err : Bool) : FinalCalls [⟨.isInitialized, true⟩, ⟨.runSimpleString (flushCommand "stdout"), out⟩,
      ⟨.runSimpleString (flushCommand "stderr"), err⟩, ⟨.finalize, ()⟩]

/-- How finalizing goes. -/
inductive Finalized (life : Lifecycle) : Lifecycle → List Exchange → Prop
  | skipped (h : life.state ≠ .running) : Finalized life life []
  | finalized {l : List Exchange} (h : life.state = .running) (hl : FinalCalls l) :
      Finalized life { life with state := .finalized } l

theorem finalize_over (life : Lifecycle) : Over finalize life fun _ life' l => Finalized life life' l := by
  obtain ⟨library, state, record?⟩ := life
  rw [finalize]
  refine Over.get_bind ?_
  by_cases hstate : state = .running
  · subst hstate
    rw [if_neg (by simp)]
    refine Over.ask_bind fun initialized => ?_
    cases initialized with
    | false => exact Over.debug_bind (Over.debug_bind (Over.set (.finalized rfl .idle)))
    | true =>
      refine Over.debug_bind (Over.ask_bind fun out => Over.ask_bind fun err => ?_)
      exact Over.debug_bind (Over.ask_bind fun _ => Over.debug_bind (Over.set (.finalized rfl (.done out err))))
  · rw [if_pos hstate]
    exact Over.debug (.skipped hstate)

end Lifecycle

end FrozenApp.Startup
