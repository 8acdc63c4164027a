import FrozenApp.Proofs.Options.Modes
import FrozenApp.Proofs.Startup.Contents
/-!
# The encoding mode of a launch

The first stage of a start is given the record that the interpreter has filled, with two
members of it changed. `Encodes` says what these are: development mode is what the options
of the package say, and UTF-8 mode follows the last of them that switches it, or else the
locale of the environment. `launch_encoding`: a launch that gets as far as an interpreter
begins so, and writes the same development mode into the configuration record.
-/

namespace FrozenApp

open Config (Block Layout Member)
open Interpreter Options Package Program Startup

variable {names : List String} {environment? : String → Option Bytes}

/-! ## The locale -/

/-- A variable that is not set, or set to nothing. -/
def IsUnset (environment? : String → Option Bytes) (name : String) : Prop :=
  ∀ value, environment? name = some value → value = []

/-- The first of the variables that is set names the locale without a language, or none of
them is set. -/
inductive IsCLocale (environment? : String → Option Bytes) : Prop
  | unnamed (h : ∀ name ∈ ["LC_ALL", "LC_CTYPE", "LANG"], IsUnset environment? name)
  | named {ahead behind : List String} {name : String} {value : Bytes}
      (hsplit : ["LC_ALL", "LC_CTYPE", "LANG"] = ahead ++ name :: behind)
      (hahead : ∀ stronger ∈ ahead, IsUnset environment? stronger) (hvalue : environment? name = some value)
      (hname : value = .ofString "C" ∨ value = .ofString "POSIX")

theorem isUnset_iff {name : String} :
    IsUnset environment? name ↔ (environment? name).any (!·.isEmpty) = false := by
  rw [IsUnset]
  cases environment? name <;> simp

theorem isCLocale_iff (environment? : String → Option Bytes) :
    isCLocale environment? = true ↔ IsCLocale environment? := by
  rw [isCLocale, List.find?_filterMap]
  constructor
  · intro h
    cases hfind : localeVariables.find? fun name => (environment? name).any (!·.isEmpty) with
    | none =>
      refine .unnamed fun name hname => isUnset_iff.2 ?_
      exact Bool.eq_false_iff.2 (List.find?_eq_none.1 hfind name hname)
    | some name =>
      obtain ⟨hset, ahead, behind, hsplit, hahead⟩ := List.find?_eq_some_iff_append.1 hfind
      rw [hfind] at h
      cases hvalue : environment? name with
      | none => rw [hvalue] at hset; cases hset
      | some value =>
        refine .named hsplit (fun stronger hstronger => isUnset_iff.2 ?_) hvalue ?_
        · simpa using hahead stronger hstronger
        · simpa [hvalue] using h
  · intro h
    cases h with
    | unnamed h =>
      have hfind : localeVariables.find? (fun name => (environment? name).any (!·.isEmpty)) = none := by
        refine List.find?_eq_none.2 fun name hname => ?_
        rw [isUnset_iff.1 (h name hname)]
        exact Bool.false_ne_true
      rw [hfind]
      rfl
    | @named ahead behind name value hsplit hahead hvalue hname =>
      have hfind : localeVariables.find? (fun name => (environment? name).any (!·.isEmpty)) = some name := by
        refine List.find?_eq_some_iff_append.2 ⟨?_, ahead, behind, hsplit, fun stronger hstronger => ?_⟩
        · rw [hvalue]
          rcases hname with rfl | rfl <;> decide
        · rw [isUnset_iff.1 (hahead stronger hstronger)]
          rfl
      rw [hfind, Option.bind_some, hvalue]
      rcases hname with rfl | rfl <;> decide

/-! ## The record of the first stage -/

/-- UTF-8 mode with options of these names, for a record that has been filled. -/
inductive Utf8Mode (names : List String) (environment? : String → Option Bytes) (filled : Int32) : Int32 → Prop
  | on (h : LastSwitch names true) : Utf8Mode names environment? filled 1
  | off (h : LastSwitch names false) : Utf8Mode names environment? filled 0
  | cLocale (hnone : ∀ name ∈ names, ∀ on, ¬ Switches on name) (hlocale : IsCLocale environment?) :
      Utf8Mode names environment? filled 1
  | filled (hnone : ∀ name ∈ names, ∀ on, ¬ Switches on name) (hlocale : ¬ IsCLocale environment?) :
      Utf8Mode names environment? filled filled

/-- The record that the first stage is given, with options of these names. -/
structure Encodes (names : List String) (environment? : String → Option Bytes) (pre config : PreConfig) : Prop where
  kept : config = { pre with utf8Mode := config.utf8Mode, devMode := config.devMode }
  dev : (∃ name ∈ names, AsksDev name) → config.devMode = 1
  no_dev : (∀ name ∈ names, ¬ AsksDev name) → config.devMode = 0
  utf8 : Utf8Mode names environment? pre.utf8Mode config.utf8Mode

theorem encodes_adjustPreConfig {host : Host} (h : addNames {} names = .ok host.options) (version : Version)
    (environment? : String → Option Bytes) (pre : PreConfig) :
    Encodes names environment? pre (adjustPreConfig (host.settings version environment?) pre) where
  kept := rfl
  dev hdev := by
    rw [adjustPreConfig, Host.settings, flag, if_pos ((addNames_devMode h).2 hdev)]
  no_dev hdev := by
    have hoff : ¬ host.options.interpreter.devMode = true := fun hon => by
      obtain ⟨name, hname, hasks⟩ := (addNames_devMode h).1 hon
      exact hdev name hname hasks
    rw [adjustPreConfig, Host.settings, flag, if_neg hoff]
  utf8 := by
    rw [adjustPreConfig, Host.settings]
    dsimp only
    cases hmode : host.options.interpreter.utf8Mode with
    | some on =>
      have hlast : LastSwitch names on := (addNames_utf8Mode h on).1 hmode
      cases on with
      | true => exact .on hlast
      | false => exact .off hlast
    | none =>
      have hnone : ∀ name ∈ names, ∀ on, ¬ Switches on name := (addNames_utf8Mode_eq_none h).1 hmode
      cases hlocale : isCLocale environment? with
      | true => exact .cLocale hnone ((isCLocale_iff environment?).1 hlocale)
      | false => exact .filled hnone fun hc => nomatch hlocale.symm.trans ((isCLocale_iff environment?).2 hc)

/-! ## The first stage in a start -/

/-- A start begins with its first stage and does not come back to it. -/
theorem Startup.Started.begins {version : Version} {s : Settings} {r : Except StartError Unit} {state : State}
    {l : List Exchange} (h : Started version s r state l) : ∃ pre status refused rest,
      l = preInitCalls pre (adjustPreConfig s pre) status refused ++ rest ∧ ∀ x ∈ rest, x.1.symbol ≠ .preInitialize := by
  cases h with
  | @refused pre status => exact ⟨pre, status, true, [], (List.append_nil _).symm, List.forall_mem_nil _⟩
  | @noLayout pre status => exact ⟨pre, status, false, [], (List.append_nil _).symm, List.forall_mem_nil _⟩
  | @configured pre status layout block block' set uses tail _ _ hlayout hpopulated hending =>
    refine ⟨pre, status, false, _, rfl, ?_⟩
    have huses : ∀ x ∈ uses, x.1.symbol ≠ .preInitialize := by
      intro x hx heq
      have hsymbol := hpopulated.symbols x hx
      rw [heq] at hsymbol
      exact absurd hsymbol (by decide)
    have htail : ∀ x ∈ tail, x.1.symbol ≠ .preInitialize := by
      cases hending <;> simp [Call.symbol]
    have hfirst : (Call.configInitIsolated (Block.zero : Block layout.size)).symbol ≠ .preInitialize := by
      simp [Call.symbol]
    have hlast : (Call.configClear block').symbol ≠ .preInitialize := by
      simp [Call.symbol]
    simp only [List.forall_mem_cons, List.forall_mem_append]
    exact ⟨hfirst, huses, htail, hlast, List.forall_mem_nil _⟩

/-- The members are set by assignments in turn, and this is what is assigned to the member
for development mode. -/
structure AssignsDevMode (s : Settings) (value : Int32) : Prop where
  in_turn : ∀ lib layout, populate lib layout s = forM (assignments s) (·.run lib layout)
  assigned : ∀ v, .int .devMode v ∈ assignments s ↔ v = value

theorem assignsDevMode (s : Settings) : AssignsDevMode s (flag s.options.devMode) where
  in_turn lib layout := populate_eq_forM lib layout s
  assigned v := by
    simp only [assignments, plainAssignments, listAssignments]
    cases s.options.hashSeed <;> cases s.options.warnOptions <;> cases s.options.xOptions <;> simp

theorem Startup.KeepsPlain.of_symbol {layout : Layout} {x : Exchange} (h : x.1.symbol ∉ Symbol.setters) :
    KeepsPlain layout x := by
  intro b b' hturns
  cases hturns with
  | bytesString | string | wideStringList => exact absurd (by simp [Call.symbol, Symbol.setters]) h

/-- The interpreter is initialized with a record that holds this for development mode. -/
def HoldsDevMode (layout : Layout) (value : Int32) (x : Exchange) : Prop :=
  x.1.symbol = .initializeFromConfig → ∃ block : Block layout.size,
    x.1 = .initializeFromConfig block ∧ block.int (layout.offset .devMode) = value

theorem Startup.Started.holdsDevMode {version : Version} {s : Settings} {r : Except StartError Unit} {state : State}
    {l : List Exchange} {layout : Layout} (h : Started version s r state l)
    (hlayout : Layout.select version s.freeThreaded = .ok layout) (hkeeps : ∀ x ∈ l, KeepsPlain layout x) :
    ∀ x ∈ l, HoldsDevMode layout (flag s.options.devMode) x := by
  intro x hx hsymbol
  obtain ⟨before, behind, hsplit⟩ := List.append_of_mem hx
  obtain ⟨left, block, hcall, -, hcontents⟩ := h.initializedWith hlayout hkeeps before x behind hsplit hsymbol
  have hmem : (Member.devMode, flag s.options.devMode) ∈ ints s.options := by simp [ints, flag]
  exact ⟨block, hcall, hcontents.ints _ hmem⟩

/-! ## The launch -/

/-- A launch does not get as far as an interpreter: there is nothing to run, no layout for
the interpreter, or no library of it that can be bound. -/
def IsRefused (host : Host) (loader : Loader) : Prop :=
  host.archive.isOnefile = true ∨
    (∃ e, Layout.select host.version host.options.launch.freeThreaded = .error e) ∨
    ∀ path ∈ host.libraryPaths host.version, ∃ e, loader.outcome path host.version = .error e

/-- What a launch does to an interpreter, if it gets as far as that. -/
inductive Entered (host : Host) (loader : Loader) (environment? : String → Option Bytes) :
    Except LaunchError Int → List Exchange → Prop
  | refused {r : Except LaunchError Int} (h : IsRefused host loader) : Entered host loader environment? r []
  | ran {r : Except LaunchError Int} {l : List Exchange} {layout : Layout}
      (hlayout : Layout.select host.version host.options.launch.freeThreaded = .ok layout)
      (h : Ran host.version (host.settings host.version environment?) r l) : Entered host loader environment? r l

theorem execute_entered (host : Host) (files : FileTree) (loader : Loader) (environment? : String → Option Bytes) :
    Leaves (host.execute files loader environment?) fun r new => Entered host loader environment? r.1 new.calls := by
  rw [Host.execute]
  cases honefile : host.archive.isOnefile with
  | true =>
    rw [Host.selectLayout, if_pos honefile]
    exact Leaves.pure (.refused (.inl honefile))
  | false =>
    rw [Host.selectLayout_eq honefile]
    cases hlayout : Layout.select host.version host.options.launch.freeThreaded with
    | error e => exact Leaves.pure (.refused (.inr (.inl ⟨e, hlayout⟩)))
    | ok layout =>
      dsimp only [Except.mapError]
      obtain ⟨r, tried, errors, hload, hfound⟩ := loadFirst_gives loader host.version (host.libraryPaths host.version)
      rw [← bind_assoc]
      refine Leaves.bind (Gives.debug_bind hload) ?_
      rintro _ search ⟨rfl, hsearch⟩
      generalize hpaths : host.libraryPaths host.version = paths at hfound
      cases hfound with
      | none herrors =>
        refine Leaves.pure ?_
        rw [List.append_nil, hsearch.calls]
        refine .refused (.inr (.inr fun path hpath => ?_))
        have hmem := List.mem_map_of_mem (f := (loader.outcome · host.version)) (hpaths ▸ hpath)
        rw [herrors] at hmem
        obtain ⟨e, -, he⟩ := List.mem_map.1 hmem
        exact ⟨e, he.symm⟩
      | @bound failed rest path _ lib herrors hlib hpath hversion =>
        refine Leaves.bind (attach_gives host lib) ?_
        rintro _ former ⟨rfl, hformer⟩
        refine Leaves.bind (runInterpreter_acts _ files lib _) ?_
        rintro outcome run ⟨-, hran⟩
        rw [hversion] at hran
        -- nothing is called behind the program
        refine ((unload_gives { host with library? := some lib }).bind
          (?_ : Gives _ (outcome, { host with library? := none }) [] [])).leaves fun release hrelease => ?_
        · split
          · exact Gives.debug_bind Gives.pure
          · exact Gives.debug_bind Gives.pure
          · exact Gives.pure
        · have hcalls : Trace.calls (search ++ (former ++ (run ++ release))) = run.calls := by
            rw [calls_append, calls_append, calls_append, hsearch.calls, hformer.calls, hrelease.calls]
            simp
          rw [hcalls]
          exact .ran hlayout hran

/-- A launch that takes options of these names begins with the first stage, and keeps to
its record. -/
inductive Begins (host : Host) (loader : Loader) (names : List String) (environment? : String → Option Bytes) :
    List Exchange → Prop
  | refused (h : IsRefused host loader) : Begins host loader names environment? []
  | entered {layout : Layout} {pre config : PreConfig} {status : Status} {refused : Bool} {rest : List Exchange}
      (hlayout : Layout.select host.version host.options.launch.freeThreaded = .ok layout)
      (hencodes : Encodes names environment? pre config) (honce : ∀ x ∈ rest, x.1.symbol ≠ .preInitialize)
      (hassigns : AssignsDevMode (host.settings host.version environment?) config.devMode)
      (hholds : (∀ x ∈ rest, KeepsPlain layout x) → ∀ x ∈ rest, HoldsDevMode layout config.devMode x) :
      Begins host loader names environment? (preInitCalls pre config status refused ++ rest)

/-- A program is run behind a start, and neither it nor its end comes back to one. -/
theorem Ran.exists_start {version : Version} {s : Settings} {r : Except LaunchError Int} {l : List Exchange}
    (h : Ran version s r l) : ∃ r' state start behind, Started version s r' state start ∧ l = start ++ behind ∧
      ∀ x ∈ behind, x.1.symbol ∉ [Symbol.preInitialize, .initializeFromConfig] := by
  cases h with
  | stopped h => exact ⟨_, _, l, [], h, (List.append_nil l).symm, List.forall_mem_nil _⟩
  | @ran start program final _ h hprogram hfinal =>
    refine ⟨_, _, start, program ++ final, h, List.append_assoc .., ?_⟩
    have hother : ∀ s ∈ Program.symbols, s ∉ [Symbol.preInitialize, .initializeFromConfig] := by decide
    refine List.forall_mem_append.2 ⟨fun x hx => hother _ (hprogram x hx), ?_⟩
    cases hfinal <;> simp [Call.symbol]

theorem Entered.begins {host : Host} {loader : Loader} {r : Except LaunchError Int} {l : List Exchange}
    (h : Entered host loader environment? r l) (hnames : addNames {} names = .ok host.options) :
    Begins host loader names environment? l := by
  cases h with
  | refused h => exact .refused h
  | @ran _ layout hlayout h =>
    obtain ⟨r', state, start, behind, hstarted, rfl, hbehind⟩ := h.exists_start
    obtain ⟨pre, status, refused, rest, rfl, hrest⟩ := hstarted.begins
    rw [List.append_assoc]
    refine .entered hlayout (encodes_adjustPreConfig hnames host.version environment? pre) ?_ (assignsDevMode _) ?_
    · refine List.forall_mem_append.2 ⟨hrest, fun x hx heq => hbehind x hx ?_⟩
      rw [heq]
      exact List.mem_cons_self
    · intro hkeeps
      obtain ⟨hkeeps, -⟩ := List.forall_mem_append.1 hkeeps
      have hpre : ∀ x ∈ preInitCalls pre (adjustPreConfig (host.settings host.version environment?) pre) status refused,
          KeepsPlain layout x := fun x hx => .of_symbol fun hsetter => by
        have hdisjoint : ∀ s ∈ [Symbol.preConfigInitIsolated, .preInitialize, .statusException], s ∉ Symbol.setters := by
          decide
        exact hdisjoint _ (preInitCalls_symbols hx) hsetter
      have hholds := hstarted.holdsDevMode hlayout (List.forall_mem_append.2 ⟨hpre, hkeeps⟩)
      refine List.forall_mem_append.2 ⟨(List.forall_mem_append.1 hholds).2, fun x hx heq => absurd ?_ (hbehind x hx)⟩
      rw [heq]
      exact List.mem_cons_of_mem _ List.mem_cons_self

theorem Host.new_names (executable : Path) (a : Archive) (argv : List Bytes) :
    Returns (Host.new executable a argv) fun host => addNames {} (namesIn a) = .ok host.options := by
  have hread : Goes ((Options.ofArchive a).adapt HostError.options) fun r _ =>
      r = (addNames {} (namesIn a)).mapError HostError.options :=
    .map ((Options.ofArchive_goes a).mono fun r _ ⟨hr, _⟩ => congrArg _ hr)
  refine Goes.bind hread (fun options _ hoptions => ?_) fun _ _ _ => nofun
  cases FrozenApp.home executable options.launch.contentsDirectory with
  | error e => exact .throw nofun
  | ok home =>
    refine .debug_bind (.debug_bind (.debug_bind (.pure fun host hhost => ?_)))
    cases hhost
    cases hadd : addNames {} (namesIn a) with
    | error e => rw [hadd] at hoptions; cases hoptions
    | ok found => rw [hadd] at hoptions; cases hoptions; rfl

/-- Whatever the options of a package, the environment and the interpreter, a launch that gets
as far as the interpreter gives its first stage what the interpreter has filled, with
development mode and UTF-8 mode as the options and the environment say, and writes the same
development mode into the configuration record. -/
theorem launch_encoding (executable : Path) (a : Archive) (argv : List Bytes) :
    Returns (Host.new executable a argv) fun host => ∀ files loader environment?,
      Leaves (host.execute files loader environment?) fun _ new =>
        Begins host loader (namesIn a) environment? new.calls := by
  refine (Host.new_names executable a argv).mono fun r _ hr host hhost files loader environment? => ?_
  exact Leaves.mono (execute_entered host files loader environment?) fun _ _ h => h.begins (hr host hhost)

end FrozenApp
