import FrozenApp.Proofs.Config
import FrozenApp.Proofs.Inspect.Layout
import FrozenApp.Proofs.Startup.Order
/-!
# What the record holds

`Filled` says what assignments make of a record: what is written into a plain member is
there, the other plain members are as before, and all other bytes are as the interpreter
has left them. One assignment does so (`Assigned.filled`), and assignments one behind the
other do (`Filled.append`). So the record that the interpreter is initialized with holds
what the settings say, and nothing else is changed (`start_fills_record`).
-/

namespace FrozenApp

namespace Interpreter

open Config (Block)

/-- A setter takes the record `b` and leaves it as `b'`. -/
inductive Turns {size : Nat} (b b' : Block size) : Exchange → Prop
  | bytesString (offset : Nat) (value : Bytes) (status : Status) :
      Turns b b' ⟨.configSetBytesString b offset value, (status, b')⟩
  | string (offset : Nat) (value : Bytes) (status : Status) :
      Turns b b' ⟨.configSetString b offset value, (status, b')⟩
  | wideStringList (offset : Nat) (items : List WideString) (status : Status) :
      Turns b b' ⟨.configSetWideStringList b offset items, (status, b')⟩

/-- The record as a call leaves it that fills it or sets a member. -/
def left? : Exchange → Option ((size : Nat) × Block size)
  | ⟨.configInitIsolated _, block⟩ => some ⟨_, block⟩
  | ⟨.configSetBytesString _ _ _, (_, block)⟩ => some ⟨_, block⟩
  | ⟨.configSetString _ _ _, (_, block)⟩ => some ⟨_, block⟩
  | ⟨.configSetWideStringList _ _ _, (_, block)⟩ => some ⟨_, block⟩
  | _ => none

/-- The record as the interpreter has left it last. -/
def lastLeft? (l : List Exchange) : Option ((size : Nat) × Block size) :=
  (l.filterMap left?).getLast?

theorem lastLeft?_append (l l' : List Exchange) : lastLeft? (l ++ l') = (lastLeft? l').or (lastLeft? l) := by
  rw [lastLeft?, List.filterMap_append, List.getLast?_append]
  rfl

end Interpreter

namespace Config.MemberType

/-- Is a member of this type a number? -/
def IsPlain (t : MemberType) : Prop :=
  t = .int ∨ t = .unsignedLong

end Config.MemberType

namespace Startup

open Config (Block Layout Member)
open Interpreter

variable {layout : Layout}

/-! ## Assignments to plain members -/

/-- The bytes of a member. -/
def bytesAt (layout : Layout) (b : Block layout.size) (m : Member) : Bytes :=
  Bytes.slice (layout.offset m) m.type.size b.toList

/-- A setter leaves the plain members as they are. -/
def KeepsPlain (layout : Layout) (x : Exchange) : Prop :=
  ∀ b b' : Block layout.size, Turns b b' x → ∀ m ∈ layout.members, m.type.IsPlain →
    bytesAt layout b' m = bytesAt layout b m

/-- The bytes that an assignment writes into a plain member. -/
def Assignment.write? : Assignment → Option (Member × Bytes)
  | int m value => some (m, Bytes.littleEndian 4 value.toUInt32.toNat)
  | unsignedLong m value => some (m, Bytes.littleEndian 8 value.toNat)
  | string .. | stringList .. => none

/-- What assignments write, in order. -/
def writes (as : List Assignment) : List (Member × Bytes) :=
  as.filterMap Assignment.write?

theorem writes_append (as as' : List Assignment) : writes (as ++ as') = writes as ++ writes as' :=
  List.filterMap_append

theorem writes_singleton (a : Assignment) : writes [a] = a.write?.toList := by
  cases h : a.write? <;> simp [writes, h]

theorem Assignment.run_of_write? {a : Assignment} {m : Member} {bytes : Bytes} (h : a.write? = some (m, bytes))
    (lib : Library) (layout : Layout) : a.run lib layout = modify (Block.write · (layout.offset m) bytes) := by
  cases a with
  | int | unsignedLong => cases h; rfl
  | string | stringList => cases h

/-- What is written fits its member, and the layout has it. -/
def Fits (layout : Layout) (p : Member × Bytes) : Prop :=
  p.1 ∈ layout.members ∧ p.1.type.IsPlain ∧ p.2.length = p.1.type.size

/-- What assignments make of a record. -/
structure Filled (layout : Layout) (b : Block layout.size) (as : List Assignment) (b' : Block layout.size)
    (l : List Exchange) : Prop where
  written : ∀ p ∈ writes as, bytesAt layout b' p.1 = p.2
  kept : ∀ m ∈ layout.members, m.type.IsPlain → m ∉ (writes as).map Prod.fst → bytesAt layout b' m = bytesAt layout b m
  left : ∃ left : Block layout.size, (lastLeft? l).getD ⟨_, b⟩ = ⟨_, left⟩ ∧
    ∀ i, (∀ p ∈ writes as, ¬ layout.Covers p.1 i) → b'.toList[i]? = left.toList[i]?

theorem Filled.nil (b : Block layout.size) : Filled layout b [] b [] where
  written := List.forall_mem_nil _
  kept _ _ _ _ := rfl
  left := ⟨b, rfl, fun _ _ => rfl⟩

theorem Filled.append {b b' b'' : Block layout.size} {as as' : List Assignment} {l l' : List Exchange}
    (h : Filled layout b as b' l) (h' : Filled layout b' as' b'' l') (hfits : ∀ p ∈ writes as, Fits layout p)
    (hdistinct : ∀ p ∈ writes as, p.1 ∉ (writes as').map Prod.fst) : Filled layout b (as ++ as') b'' (l ++ l') := by
  refine ⟨?_, ?_, ?_⟩
  · intro p hp
    rw [writes_append] at hp
    rcases List.mem_append.1 hp with hp | hp
    · obtain ⟨hmem, hplain, -⟩ := hfits p hp
      rw [h'.kept p.1 hmem hplain (hdistinct p hp), h.written p hp]
    · exact h'.written p hp
  · intro m hmem hplain hnot
    rw [writes_append, List.map_append, List.mem_append, not_or] at hnot
    rw [h'.kept m hmem hplain hnot.2, h.kept m hmem hplain hnot.1]
  · obtain ⟨left, hleft, houtside⟩ := h.left
    obtain ⟨left', hleft', houtside'⟩ := h'.left
    rw [lastLeft?_append, writes_append]
    cases hlast : lastLeft? l' with
    | some last =>
      rw [hlast] at hleft'
      exact ⟨left', hleft', fun i hi => houtside' i fun p hp => hi p (List.mem_append_right _ hp)⟩
    | none =>
      -- the interpreter leaves nothing behind the first assignments
      rw [hlast] at hleft'
      cases hleft'
      refine ⟨left, hleft, fun i hi => ?_⟩
      rw [houtside' i fun p hp => hi p (List.mem_append_right _ hp), houtside i fun p hp => hi p (List.mem_append_left _ hp)]

/-- A write fills one member. -/
theorem Filled.write {b : Block layout.size} {a : Assignment} {m : Member} {bytes : Bytes}
    (ha : a.write? = some (m, bytes)) (hfits : Fits layout (m, bytes)) :
    Filled layout b [a] (b.write (layout.offset m) bytes) [] := by
  obtain ⟨hmem, hplain, hlength⟩ := hfits
  dsimp only at hmem hlength
  have hplaces := Layout.places hmem
  have hwrites : writes [a] = [(m, bytes)] := by rw [writes_singleton, ha]; rfl
  refine ⟨?_, ?_, b, rfl, ?_⟩
  · rw [hwrites, List.forall_mem_singleton, bytesAt, ← hlength]
    exact Block.slice_write (hlength ▸ hplaces.within)
  · intro m' hmem' hplain' hnot
    rw [hwrites, List.map_singleton, List.mem_singleton] at hnot
    refine Block.slice_write_of_apart ?_
    rw [hlength]
    exact hplaces.apart m' _ (Layout.places hmem').has hnot
  · intro i hi
    rw [hwrites, List.forall_mem_singleton] at hi
    refine Block.getElem?_write_of_outside ?_
    rw [hlength]
    exact hi

/-- What a setter leaves is what the interpreter has left. -/
theorem Filled.set {b b' : Block layout.size} {a : Assignment} {l : List Exchange} (ha : a.write? = none)
    (hleft : lastLeft? l = some ⟨_, b'⟩)
    (hkept : ∀ m ∈ layout.members, m.type.IsPlain → bytesAt layout b' m = bytesAt layout b m) :
    Filled layout b [a] b' l := by
  have hwrites : writes [a] = [] := by rw [writes_singleton, ha]; rfl
  refine ⟨?_, fun m hmem hplain _ => hkept m hmem hplain, b', ?_, fun _ _ => rfl⟩
  · rw [hwrites]
    exact List.forall_mem_nil _
  · rw [hleft]
    rfl

theorem left?_decodings (strings : List WideString) : ∀ x ∈ decodings strings, left? x = none := by
  simp [decodings, left?]

theorem left?_freeing (strings : List WideString) : ∀ x ∈ freeing strings, left? x = none := by
  simp [freeing, left?]

/-- An assignment that is made fills the record, if the setters keep plain members. -/
theorem Assigned.filled {b b' : Block layout.size} {a : Assignment} {l : List Exchange}
    (h : Assigned layout b a (.ok ()) b' l) (hkeeps : ∀ x ∈ l, KeepsPlain layout x)
    (hfits : ∀ p ∈ writes [a], Fits layout p) : Filled layout b [a] b' l := by
  generalize hr : (.ok () : Except StepError Unit) = r at h
  cases h with
  | int | unsignedLong => exact .write rfl (hfits _ (List.mem_singleton_self _))
  | nul | undecoded => cases hr
  | string next status refused hnul =>
    refine .set rfl rfl ?_
    exact hkeeps _ List.mem_cons_self b b' (.bytesString _ _ _)
  | @stringList m values step strings ahead next status refused hdecoded =>
    obtain ⟨-, -, rfl⟩ := hdecoded.of_none
    refine .set rfl ?_ ?_
    · rw [lastLeft?, List.filterMap_append, List.filterMap_eq_nil_iff.2 (left?_decodings strings)]
      simp only [List.filterMap_cons, left?, List.filterMap_eq_nil_iff.2 (left?_freeing strings)]
      rfl
    · exact hkeeps _ (List.mem_append_right _ List.mem_cons_self) b b' (.wideStringList _ _ _)

theorem Populated.filled {b b' : Block layout.size} {as : List Assignment} {l : List Exchange}
    (h : Populated layout b as (.ok ()) b' l) (hkeeps : ∀ x ∈ l, KeepsPlain layout x)
    (hfits : ∀ p ∈ writes as, Fits layout p) (hdistinct : ((writes as).map Prod.fst).Nodup) : Filled layout b as b' l := by
  generalize hr : (.ok () : Except StepError Unit) = r at h
  induction h with
  | nil => exact .nil _
  | stopped => cases hr
  | @cons b b' b'' a as r l l' h _ ih =>
    have hwrites : writes (a :: as) = writes [a] ++ writes as := writes_append [a] as
    rw [hwrites] at hfits hdistinct
    rw [List.map_append, List.nodup_append] at hdistinct
    obtain ⟨-, hnodup, hdisjoint⟩ := hdistinct
    obtain ⟨hfirst, hrest⟩ := List.forall_mem_append.1 hfits
    obtain ⟨hkeeps, hkeeps'⟩ := List.forall_mem_append.1 hkeeps
    refine Filled.append (h.filled hkeeps hfirst) (ih hkeeps' hrest hnodup hr) hfirst fun p hp hmem => ?_
    exact hdisjoint _ (List.mem_map_of_mem hp) _ hmem rfl

/-! ## What the options say -/

/-- What the options say about members that are `int`s. -/
def ints (o : InterpreterOptions) : List (Member × Int32) :=
  [(.moduleSearchPathsSet, 1), (.siteImport, 0), (.writeBytecode, 0), (.configureCStdio, 1),
    (.bufferedStdio, if o.unbuffered then 0 else 1), (.optimizationLevel, o.optimize), (.verbose, o.verbose),
    (.installSignalHandlers, 1), (.devMode, if o.devMode then 1 else 0)] ++
  if o.hashSeed.isSome then [(.useHashSeed, 1)] else []

/-- The members that are written whatever the options say. -/
def plainMembers : List Member :=
  [.moduleSearchPathsSet, .siteImport, .writeBytecode, .configureCStdio, .bufferedStdio, .optimizationLevel, .verbose,
    .installSignalHandlers, .devMode]

/-- The members that are written. A seed is written only if it is fixed. -/
def written (o : InterpreterOptions) : List Member :=
  plainMembers ++ if o.hashSeed.isSome then [.useHashSeed, .hashSeed] else []

/-- What is written of a seed. -/
def seedWrites (o : InterpreterOptions) : List (Member × Bytes) :=
  o.hashSeed.toList.map fun seed => (.hashSeed, Bytes.littleEndian 8 seed.toNat)

theorem writes_assignments (s : Settings) : writes (assignments s) =
    (ints s.options).map (Prod.map id fun value => Bytes.littleEndian 4 value.toUInt32.toNat) ++ seedWrites s.options := by
  simp only [assignments, plainAssignments, listAssignments, ints, seedWrites]
  cases s.options.unbuffered <;> cases s.options.devMode <;> cases s.options.hashSeed <;>
    cases s.options.warnOptions <;> cases s.options.xOptions <;> rfl

theorem map_fst_writes (s : Settings) : (writes (assignments s)).map Prod.fst = written s.options := by
  rw [writes_assignments, ints, seedWrites, written]
  cases s.options.hashSeed <;> rfl

theorem nodup_written (o : InterpreterOptions) : (written o).Nodup := by
  rw [written]
  split <;> decide

/-- Every layout has the members that are written. -/
theorem mem_members_of_written {o : InterpreterOptions} {m : Member} (h : m ∈ written o) (layout : Layout) :
    m ∈ layout.members := by
  have hall : plainMembers ++ [.useHashSeed, .hashSeed] ⊆ layout.members := by cases layout <;> decide
  refine hall ?_
  rw [written] at h
  split at h
  · exact h
  · rw [List.append_nil] at h
    exact List.mem_append_left _ h

theorem type_of_mem_ints {o : InterpreterOptions} {p : Member × Int32} (h : p ∈ ints o) : p.1.type = .int := by
  revert p
  rw [ints]
  cases o.hashSeed <;> simp [Member.type]

theorem fits_writes {s : Settings} {p : Member × Bytes} (h : p ∈ writes (assignments s)) (layout : Layout) :
    Fits layout p := by
  have hmem : p.1 ∈ layout.members := mem_members_of_written (map_fst_writes s ▸ List.mem_map_of_mem h) layout
  rw [writes_assignments, List.mem_append] at h
  rcases h with h | h
  · obtain ⟨q, hq, rfl⟩ := List.mem_map.1 h
    have hint := type_of_mem_ints hq
    refine ⟨hmem, .inl hint, ?_⟩
    rw [Prod.map_fst, Prod.map_snd, id, hint]
    exact Bytes.length_littleEndian 4 _
  · obtain ⟨seed, -, rfl⟩ := List.mem_map.1 h
    exact ⟨hmem, .inr rfl, Bytes.length_littleEndian 8 _⟩

/-- What the record `block` holds, if the interpreter has left it as `left`. -/
structure Contents (layout : Layout) (o : InterpreterOptions) (left block : Block layout.size) : Prop where
  ints : ∀ p ∈ ints o, block.int (layout.offset p.1) = p.2
  seed : ∀ seed, o.hashSeed = some seed → block.unsignedLong (layout.offset .hashSeed) = seed
  untouched : ∀ i, (∀ m ∈ written o, ¬ layout.Covers m i) → block.toList[i]? = left.toList[i]?

theorem Filled.contents {s : Settings} {b b' left : Block layout.size} {l : List Exchange}
    (h : Filled layout b (assignments s) b' l) (hleft : (lastLeft? l).getD ⟨_, b⟩ = ⟨_, left⟩) :
    Contents layout s.options left b' := by
  refine ⟨?_, ?_, ?_⟩
  · intro p hp
    have hwrite : Prod.map id (fun value : Int32 => Bytes.littleEndian 4 value.toUInt32.toNat) p ∈ writes (assignments s) := by
      rw [writes_assignments]
      exact List.mem_append_left _ (List.mem_map_of_mem hp)
    have hbytes := h.written _ hwrite
    rw [bytesAt, Prod.map_fst, Prod.map_snd, id, type_of_mem_ints hp] at hbytes
    exact Block.int_eq hbytes
  · intro seed hseed
    have hwrite : (Member.hashSeed, Bytes.littleEndian 8 seed.toNat) ∈ writes (assignments s) := by
      rw [writes_assignments, seedWrites, hseed]
      exact List.mem_append_right _ (List.mem_singleton_self _)
    exact Block.unsignedLong_eq (h.written _ hwrite)
  · obtain ⟨left', hleft', houtside⟩ := h.left
    cases hleft.symm.trans hleft'
    intro i hi
    refine houtside i fun p hp => hi p.1 ?_
    rw [← map_fst_writes]
    exact List.mem_map_of_mem hp

/-! ## The start -/

/-- How plain members are written as the members of the record are set. -/
structure SafelyWritten (layout : Layout) (s : Settings) : Prop where
  in_turn : ∀ lib, populate lib layout s = forM (assignments s) (·.run lib layout)
  writes : ∀ a ∈ assignments s, ∀ m bytes, a.write? = some (m, bytes) →
    m ∈ written s.options ∧ bytes.length = m.type.size ∧
      ∀ lib, a.run lib layout = modify (Block.write · (layout.offset m) bytes)
  distinct : (written s.options).Nodup
  places : ∀ m ∈ written s.options, layout.Places m

theorem safelyWritten (layout : Layout) (s : Settings) : SafelyWritten layout s where
  in_turn lib := populate_eq_forM lib layout s
  writes a ha m bytes hwrite := by
    have hmem : (m, bytes) ∈ Startup.writes (assignments s) := List.mem_filterMap.2 ⟨a, ha, hwrite⟩
    refine ⟨?_, (fits_writes hmem layout).2.2, fun lib => a.run_of_write? hwrite lib layout⟩
    rw [← map_fst_writes]
    exact List.mem_map_of_mem hmem
  distinct := nodup_written s.options
  places _ hm := Layout.places (mem_members_of_written hm layout)

/-- The interpreter is initialized with a record that holds what the options say. -/
def InitializedWith (layout : Layout) (o : InterpreterOptions) (before : List Exchange) (x : Exchange) : Prop :=
  x.1.symbol = .initializeFromConfig → ∃ left block : Block layout.size,
    x.1 = .initializeFromConfig block ∧ lastLeft? before = some ⟨_, left⟩ ∧ Contents layout o left block

theorem Started.initializedWith {version : Version} {s : Settings} {r : Except StartError Unit} {state : State}
    {l : List Exchange} (h : Started version s r state l) (hlayout : Layout.select version s.freeThreaded = .ok layout)
    (hkeeps : ∀ x ∈ l, KeepsPlain layout x) : Guarded (InitializedWith layout s.options) l := by
  have hpre : ∀ pre config status refused,
      Guarded (InitializedWith layout s.options) (preInitCalls pre config status refused) := fun _ _ _ _ =>
    .of_symbols (T := (· = .initializeFromConfig)) (fun _ hx => preInitCalls_symbols hx) (by decide)
  cases h with
  | refused | noLayout => exact hpre _ _ _ _
  | @configured pre status layout' b b' set uses tail _ _ hlayout' hpopulated hending =>
    cases hlayout.symm.trans hlayout'
    refine (hpre _ _ _ _).append (.cons nofun (.append ?_ (.append ?_ (.cons nofun .nil))))
    · exact .of_symbols (T := (· = .initializeFromConfig)) hpopulated.symbols (by decide)
    · have hpassed : set = .ok () → ∀ status', InitializedWith layout s.options
          (preInitCalls pre (adjustPreConfig s pre) status false ++ ⟨.configInitIsolated Block.zero, b⟩ :: (uses ++ []))
          ⟨.initializeFromConfig b', status'⟩ := by
        rintro rfl status' -
        have huses : ∀ x ∈ uses, KeepsPlain layout x := fun x hx => hkeeps x (by simp [hx])
        have hfilled := hpopulated.filled huses (fun p hp => fits_writes hp layout) (map_fst_writes s ▸ nodup_written s.options)
        obtain ⟨left, hleft, -⟩ := hfilled.left
        refine ⟨left, b', rfl, ?_, hfilled.contents hleft⟩
        rw [List.append_nil, lastLeft?_append, ← List.singleton_append, lastLeft?_append, ← hleft]
        cases lastLeft? uses <;> rfl
      cases hending with
      | stuck => exact .nil
      | failed status' => exact .cons (hpassed rfl status') (.cons nofun (.cons nofun .nil))
      | running status' => exact .cons (hpassed rfl status') (.cons nofun .nil)

/-- Whatever the interpreter replies, a start initializes it with a record of the layout for
its version and build. If the setters keep the plain members, this record holds what the
settings say, and is otherwise as the interpreter has left it last. Each write is one of
the settings' members, which lies within the record and apart from all other members. -/
theorem start_fills_record (s : Settings) {life : Lifecycle} (hrecord : life.record? = none)
    (hlayout : Layout.select life.library.version s.freeThreaded = .ok layout) :
    (layout.version = life.library.version ∧ layout.freeThreaded = s.freeThreaded) ∧ SafelyWritten layout s ∧
      Stage (Lifecycle.start s) life fun _ _ l =>
        (∀ x ∈ l, KeepsPlain layout x) → Guarded (InitializedWith layout s.options) l := by
  refine ⟨Layout.select_eq_ok_iff.1 hlayout, safelyWritten layout s, ?_⟩
  refine (Operation.run_over (.start s) hrecord).mono fun r life' l h hkeeps => ?_
  cases h with
  | started hstate h => exact h.initializedWith hlayout hkeeps
  | refused => exact .nil

/-- Settings with options that are written as numbers. -/
def seededSettings : Settings where
  programName := [97]
  home := [98]
  searchPaths := []
  argv := []
  options := { verbose := 2, unbuffered := true, hashSeed := some 7 }
  freeThreaded := false
  cLocale := false

/-- The calls of a start with these settings. -/
def seededCalls : List Exchange :=
  (((Lifecycle.start seededSettings).run.run (.new sampleLibrary)).run []).2.calls

/-- The setters of the sample give the record back as they take it. -/
theorem exists_seededCalls_eq : ∃ (pre config : PreConfig) (b₀ b b' block : Block Layout.v312.size)
    (program home paths argv : Nat), seededCalls = preInitCalls pre config .ok false ++
      [⟨.configInitIsolated b₀, b⟩, ⟨.configSetBytesString b program [97], (.ok, b)⟩, ⟨.statusException .ok, false⟩,
        ⟨.configSetBytesString b home [98], (.ok, b)⟩, ⟨.statusException .ok, false⟩,
        ⟨.configSetWideStringList b paths [], (.ok, b)⟩, ⟨.statusException .ok, false⟩,
        ⟨.configSetWideStringList b' argv [], (.ok, b')⟩, ⟨.statusException .ok, false⟩,
        ⟨.initializeFromConfig block, .ok⟩, ⟨.statusException .ok, false⟩, ⟨.configClear block, ()⟩] :=
  ⟨_, _, _, _, _, _, _, _, _, _, rfl⟩

theorem keepsPlain_seededCalls : ∀ x ∈ seededCalls, KeepsPlain .v312 x := by
  obtain ⟨pre, config, b₀, b, b', block, program, home, paths, argv, hcalls⟩ := exists_seededCalls_eq
  intro x hx before after hturns m hmem hplain
  rw [hcalls] at hx
  have hsame : after = before := by
    cases hturns with
    | bytesString =>
      simp [preInitCalls] at hx
      rcases hx with ⟨⟨rfl, -⟩, -, rfl⟩ | ⟨⟨rfl, -⟩, -, rfl⟩ <;> rfl
    | string => simp [preInitCalls] at hx
    | wideStringList =>
      simp [preInitCalls] at hx
      rcases hx with ⟨⟨rfl, -⟩, -, rfl⟩ | ⟨⟨rfl, -⟩, -, rfl⟩ <;> rfl
  rw [hsame]

theorem start_fills_record_sample : (Lifecycle.new sampleLibrary).record? = none ∧
    Layout.select (Lifecycle.new sampleLibrary).library.version seededSettings.freeThreaded = .ok .v312 ∧
      (∀ x ∈ seededCalls, KeepsPlain .v312 x) ∧ ∃ x ∈ seededCalls, ∃ left block : Block Layout.v312.size,
        x.1 = .initializeFromConfig block ∧ Contents .v312 seededSettings.options left block := by
  refine ⟨rfl, rfl, keepsPlain_seededCalls, ?_⟩
  have hrecord : (Lifecycle.new sampleLibrary).record? = none := rfl
  obtain ⟨new, hnew, -, hfilled⟩ := (start_fills_record seededSettings hrecord rfl).2.2 []
  have hcalls : new.calls = seededCalls := congrArg Trace.calls hnew.symm
  rw [hcalls] at hfilled
  have hguarded := hfilled keepsPlain_seededCalls
  obtain ⟨pre, config, b₀, b, b', block, program, home, paths, argv, hcalls⟩ := exists_seededCalls_eq
  have hmem : (⟨.initializeFromConfig block, .ok⟩ : Exchange) ∈ seededCalls := by
    rw [hcalls]
    simp
  obtain ⟨before, behind, hsplit⟩ := List.append_of_mem hmem
  obtain ⟨left, block', hcall, -, hcontents⟩ := hguarded before _ behind hsplit rfl
  exact ⟨_, hmem, left, block', hcall, hcontents⟩

end Startup

end FrozenApp
