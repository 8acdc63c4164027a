import FrozenApp.Proofs.Startup.Life
import Mathlib.Data.List.Infix
/-!
# What a life keeps to

`Orderly` says how the calls of a whole life stand to each other: one record is
filled, set and cleared (`OneRecord`), the interpreter is initialized and finalized once,
and in this order. `Lawful` says what one operation does to the state. `life_laws`:
every operation in every life is lawful, and the calls up to it are orderly.
-/

namespace FrozenApp.Startup

open Config (Block Layout)
open Interpreter Lifecycle

/-! ## Calls and what stands ahead of them -/

/-- Every call has a property with those ahead of it. -/
def Guarded (P : List Exchange → Exchange → Prop) (l : List Exchange) : Prop :=
  ∀ before c behind, l = before ++ c :: behind → P before c

theorem Guarded.of_mem {P : List Exchange → Exchange → Prop} {l : List Exchange} (h : ∀ b, ∀ c ∈ l, P b c) :
    Guarded P l := by
  rintro before c behind rfl
  exact h before c (List.mem_append_right _ (List.mem_cons_self ..))

theorem Guarded.mono {P Q : List Exchange → Exchange → Prop} {l : List Exchange} (h : Guarded P l)
    (hPQ : ∀ b c, P b c → Q b c) : Guarded Q l :=
  fun before c behind heq => hPQ before c (h before c behind heq)

theorem Guarded.append {P : List Exchange → Exchange → Prop} {l l' : List Exchange} (h : Guarded P l)
    (h' : Guarded (fun b c => P (l ++ b) c) l') : Guarded P (l ++ l') := by
  intro before c behind heq
  -- the call lies in the one list or in the other
  rcases List.append_eq_append_iff.1 heq with ⟨k, rfl, hk⟩ | ⟨k, rfl, hk⟩
  · exact h' k c behind hk
  · cases k with
    | nil =>
      have := h' [] c behind hk.symm
      rwa [List.append_nil, List.append_nil] at this
    | cons a k => cases hk; exact h before c k rfl

theorem Guarded.cons {P : List Exchange → Exchange → Prop} {x : Exchange} {l : List Exchange} (hx : P [] x)
    (h : Guarded (fun b c => P (x :: b) c) l) : Guarded P (x :: l) := by
  intro before c behind heq
  cases before with
  | nil => cases heq; exact hx
  | cons a before => cases heq; exact h before c behind rfl

theorem Guarded.nil {P : List Exchange → Exchange → Prop} : Guarded P [] :=
  Guarded.of_mem fun _ _ => nofun

theorem Guarded.of_symbols {S : List Symbol} {T : Symbol → Prop} {Q : List Exchange → Exchange → Prop}
    {l : List Exchange} (h : ∀ x ∈ l, x.1.symbol ∈ S) (hST : ∀ s ∈ S, ¬ T s) :
    Guarded (fun b c => T c.1.symbol → Q b c) l :=
  Guarded.of_mem fun _ c hc hT => absurd hT (hST _ (h c hc))

/-! ## How often a function is called -/

/-- How often a function is called. -/
def times (s : Symbol) (l : List Exchange) : Nat :=
  l.countP (·.1.symbol = s)

@[simp]
theorem times_nil (s : Symbol) : times s [] = 0 := rfl

@[simp]
theorem times_append (s : Symbol) (l l' : List Exchange) : times s (l ++ l') = times s l + times s l' :=
  List.countP_append

@[simp]
theorem times_cons (s : Symbol) (x : Exchange) (l : List Exchange) :
    times s (x :: l) = times s l + if x.1.symbol = s then 1 else 0 := by
  simp [times, List.countP_cons]

theorem times_eq_zero {s : Symbol} {l : List Exchange} (h : ∀ x ∈ l, x.1.symbol ≠ s) : times s l = 0 := by
  rw [times, List.countP_eq_zero]
  simpa using h

/-! ## The calls of the parts -/

theorem preInitCalls_symbols {pre config : PreConfig} {status : Status} {refused : Bool} {x : Exchange}
    (h : x ∈ preInitCalls pre config status refused) :
    x.1.symbol ∈ [Symbol.preConfigInitIsolated, .preInitialize, .statusException] := by
  simp only [preInitCalls, List.mem_cons, List.not_mem_nil, or_false] at h
  rcases h with rfl | rfl | rfl <;> simp [Call.symbol]

theorem preInitCalls_record? {pre config : PreConfig} {status : Status} {refused : Bool} {x : Exchange}
    (h : x ∈ preInitCalls pre config status refused) : x.1.record? = none := by
  simp only [preInitCalls, List.mem_cons, List.not_mem_nil, or_false] at h
  rcases h with rfl | rfl | rfl <;> rfl

/-- What holds of the calls of the first stage holds of those of failed starts. -/
theorem Tries.forall_mem {version : Version} {l : List Exchange} (h : Tries version l) {Q : Exchange → Prop}
    (hQ : ∀ pre config status refused, ∀ x ∈ preInitCalls pre config status refused, Q x) : ∀ x ∈ l, Q x := by
  induction h with
  | nil => exact List.forall_mem_nil _
  | snoc _ hnew ih =>
    intro x hx
    rcases List.mem_append.1 hx with hx | hx
    · exact ih x hx
    · cases hnew with
      | refused => exact hQ _ _ _ _ x hx
      | configured _ _ hending => cases hending

theorem Tries.times_eq_zero {version : Version} {l : List Exchange} (h : Tries version l) {s : Symbol}
    (hs : s ∉ [Symbol.preConfigInitIsolated, .preInitialize, .statusException]) : times s l = 0 :=
  Startup.times_eq_zero (h.forall_mem fun _ _ _ _ _ hx heq => hs (heq ▸ preInitCalls_symbols hx))

theorem Populated.times_eq_zero {layout : Layout} {b b' : Block layout.size} {as : List Assignment}
    {r : Except StepError Unit} {l : List Exchange} (h : Populated layout b as r b' l) {f : Symbol}
    (hf : f ∉ Symbol.setting) : times f l = 0 :=
  Startup.times_eq_zero fun x hx heq => hf (heq ▸ h.symbols x hx)

/-- No call takes a record. -/
def NoRecord (l : List Exchange) : Prop :=
  ∀ x ∈ l, x.1.record? = none

theorem NoRecord.append {l l' : List Exchange} (h : NoRecord l) (h' : NoRecord l') : NoRecord (l ++ l') :=
  List.forall_mem_append.2 ⟨h, h'⟩

/-- The calls that take a record take one and the same, of the layout that is selected. The interpreter
fills it, and the assignments of the settings are made, each on the record as the one ahead of it has
left it. As the last of them has left it, the interpreter may be initialized with it, and it is cleared. -/
inductive OneRecord (version : Version) (s : Settings) : List Exchange → Prop
  | used {before uses tail behind : List Exchange} {layout : Layout} {block block' : Block layout.size}
      {set : Except StepError Unit} {r : Except StartError Unit} {state : State}
      (hlayout : Layout.select version s.freeThreaded = .ok layout) (hbefore : NoRecord before)
      (hpopulated : Populated layout block (assignments s) set block' uses) (hending : Ending block' set r state tail)
      (hbehind : NoRecord behind) :
      OneRecord version s (before ++
        ⟨.configInitIsolated Block.zero, block⟩ :: (uses ++ (tail ++ ⟨.configClear block', ()⟩ :: behind)))

theorem OneRecord.append_left {version : Version} {s : Settings} {l l' : List Exchange} (h' : OneRecord version s l')
    (h : NoRecord l) : OneRecord version s (l ++ l') := by
  obtain ⟨hlayout, hbefore, hpopulated, hending, hbehind⟩ := h'
  rw [← List.append_assoc]
  exact .used hlayout (h.append hbefore) hpopulated hending hbehind

theorem OneRecord.append_right {version : Version} {s : Settings} {l l' : List Exchange} (h : OneRecord version s l)
    (h' : NoRecord l') : OneRecord version s (l ++ l') := by
  obtain ⟨hlayout, hbefore, hpopulated, hending, hbehind⟩ := h
  simp only [List.append_assoc, List.cons_append]
  exact .used hlayout hbefore hpopulated hending (hbehind.append h')

theorem Started.oneRecord {version : Version} {s : Settings} {r : Except StartError Unit} {state : State}
    {l : List Exchange} (h : Started version s r state l) : NoRecord l ∨ OneRecord version s l := by
  cases h with
  | refused | noLayout => exact .inl fun x hx => preInitCalls_record? hx
  | configured hlayout hpopulated hending =>
    exact .inr (.used hlayout (fun x hx => preInitCalls_record? hx) hpopulated hending (List.forall_mem_nil _))

theorem Started.symbols {version : Version} {s : Settings} {r : Except StartError Unit} {state : State}
    {l : List Exchange} (h : Started version s r state l) : ∀ x ∈ l, x.1.symbol ∈ Symbol.starting := by
  have hpre : ∀ s ∈ [Symbol.preConfigInitIsolated, .preInitialize, .statusException], s ∈ Symbol.starting := by decide
  have hset : ∀ s ∈ Symbol.setting, s ∈ Symbol.starting := by decide
  intro x hx
  cases h with
  | refused | noLayout => exact hpre _ (preInitCalls_symbols hx)
  | configured _ hpopulated hending =>
    simp only [List.mem_append, List.mem_cons, List.not_mem_nil, or_false] at hx
    rcases hx with hx | rfl | hx | hx | rfl
    · exact hpre _ (preInitCalls_symbols hx)
    · exact (by decide : Symbol.configInitIsolated ∈ Symbol.starting)
    · exact hset _ (hpopulated.symbols x hx)
    · revert x
      cases hending <;> simp [Call.symbol, Symbol.starting, Symbol.setting, Symbol.setters]
    · exact (by decide : Symbol.configClear ∈ Symbol.starting)

theorem Started.times_eq_zero {version : Version} {s : Settings} {r : Except StartError Unit} {state : State}
    {l : List Exchange} (h : Started version s r state l) {f : Symbol} (hf : f ∉ Symbol.starting) : times f l = 0 :=
  Startup.times_eq_zero fun x hx heq => hf (heq ▸ h.symbols x hx)

/-- How often a start calls the functions that belong together. -/
structure Balanced (l : List Exchange) : Prop where
  cleared : times .configClear l = times .configInitIsolated l
  filled_once : times .configInitIsolated l ≤ 1
  initialized_once : times .initializeFromConfig l ≤ 1

theorem Started.balanced {version : Version} {s : Settings} {r : Except StartError Unit} {state : State}
    {l : List Exchange} (h : Started version s r state l) : Balanced l := by
  cases h with
  | refused | noLayout => exact ⟨rfl, Nat.zero_le 1, Nat.zero_le 1⟩
  | configured _ hpopulated hending =>
    have huses : ∀ s, s ∉ Symbol.setting → times s _ = 0 := fun s hs => hpopulated.times_eq_zero hs
    have h₁ := huses .configClear (by decide)
    have h₂ := huses .configInitIsolated (by decide)
    have h₃ := huses .initializeFromConfig (by decide)
    cases hending <;> refine ⟨?_, ?_, ?_⟩ <;> simp [preInitCalls, Call.symbol, h₁, h₂, h₃]

theorem Lifecycle.FinalCalls.noRecord {l : List Exchange} (h : FinalCalls l) : NoRecord l := by
  cases h <;> simp [NoRecord, Call.record?]

theorem Lifecycle.FinalCalls.symbols {l : List Exchange} (h : FinalCalls l) :
    ∀ x ∈ l, x.1.symbol ∈ [Symbol.isInitialized, .runSimpleString, .finalize] := by
  cases h <;> simp [Call.symbol]

theorem Lifecycle.FinalCalls.times_eq_zero {l : List Exchange} (h : FinalCalls l) {s : Symbol}
    (hs : s ∉ [Symbol.isInitialized, .runSimpleString, .finalize]) : times s l = 0 :=
  Startup.times_eq_zero fun x hx heq => hs (heq ▸ h.symbols x hx)

/-! ## The laws -/

/-- The function that ends the process with a status is called right after the
interpreter has failed to start with it. -/
def AfterFailure (before : List Exchange) (c : Exchange) : Prop :=
  c.1.symbol = .exitStatusException → ∃ (size : Nat) (block : Block size) (status : Status),
    c = ⟨.exitStatusException status, ()⟩ ∧
      [⟨.initializeFromConfig block, status⟩, ⟨.statusException status, true⟩] <:+ before

/-- The interpreter has been initialized, and does not take the outcome for an
exception. -/
def Succeeded (l : List Exchange) : Prop :=
  ∃ (size : Nat) (block : Block size) (status : Status),
    [⟨.initializeFromConfig block, status⟩, ⟨.statusException status, false⟩] <:+: l

/-- The interpreter is finalized only behind a start that has succeeded. -/
def AfterSuccess (before : List Exchange) (c : Exchange) : Prop :=
  c.1.symbol = .finalize → Succeeded before

/-- A setter runs only behind a first stage that has succeeded, and for a layout
that has been selected. -/
def AfterPreInit (version : Version) (freeThreaded : Bool) (before : List Exchange) (c : Exchange) : Prop :=
  c.1.symbol ∈ Symbol.setters → (∃ layout, Layout.select version freeThreaded = .ok layout) ∧
    ∃ config status, [⟨.preInitialize config, status⟩, ⟨.statusException status, false⟩] <:+: before

theorem Started.afterPreInit {version : Version} {s : Settings} {r : Except StartError Unit} {state : State}
    {l : List Exchange} (h : Started version s r state l) : Guarded (AfterPreInit version s.freeThreaded) l := by
  have hpre : ∀ pre config status refused,
      Guarded (AfterPreInit version s.freeThreaded) (preInitCalls pre config status refused) := fun _ _ _ _ =>
    .of_symbols (T := (· ∈ Symbol.setters)) (fun _ hx => preInitCalls_symbols hx) (by decide)
  cases h with
  | refused => exact hpre _ _ _ _
  | noLayout => exact hpre _ _ _ _
  | configured hlayout _ _ =>
    refine (hpre _ _ _ _).append (Guarded.of_mem fun b c _ _ => ⟨⟨_, hlayout⟩, ?_⟩)
    exact ⟨_, _, [⟨.preConfigInitIsolated, _⟩], b, rfl⟩

theorem Started.afterFailure {version : Version} {s : Settings} {r : Except StartError Unit} {state : State}
    {l : List Exchange} (h : Started version s r state l) (ahead : List Exchange) :
    Guarded (fun b c => AfterFailure (ahead ++ b) c) l := by
  have hpre : ∀ pre config status refused,
      Guarded (fun b c => AfterFailure (ahead ++ b) c) (preInitCalls pre config status refused) := fun _ _ _ _ =>
    .of_symbols (T := (· = .exitStatusException)) (fun _ hx => preInitCalls_symbols hx) (by decide)
  cases h with
  | refused => exact hpre _ _ _ _
  | noLayout => exact hpre _ _ _ _
  | @configured _ _ _ _ block' _ uses _ _ _ _ hpopulated hending =>
    refine (hpre _ _ _ _).append (.cons nofun (.append ?_ (.append ?_ (.cons nofun .nil))))
    · exact .of_symbols (T := (· = .exitStatusException)) hpopulated.symbols (by decide)
    · cases hending with
      | stuck => exact .nil
      | running => exact .cons nofun (.cons nofun .nil)
      | failed status =>
        refine .cons nofun (.cons nofun (.cons (fun _ => ⟨_, block', status, rfl, ?_⟩) .nil))
        refine List.IsSuffix.trans ?_ (List.suffix_append ahead _)
        refine List.IsSuffix.trans ?_ (List.suffix_append _ _)
        exact (List.suffix_append uses _).trans (List.suffix_cons _ _)

theorem Succeeded.append_left {l : List Exchange} (h : Succeeded l) (l' : List Exchange) : Succeeded (l' ++ l) := by
  obtain ⟨size, block, status, h⟩ := h
  exact ⟨size, block, status, h.trans (List.suffix_append l' l).isInfix⟩

theorem Succeeded.append_right {l : List Exchange} (h : Succeeded l) (l' : List Exchange) : Succeeded (l ++ l') := by
  obtain ⟨size, block, status, h⟩ := h
  exact ⟨size, block, status, h.trans (List.prefix_append l l').isInfix⟩

theorem Started.succeeded {version : Version} {s : Settings} {r : Except StartError Unit} {l : List Exchange}
    (h : Started version s r .running l) : Succeeded l := by
  cases h with
  | @configured pre preStatus _ block block' _ uses _ _ _ _ _ hending =>
    cases hending with
    | running status =>
      refine ⟨_, block', status, preInitCalls pre (adjustPreConfig s pre) preStatus false ++
        ⟨.configInitIsolated Block.zero, block⟩ :: uses, [⟨.configClear block', ()⟩], ?_⟩
      simp

/-- A failed start has not succeeded at any place. -/
theorem Started.not_succeeded {version : Version} {s : Settings} {e : StartError} {state : State} {l : List Exchange}
    (h : Started version s (.error e) state l) : ¬ Succeeded l := by
  rintro ⟨size, block₁, status₁, ahead, behind, heq⟩
  have hmem : (⟨.initializeFromConfig block₁, status₁⟩ : Exchange) ∈ l := by
    rw [← heq]
    simp
  have hpre : ∀ pre config status refused,
      ⟨.initializeFromConfig block₁, status₁⟩ ∉ preInitCalls pre config status refused :=
    fun _ _ _ _ hx => absurd (preInitCalls_symbols hx) (by simp [Call.symbol])
  cases h with
  | refused | noLayout => exact hpre _ _ _ _ hmem
  | @configured pre status _ block block' _ uses _ _ _ _ hpopulated hending =>
    have huses : (⟨.initializeFromConfig block₁, status₁⟩ : Exchange) ∉ uses :=
      fun hx => absurd (hpopulated.symbols _ hx) (by simp [Call.symbol, Symbol.setting, Symbol.setters])
    cases hending with
    | stuck => simp [hpre, huses] at hmem
    | failed status' =>
      -- the interpreter is initialized at one place only, and there it takes the outcome for an exception
      have hsplit : ahead ++ ⟨.initializeFromConfig block₁, status₁⟩ :: ⟨.statusException status₁, false⟩ :: behind =
          (preInitCalls pre (adjustPreConfig s pre) status false ++ ⟨.configInitIsolated Block.zero, block⟩ :: uses) ++
            ⟨.initializeFromConfig block', status'⟩ :: [⟨.statusException status', true⟩,
              ⟨.exitStatusException status', ()⟩, ⟨.configClear block', ()⟩] := by
        simpa using heq
      have hplace := (List.append_cons_inj_of_notMem ?_ ?_).1 hsplit.symm
      · cases hplace.2.2
      · simp [hpre, huses]
      · simp

/-- What can be relied on in the calls of a whole life. -/
structure Orderly (version : Version) (l : List Exchange) : Prop where
  /-- The record is filled once at most, cleared as often, and used once at most to start the interpreter. -/
  balanced : Balanced l
  /-- What is cleared is the record that has been filled and set. -/
  one_record : NoRecord l ∨ ∃ s, OneRecord version s l
  finalized_once : times .finalize l ≤ 1
  exit_after_failure : Guarded AfterFailure l
  finalize_after_success : Guarded AfterSuccess l

theorem Tries.noRecord {version : Version} {l : List Exchange} (h : Tries version l) : NoRecord l :=
  h.forall_mem fun _ _ _ _ _ hx => preInitCalls_record? hx

theorem Tries.orderly {version : Version} {l : List Exchange} (h : Tries version l) : Orderly version l where
  balanced := by
    refine ⟨?_, ?_, ?_⟩ <;> simp [h.times_eq_zero]
  one_record := .inl h.noRecord
  finalized_once := by simp [h.times_eq_zero]
  exit_after_failure := .of_symbols (T := (· = .exitStatusException))
    (h.forall_mem fun _ _ _ _ _ hx => preInitCalls_symbols hx) (by decide)
  finalize_after_success := .of_symbols (T := (· = .finalize))
    (h.forall_mem fun _ _ _ _ _ hx => preInitCalls_symbols hx) (by decide)

theorem Tries.orderly_append {version : Version} {l new : List Exchange} {s : Settings} {r : Except StartError Unit}
    {state : State} (h : Tries version l) (hnew : Started version s r state new) :
    Orderly version (l ++ new) where
  balanced := by
    have := hnew.balanced
    refine ⟨?_, ?_, ?_⟩ <;> simp [h.times_eq_zero, this.cleared, this.filled_once, this.initialized_once]
  one_record := hnew.oneRecord.imp h.noRecord.append fun hone => ⟨s, hone.append_left h.noRecord⟩
  finalized_once := by simp [h.times_eq_zero, hnew.times_eq_zero (f := .finalize) (by decide)]
  exit_after_failure := h.orderly.exit_after_failure.append (hnew.afterFailure l)
  finalize_after_success := by
    refine h.orderly.finalize_after_success.append (.of_mem fun b c hc hfinalize => ?_)
    exact absurd (hfinalize ▸ hnew.symbols c hc) (by decide)

theorem Call.record?_eq_none {c : Call} (h : c.symbol ∉ Symbol.starting) : c.record? = none := by
  simp only [Symbol.starting, Symbol.setting, Symbol.setters] at h
  cases c <;> first | rfl | simp [Call.symbol] at h

/-- Calls of functions that have to do with neither a start nor an end keep the order. -/
theorem Orderly.append_other {version : Version} {l l' : List Exchange} (h : Orderly version l)
    (h' : ∀ x ∈ l', x.1.symbol ∉ .finalize :: Symbol.starting) : Orderly version (l ++ l') := by
  have hsymbol : ∀ s ∈ .finalize :: Symbol.starting, ∀ x ∈ l', x.1.symbol ≠ s :=
    fun s hs x hx heq => h' x hx (heq ▸ hs)
  have htimes : ∀ s ∈ .finalize :: Symbol.starting, times s (l ++ l') = times s l := fun s hs => by
    rw [times_append, times_eq_zero (hsymbol s hs), Nat.add_zero]
  refine ⟨⟨?_, ?_, ?_⟩, ?_, ?_, ?_, ?_⟩
  · rw [htimes _ (by decide), htimes _ (by decide)]; exact h.balanced.cleared
  · rw [htimes _ (by decide)]; exact h.balanced.filled_once
  · rw [htimes _ (by decide)]; exact h.balanced.initialized_once
  · have hother : NoRecord l' := fun x hx => Call.record?_eq_none fun hs => h' x hx (List.mem_cons_of_mem _ hs)
    exact h.one_record.imp (·.append hother) fun ⟨s, hone⟩ => ⟨s, hone.append_right hother⟩
  · rw [htimes _ (by decide)]; exact h.finalized_once
  · exact h.exit_after_failure.append (.of_mem fun _ c hc heq => absurd heq (hsymbol _ (by decide) c hc))
  · exact h.finalize_after_success.append (.of_mem fun _ c hc heq => absurd heq (hsymbol _ (by decide) c hc))

/-- Finalizing an interpreter that runs keeps the order. -/
theorem Orderly.append_final {version : Version} {l final : List Exchange} (h : Orderly version l) (hs : Succeeded l)
    (hfinalize : times .finalize l = 0) (hfinal : FinalCalls final) : Orderly version (l ++ final) where
  balanced := by
    refine ⟨?_, ?_, ?_⟩
    · simpa [hfinal.times_eq_zero] using h.balanced.cleared
    · simpa [hfinal.times_eq_zero] using h.balanced.filled_once
    · simpa [hfinal.times_eq_zero] using h.balanced.initialized_once
  one_record := h.one_record.imp (·.append hfinal.noRecord) fun ⟨s, hone⟩ => ⟨s, hone.append_right hfinal.noRecord⟩
  finalized_once := by
    rw [times_append, hfinalize]
    cases hfinal <;> simp [Call.symbol]
  exit_after_failure :=
    h.exit_after_failure.append (.of_symbols (T := (· = .exitStatusException)) hfinal.symbols (by decide))
  finalize_after_success :=
    h.finalize_after_success.append (.of_mem fun b _ _ _ => hs.append_right b)

/-- Whatever a life has come to, its calls are orderly. -/
theorem History.orderly {version : Version} {state : State} {l : List Exchange} (h : History version state l) :
    Orderly version l := by
  cases h with
  | waiting h => exact h.orderly
  | started h hs => exact h.orderly_append hs
  | finalized h hs hfinal =>
    refine (h.orderly_append hs).append_final (hs.succeeded.append_left _) ?_ hfinal
    rw [times_append, h.times_eq_zero (by decide), hs.times_eq_zero (by decide)]

/-! ## One operation -/

/-- The place of a state in the order that a life goes through. -/
def State.rank : State → Nat
  | uninitialized => 0
  | preInitialized => 1
  | configAllocated => 2
  | configPopulated => 3
  | running => 4
  | finalized => 5

/-- What can be relied on in one operation, for its outcome, the life behind it
and the calls made. -/
structure Lawful (life : Lifecycle) (op : Operation) (r : Except StartError Unit) (life' : Lifecycle)
    (l : List Exchange) : Prop where
  forward : life.state.rank ≤ life'.state.rank
  /-- No record is held behind it, and what it fills it clears. -/
  released : life'.record? = none
  balanced : Balanced l
  /-- Only a start takes a record: the one that it fills, sets as it is asked to, and clears. -/
  one_record : NoRecord l ∨ ∃ s, op = .start s ∧ OneRecord life.library.version s l
  /-- A record is held wherever one is needed. -/
  allocated : r ≠ .error .notAllocated
  setters : Guarded (fun before c => c.1.symbol ∈ Symbol.setters → ∃ s, op = .start s ∧
    (∃ layout, Layout.select life.library.version s.freeThreaded = .ok layout) ∧
      ∃ config status, [⟨.preInitialize config, status⟩, ⟨.statusException status, false⟩] <:+: before) l
  /-- A start from any state but the first is an error, and does nothing. -/
  refused : ∀ s, op = .start s → life.state ≠ .uninitialized →
    r = .error (.wrongState life.state) ∧ l = [] ∧ life' = life
  /-- A failed start can be tried again only if it failed in the first stage. -/
  retried : ∀ s e, op = .start s → life.state = .uninitialized → r = .error e →
    (life'.state = .uninitialized ↔ ∃ pre config status, l = preInitCalls pre config status true)

theorem Balanced.nil : Balanced [] :=
  ⟨rfl, Nat.zero_le 1, Nat.zero_le 1⟩

theorem Started.allocated {version : Version} {s : Settings} {r : Except StartError Unit} {state : State}
    {l : List Exchange} (h : Started version s r state l) : r ≠ .error .notAllocated := by
  cases h with
  | refused | noLayout => exact nofun
  | configured _ _ hending => cases hending <;> exact nofun

theorem Started.uninitialized_iff {version : Version} {s : Settings} {r : Except StartError Unit} {state : State}
    {l : List Exchange} (h : Started version s r state l) :
    state = .uninitialized ↔ ∃ pre config status, l = preInitCalls pre config status true := by
  cases h with
  | refused => exact iff_of_true rfl ⟨_, _, _, rfl⟩
  | noLayout =>
    refine iff_of_false nofun ?_
    rintro ⟨pre, config, status, h⟩
    simp [preInitCalls] at h
  | configured _ _ hending =>
    refine iff_of_false (fun h => ?_) ?_
    · subst h; cases hending
    · rintro ⟨pre, config, status, h⟩
      have := congrArg List.length h
      simp [preInitCalls] at this

/-- An operation that is no start may do nothing. -/
theorem Lawful.idle {life : Lifecycle} {op : Operation} (hrecord : life.record? = none) (hop : ∀ s, op ≠ .start s) :
    Lawful life op (.ok ()) life [] where
  forward := Nat.le_refl _
  released := hrecord
  balanced := .nil
  one_record := .inl (List.forall_mem_nil _)
  allocated := nofun
  setters := .nil
  refused s h := absurd h (hop s)
  retried s _ h := absurd h (hop s)

theorem Went.lawful {life life' : Lifecycle} {op : Operation} {r : Except StartError Unit} {l : List Exchange}
    (h : Went life op r life' l) (hrecord : life.record? = none) : Lawful life op r life' l := by
  cases h with
  | started hstate hs =>
    refine ⟨by rw [hstate]; exact Nat.zero_le _, hrecord, hs.balanced, ?_, hs.allocated, ?_, ?_, ?_⟩
    · exact hs.oneRecord.imp id fun hone => ⟨_, rfl, hone⟩
    · exact fun before c behind hl hsetter => ⟨_, rfl, hs.afterPreInit before c behind hl hsetter⟩
    · exact fun _ _ hne => absurd hstate hne
    · exact fun _ _ _ _ _ => hs.uninitialized_iff
  | refused hstate =>
    refine ⟨Nat.le_refl _, hrecord, .nil, .inl (List.forall_mem_nil _), nofun, .nil, fun _ _ _ => ⟨rfl, rfl, rfl⟩, ?_⟩
    exact fun _ _ _ heq => absurd heq hstate
  | released => exact .idle hrecord fun _ => Operation.noConfusion
  | finalized hf =>
    cases hf with
    | skipped => exact .idle hrecord fun _ => Operation.noConfusion
    | finalized hstate hl =>
      have hsetters : ∀ s ∈ [Symbol.isInitialized, .runSimpleString, .finalize], s ∉ Symbol.setters := by decide
      refine ⟨by rw [hstate]; exact (by decide : 4 ≤ 5), hrecord, ⟨?_, ?_, ?_⟩, .inl hl.noRecord, nofun, ?_,
        (fun _ hop => nomatch hop), (fun _ _ hop => nomatch hop)⟩
      · simp [hl.times_eq_zero]
      · simp [hl.times_eq_zero]
      · simp [hl.times_eq_zero]
      · exact .of_mem fun b c hc hsetter => absurd hsetter (hsetters _ (hl.symbols c hc))

/-! ## All operations -/

/-- The invariant of a life: no record is held, and the calls make a history that
leads to its state. -/
structure Reached (lib : Library) (life : Lifecycle) (l : List Exchange) : Prop where
  library : life.library = lib
  record? : life.record? = none
  history : History lib.version life.state l

theorem Reached.step {lib : Library} {life life' : Lifecycle} {op : Operation} {r : Except StartError Unit}
    {l new : List Exchange} (h : Reached lib life l) (hnew : Went life op r life' new) : Reached lib life' (l ++ new) := by
  have hlibrary : life'.library = lib := by
    rw [← h.library]
    cases hnew with
    | started | refused | released => rfl
    | finalized hf => cases hf <;> rfl
  refine ⟨hlibrary, (hnew.lawful h.record?).released, ?_⟩
  have hhistory : History life.library.version life.state l := by rw [h.library]; exact h.history
  have := hhistory.step hnew
  rwa [hlibrary] at this

theorem after_reached (lib : Library) (t : Trace) (ops : List Operation) :
    ∃ done : Trace, (after lib t ops).2 = t ++ done ∧ Reached lib (after lib t ops).1 done.calls := by
  induction ops using List.reverseRecOn with
  | nil => exact ⟨[], (List.append_nil t).symm, rfl, rfl, .waiting .nil⟩
  | append_singleton ops op ih =>
    obtain ⟨done, ht, h⟩ := ih
    obtain ⟨new, hnew, -, hwent⟩ := op.run_over h.record? (after lib t ops).2
    refine ⟨done ++ new, ?_, ?_⟩
    · rw [after_snoc, ← List.append_assoc, ← ht]
      exact hnew
    · rw [after_snoc, calls_append]
      exact h.step hwent

/-- What the operation behind some others gives. -/
def outcome (lib : Library) (t : Trace) (ops : List Operation) (op : Operation) : Except StartError Unit :=
  ((op.run.run (after lib t ops).1).run (after lib t ops).2).1.1

/-- Whatever the interpreter replies, and whatever operations are run in whatever
order, the last of them is lawful, all their calls are orderly, and letting go of the
life then does nothing. -/
theorem life_laws (lib : Library) (t : Trace) (ops : List Operation) (op : Operation) :
    ∃ done new : Trace, (after lib t ops).2 = t ++ done ∧ (after lib t (ops ++ [op])).2 = t ++ (done ++ new) ∧
      Orderly lib.version (done ++ new).calls ∧
      Lawful (after lib t ops).1 op (outcome lib t ops op) (after lib t (ops ++ [op])).1 new.calls ∧
      (releaseConfig.run (after lib t (ops ++ [op])).1).run (after lib t (ops ++ [op])).2 =
        (((), (after lib t (ops ++ [op])).1), (after lib t (ops ++ [op])).2) := by
  obtain ⟨done, ht, h⟩ := after_reached lib t ops
  obtain ⟨new, hnew, -, hwent⟩ := op.run_over h.record? (after lib t ops).2
  have hlife : (after lib t (ops ++ [op])).1 = ((op.run.run (after lib t ops).1).run (after lib t ops).2).1.2 := by
    rw [after_snoc]; rfl
  have hreached := h.step hwent
  rw [← hlife] at hwent hreached
  refine ⟨done, new, ht, ?_, ?_, hwent.lawful h.record?, ?_⟩
  · rw [after_snoc, ← List.append_assoc, ← ht]
    exact hnew
  · rw [calls_append]
    exact hreached.history.orderly
  · have hrecord := hreached.record?
    generalize (after lib t (ops ++ [op])).1 = life at hrecord
    obtain ⟨library, state, record?⟩ := life
    cases hrecord
    rfl

end FrozenApp.Startup
