import FrozenApp.Interpreter.Scripted
import FrozenApp.Proofs.Startup.Progress
/-!
# The order of the setters

`start_keeps_order`: whatever the interpreter replies, the setters that a start calls are
the first of those that its settings ask for. All of them are called, and the interpreter is
initialized, exactly if no string holds a NUL, every string is decoded and no setter
reports an exception. Behind the first step that fails, nothing more is tried.
-/

namespace FrozenApp.Startup

open Config (Block Layout Member)
open Interpreter

variable {layout : Layout}

/-! ## Around each setter -/

/-- The list that a setter is given has been decoded right ahead of it, item by item. -/
def ItemsDecoded (before : List Exchange) (c : Exchange) : Prop :=
  ∀ (size : Nat) (block : Block size) (offset : Nat) (items : List WideString),
    c.1 = .configSetWideStringList block offset items → decodings items <:+ before

/-- The outcome of every setter is looked at right behind it. -/
def Checked (l : List Exchange) : Prop :=
  ∀ before x behind status, l = before ++ x :: behind → setterStatus? x = some status →
    ∃ refused, [⟨.statusException status, refused⟩] <+: behind

theorem Checked.append {l l' : List Exchange} (h : Checked l) (h' : Checked l') : Checked (l ++ l') := by
  intro before x behind status heq hx
  rcases List.append_eq_append_iff.1 heq with ⟨k, rfl, hk⟩ | ⟨k, rfl, hk⟩
  · exact h' k x behind status hk hx
  · cases k with
    | nil => exact h' [] x behind status hk.symm hx
    | cons y k =>
      cases hk
      obtain ⟨refused, hbehind⟩ := h before x k status rfl hx
      exact ⟨refused, hbehind.trans (List.prefix_append _ _)⟩

theorem ItemsDecoded.append_left {before : List Exchange} {c : Exchange} (h : ItemsDecoded before c) (l : List Exchange) :
    ItemsDecoded (l ++ before) c :=
  fun size block offset items hc => (h size block offset items hc).trans (List.suffix_append _ _)

theorem setterStatus?_eq_none {x : Exchange} (h : x.1.symbol ∉ Symbol.setters) : setterStatus? x = none := by
  obtain ⟨c, reply⟩ := x
  cases c <;> first | rfl | simp [Call.symbol, Symbol.setters] at h

theorem setter?_eq_none {x : Exchange} (h : x.1.symbol ∉ Symbol.setters) : setter? x = none := by
  obtain ⟨c, reply⟩ := x
  cases c <;> first | rfl | simp [Call.symbol, Symbol.setters] at h

theorem handed?_eq_none {x : Exchange} (h : x.1.symbol ∉ .decodeLocale :: Symbol.setters) : handed? x = none := by
  obtain ⟨c, reply⟩ := x
  cases c <;> first | rfl | simp [Call.symbol, Symbol.setters] at h

theorem ItemsDecoded.of_symbol {x : Exchange} (h : x.1.symbol ∉ Symbol.setters) (before : List Exchange) :
    ItemsDecoded before x := by
  intro size block offset items hx
  rw [hx] at h
  simp [Call.symbol, Symbol.setters] at h

theorem Checked.of_symbols {l : List Exchange} (h : ∀ x ∈ l, x.1.symbol ∉ Symbol.setters) : Checked l := by
  rintro before x behind status rfl hx
  rw [setterStatus?_eq_none (h x (by simp))] at hx
  cases hx

theorem Checked.nil : Checked [] :=
  .of_symbols (List.forall_mem_nil _)

theorem itemsDecoded_of_symbols {l : List Exchange} (h : ∀ x ∈ l, x.1.symbol ∉ Symbol.setters) (ahead : List Exchange) :
    Guarded (fun before c => ItemsDecoded (ahead ++ before) c) l :=
  .of_mem fun _ x hx => .of_symbol (h x hx) _

theorem Checked.cons {x : Exchange} {status : Status} {l : List Exchange} (hx : setterStatus? x = some status)
    (refused : Bool) (h : Checked l) : Checked (x :: ⟨.statusException status, refused⟩ :: l) := by
  intro before y behind status' heq hy
  rcases before with _ | ⟨_, _ | ⟨_, before⟩⟩
  · cases heq
    cases hx.symm.trans hy
    exact ⟨refused, l, rfl⟩
  · cases heq
    cases hy
  · cases heq
    exact h before y behind status' rfl hy

theorem Assigned.checked {b b' : Block layout.size} {a : Assignment} {r : Except StepError Unit} {l : List Exchange}
    (h : Assigned layout b a r b' l) : Checked l ∧ Guarded ItemsDecoded l := by
  have hdecode : Symbol.decodeLocale ∉ Symbol.setters := by decide
  have hsequence : ∀ s ∈ Symbol.setters, s ∈ Symbol.sequence := by decide
  have hcheck : ∀ before status refused, ItemsDecoded before ⟨.statusException status, refused⟩ :=
    fun before _ _ => .of_symbol (show Symbol.statusException ∉ _ by decide) before
  have hfreed : ∀ items, ∀ x ∈ freeing items, x.1.symbol ∉ Symbol.setters :=
    fun items x hx hs => (freeing_quiet items x hx).1 (hsequence _ hs)
  cases h with
  | int | unsignedLong | nul => exact ⟨.nil, .nil⟩
  | string next status refused _ =>
    exact ⟨.cons rfl refused .nil, .cons nofun (.cons (hcheck _ _ _) .nil)⟩
  | @undecoded m values step items e l hdecoded =>
    have hsymbols : ∀ x ∈ l ++ freeing items, x.1.symbol ∉ Symbol.setters :=
      List.forall_mem_append.2 ⟨fun x hx => (hdecoded.symbols x hx).symm ▸ hdecode, hfreed items⟩
    exact ⟨.of_symbols hsymbols, itemsDecoded_of_symbols hsymbols []⟩
  | @stringList m values step items l next status refused hdecoded =>
    have hsymbols : ∀ x ∈ l, x.1.symbol ∉ Symbol.setters := fun x hx => (hdecoded.symbols x hx).symm ▸ hdecode
    obtain ⟨-, -, rfl⟩ := hdecoded.of_none
    refine ⟨(Checked.of_symbols hsymbols).append (.cons rfl refused (.of_symbols (hfreed items))), ?_⟩
    refine (itemsDecoded_of_symbols hsymbols []).append (.cons ?_ (.cons (hcheck _ _ _) ?_))
    · rintro _ _ _ _ ⟨⟩
      rw [List.append_nil]
      exact List.suffix_refl _
    · exact .of_mem fun _ x hx => .of_symbol (hfreed items x hx) _

theorem Populated.checked {b b' : Block layout.size} {as : List Assignment} {r : Except StepError Unit}
    {l : List Exchange} (h : Populated layout b as r b' l) : Checked l ∧ Guarded ItemsDecoded l := by
  induction h with
  | nil => exact ⟨.nil, .nil⟩
  | cons h _ ih => exact ⟨h.checked.1.append ih.1, h.checked.2.append (ih.2.mono fun _ _ hc => hc.append_left _)⟩
  | stopped h => exact h.checked

/-! ## The order of a start -/

/-- The setters are called for everything that the settings ask for, and the interpreter is initialized. -/
def Completed (layout : Layout) (s : Settings) (l : List Exchange) : Prop :=
  (setterCalls l).map (Prod.map some id) = (wanted s).map (Prod.map layout.offset? id) ∧
    times .initializeFromConfig l = 1

/-- The order that a start from a state keeps to. -/
structure InOrder (layout : Layout) (s : Settings) (state : State) (r : Except StartError Unit) (l : List Exchange) :
    Prop where
  begins : state = .uninitialized → ∃ pre status refused, preInitCalls pre (adjustPreConfig s pre) status refused <+: l
  /-- Any other start does nothing. -/
  idle : state ≠ .uninitialized → l = [] ∧ r = .error (.wrongState state)
  /-- The setters that are called are the first of those wanted, each with the offset
  of its member and the bytes of the settings. -/
  in_order : (setterCalls l).map (Prod.map some id) <+: (wanted s).map (Prod.map layout.offset? id)
  /-- Strings are handed over in order, to be set or to be decoded, and none of them holds a NUL. -/
  handed_in_order : handed l <+: strings (wanted s)
  handed_safe : ∀ text ∈ handed l, 0 ∉ text
  decoded : Guarded ItemsDecoded l
  checked : Checked l
  /-- Nothing is set behind a first stage that fails. -/
  refused : ∀ pre config status, preInitCalls pre config status true <+: l → setterCalls l = [] ∧ ∃ e, r = .error e
  completed_iff : ∀ pre config status, preInitCalls pre config status false <+: l →
    (Completed layout s l ↔ Guarded (fun before c => ¬ FailsAt before c) l ∧ ∀ text ∈ strings (wanted s), 0 ∉ text)
  /-- Behind the first step that fails, nothing is decoded, set or initialized. -/
  stops : ∀ before c behind, l = before ++ c :: behind → FailsAt before c → ∀ x ∈ behind, x.1.symbol ∉ Symbol.sequence
  not_completed : ∀ pre config status, preInitCalls pre config status false <+: l → ¬ Completed layout s l →
    times .initializeFromConfig l = 0 ∧ ∃ e, r = .error e

theorem setterCalls_eq_nil {l : List Exchange} (h : ∀ x ∈ l, x.1.symbol ∉ Symbol.setters) : setterCalls l = [] :=
  List.filterMap_eq_nil_iff.2 fun x hx => setter?_eq_none (h x hx)

theorem handed_eq_nil {l : List Exchange} (h : ∀ x ∈ l, x.1.symbol ∉ .decodeLocale :: Symbol.setters) : handed l = [] :=
  List.filterMap_eq_nil_iff.2 fun x hx => handed?_eq_none (h x hx)

/-- The first stage tells by its calls whether it has failed. -/
theorem preInitCalls_inj {pre pre' config config' : PreConfig} {status status' : Status} {refused refused' : Bool}
    {l : List Exchange} (h : preInitCalls pre config status refused <+: preInitCalls pre' config' status' refused' ++ l) :
    refused = refused' := by
  obtain ⟨_, h⟩ := h
  cases h
  rfl

/-- The wanted members are where the layout has them. -/
theorem map_offset?_wanted (layout : Layout) (s : Settings) : (wanted s).map (Prod.map layout.offset? id) =
    ((wanted s).map (Prod.map layout.offset id)).map (Prod.map some id) := by
  rw [List.map_map]
  refine List.map_congr_left fun p hp => ?_
  rw [Prod.map_apply, offset?_of_mem_wanted layout hp]
  rfl

theorem FailsAt.status_of_snoc {l : List Exchange} {x : Exchange} {status : Status}
    (h : FailsAt (l ++ [x]) ⟨.statusException status, true⟩) : setterStatus? x = some status := by
  generalize hbefore : l ++ [x] = before at h
  cases h with
  | rejected hx =>
    cases (List.append_inj' hbefore rfl).2
    exact hx

theorem preInitCalls_quiet (pre config : PreConfig) (status : Status) :
    ∀ x ∈ preInitCalls pre config status false, Quiet x := by
  simp [preInitCalls, Quiet, Refusal, Call.symbol, Symbol.sequence, Symbol.setters]

theorem Ending.symbols {size : Nat} {block : Block size} {set : Except StepError Unit} {r : Except StartError Unit}
    {state : State} {tail : List Exchange} (h : Ending block set r state tail) :
    ∀ x ∈ tail, x.1.symbol ∉ .decodeLocale :: Symbol.setters := by
  cases h <;> simp [Call.symbol, Symbol.setters]

theorem Ending.not_failsAt {size : Nat} {block : Block size} {set : Except StepError Unit} {r : Except StartError Unit}
    {state : State} {tail : List Exchange} (h : Ending block set r state tail) (ahead : List Exchange) :
    Guarded (fun before c => ¬ FailsAt (ahead ++ before) c) (tail ++ [⟨.configClear block, ()⟩]) := by
  have hother : ∀ x : Exchange, ¬ Refusal x → ∀ before, ¬ FailsAt before x := fun _ => not_failsAt_of_not_refusal
  have hclear := hother ⟨.configClear block, ()⟩ (by simp [Refusal])
  cases h with
  | stuck => exact .cons (hclear _) .nil
  | running status =>
    exact .cons (hother _ (by simp [Refusal]) _) (.cons (hother _ (by simp [Refusal]) _) (.cons (hclear _) .nil))
  | failed status =>
    refine .cons (hother _ (by simp [Refusal]) _) (.cons ?_ (.cons (hother _ (by simp [Refusal]) _)
      (.cons (hclear _) .nil)))
    intro h
    -- what is called right ahead is no setter
    cases h.status_of_snoc

/-- What stands around the calls that set members has no part in this itself. Behind
them, the interpreter may be initialized, and may refuse it. -/
structure Around (ahead behind : List Exchange) : Prop where
  quiet : ∀ x ∈ ahead, Quiet x
  behind_symbols : ∀ x ∈ behind, x.1.symbol ∉ .decodeLocale :: Symbol.setters
  not_failsAt : ∀ l, Guarded (fun before c => ¬ FailsAt (l ++ before) c) behind

namespace Around

variable {ahead uses behind : List Exchange}

theorem ahead_symbols (h : Around ahead behind) : ∀ x ∈ ahead, x.1.symbol ∉ .decodeLocale :: Symbol.setters := by
  have hsequence : ∀ s ∈ .decodeLocale :: Symbol.setters, s ∈ Symbol.sequence := by decide
  exact fun x hx hs => (h.quiet x hx).1 (hsequence _ hs)

theorem setterCalls_eq (h : Around ahead behind) : setterCalls (ahead ++ (uses ++ behind)) = setterCalls uses := by
  have hnil : ∀ l : List Exchange, (∀ x ∈ l, x.1.symbol ∉ .decodeLocale :: Symbol.setters) → setterCalls l = [] :=
    fun l hl => setterCalls_eq_nil fun x hx hs => hl x hx (List.mem_cons_of_mem _ hs)
  rw [setterCalls_append, setterCalls_append, hnil ahead h.ahead_symbols, hnil behind h.behind_symbols,
    List.nil_append, List.append_nil]

theorem handed_eq (h : Around ahead behind) : handed (ahead ++ (uses ++ behind)) = handed uses := by
  rw [handed_append, handed_append, handed_eq_nil h.ahead_symbols, handed_eq_nil h.behind_symbols, List.nil_append,
    List.append_nil]

theorem times_eq (h : Around ahead behind) (huses : ∀ x ∈ uses, x.1.symbol ∈ Symbol.setting) :
    times .initializeFromConfig (ahead ++ (uses ++ behind)) = times .initializeFromConfig behind := by
  have hahead : times .initializeFromConfig ahead = 0 :=
    times_eq_zero fun x hx heq => (h.quiet x hx).1 (heq ▸ (by decide))
  have husing : times .initializeFromConfig uses = 0 :=
    times_eq_zero fun x hx heq => absurd (heq ▸ huses x hx) (by decide)
  rw [times_append, times_append, hahead, husing, Nat.zero_add, Nat.zero_add]

theorem checked (h : Around ahead behind) (huses : Checked uses ∧ Guarded ItemsDecoded uses) :
    Checked (ahead ++ (uses ++ behind)) ∧ Guarded ItemsDecoded (ahead ++ (uses ++ behind)) := by
  have hahead : ∀ x ∈ ahead, x.1.symbol ∉ Symbol.setters :=
    fun x hx hs => h.ahead_symbols x hx (List.mem_cons_of_mem _ hs)
  have hbehind : ∀ x ∈ behind, x.1.symbol ∉ Symbol.setters :=
    fun x hx hs => h.behind_symbols x hx (List.mem_cons_of_mem _ hs)
  refine ⟨(Checked.of_symbols hahead).append (huses.1.append (.of_symbols hbehind)), ?_⟩
  refine (itemsDecoded_of_symbols hahead []).append (.append ?_ ?_)
  · exact huses.2.mono fun _ _ hc => hc.append_left ahead
  · exact (itemsDecoded_of_symbols hbehind (ahead ++ uses)).mono fun _ _ hc => by rwa [List.append_assoc] at hc

/-- Where nothing is refused as members are set, no step fails. -/
theorem steady (h : Around ahead behind) (huses : ∀ x ∈ uses, ¬ Refusal x) :
    Guarded (fun before c => ¬ FailsAt before c) (ahead ++ (uses ++ behind)) := by
  refine .append (.of_mem fun _ x hx hf => (h.quiet x hx).2 hf.refusal) (.append ?_ ?_)
  · exact .of_mem fun _ x hx hf => huses x hx hf.refusal
  · exact (h.not_failsAt (ahead ++ uses)).mono fun _ _ hf => by rwa [List.append_assoc] at hf

theorem ok_iff (h : Around ahead behind) {want : List (Member × Value)} {set : Except StepError Unit}
    (hprogress : Progress layout want set uses) :
    set = .ok () ↔ Guarded (fun before c => ¬ FailsAt before c) (ahead ++ (uses ++ behind)) ∧
      ∀ text ∈ strings want, 0 ∉ text := by
  cases hprogress with
  | whole hwhole hl => exact iff_of_true rfl ⟨h.steady hl, hwhole.safe⟩
  | nul _ hnul =>
    obtain ⟨text, htext, hzero⟩ := hnul
    exact iff_of_false nofun fun ⟨_, hsafe⟩ => hsafe text htext hzero
  | @failed e l₁ l₂ c _ hc =>
    refine iff_of_false nofun fun ⟨hsteady, _⟩ => ?_
    exact hsteady (ahead ++ l₁) c (l₂ ++ behind) (by simp) (hc.append_left ahead)

/-- A step that fails is followed by nothing of the sequence. -/
theorem stops (h : Around ahead behind) {want : List (Member × Value)} {set : Except StepError Unit}
    (hprogress : Progress layout want set uses) (hbehind : set ≠ .ok () → ∀ x ∈ behind, Quiet x)
    {before rest : List Exchange} {c : Exchange} (heq : ahead ++ (uses ++ behind) = before ++ c :: rest)
    (hc : FailsAt before c) : ∀ x ∈ rest, x.1.symbol ∉ Symbol.sequence := by
  cases hprogress with
  | whole _ hl | nul _ _ hl => exact absurd hc (h.steady hl before c rest heq)
  | @failed e l₁ l₂ c' _ _ h₁ h₂ =>
    have hahead : ∀ x ∈ ahead ++ l₁, ¬ Refusal x := List.forall_mem_append.2 ⟨fun x hx => (h.quiet x hx).2, h₁⟩
    have hquiet : ∀ x ∈ l₂ ++ behind, Quiet x := List.forall_mem_append.2 ⟨h₂, hbehind nofun⟩
    have hplace : (ahead ++ l₁) ++ c' :: (l₂ ++ behind) = before ++ c :: rest := by
      rw [← heq]
      simp
    -- nothing else is refused, so this is where the step fails
    obtain ⟨-, -, rfl⟩ := hc.unique hahead (fun x hx => (hquiet x hx).2) hplace
    exact fun x hx => (hquiet x hx).1

end Around

theorem Ending.around {pre config : PreConfig} {status : Status} {block block' : Block layout.size}
    {set : Except StepError Unit} {r : Except StartError Unit} {state : State} {tail : List Exchange}
    (h : Ending block' set r state tail) :
    Around (preInitCalls pre config status false ++ [⟨.configInitIsolated Block.zero, block⟩])
      (tail ++ [⟨.configClear block', ()⟩]) := by
  refine ⟨List.forall_mem_append.2 ⟨preInitCalls_quiet _ _ _, ?_⟩, List.forall_mem_append.2 ⟨h.symbols, ?_⟩,
    h.not_failsAt⟩
  · simp [Quiet, Refusal, Call.symbol, Symbol.sequence, Symbol.setters]
  · simp [Call.symbol, Symbol.setters]

theorem InOrder.of_populated {s : Settings} {b b' : Block layout.size} {set : Except StepError Unit}
    {r : Except StartError Unit} {ahead uses behind : List Exchange} {pre : PreConfig} {status : Status}
    (h : Around ahead behind) (hbegins : preInitCalls pre (adjustPreConfig s pre) status false <+: ahead)
    (hpopulated : Populated layout b (assignments s) set b' uses)
    (hok : set = .ok () → times .initializeFromConfig behind = 1)
    (herror : set ≠ .ok () → (∀ x ∈ behind, Quiet x) ∧ ∃ e, r = .error e) :
    InOrder layout s .uninitialized r (ahead ++ (uses ++ behind)) := by
  have hprogress : Progress layout (wanted s) set uses := filterMap_wanted? s ▸ hpopulated.progress
  have hcalls : setterCalls (ahead ++ (uses ++ behind)) = setterCalls uses := h.setterCalls_eq
  have hhanded : handed (ahead ++ (uses ++ behind)) = handed uses := h.handed_eq
  have htimes := h.times_eq hpopulated.symbols
  have hstuck : set ≠ .ok () → times .initializeFromConfig behind = 0 := fun hset =>
    times_eq_zero fun x hx heq => ((herror hset).1 x hx).1 (heq ▸ by decide)
  have hcompleted : Completed layout s (ahead ++ (uses ++ behind)) ↔ set = .ok () := by
    rw [Completed, hcalls, htimes, map_offset?_wanted]
    constructor
    · rintro ⟨-, hone⟩
      by_contra hset
      rw [hstuck hset] at hone
      cases hone
    · rintro rfl
      cases hprogress with
      | whole h => exact ⟨congrArg _ h.calls, hok rfl⟩
  exact {
    begins := fun _ => ⟨pre, status, false, hbegins.trans (List.prefix_append _ _)⟩
    idle := fun h => absurd rfl h
    in_order := by
      rw [hcalls, map_offset?_wanted]
      exact hprogress.begun.calls.map _
    handed_in_order := hhanded ▸ hprogress.begun.texts
    handed_safe := hhanded ▸ hprogress.begun.safe
    decoded := (h.checked hpopulated.checked).2
    checked := (h.checked hpopulated.checked).1
    refused := by
      intro pre' config' status' hpre
      obtain ⟨first, rfl⟩ := hbegins
      rw [List.append_assoc] at hpre
      cases preInitCalls_inj hpre
    completed_iff := fun _ _ _ _ => hcompleted.trans (h.ok_iff hprogress)
    stops := fun _ _ _ heq hc => h.stops hprogress (fun hset => (herror hset).1) heq hc
    not_completed := by
      intro _ _ _ _ hnot
      rw [hcompleted] at hnot
      exact ⟨htimes.trans (hstuck hnot), (herror hnot).2⟩ }

theorem InOrder.of_refused {s : Settings} {pre : PreConfig} {status : Status} {e : StartError} :
    InOrder layout s .uninitialized (.error e) (preInitCalls pre (adjustPreConfig s pre) status true) := by
  have hsymbols : ∀ x ∈ preInitCalls pre (adjustPreConfig s pre) status true,
      x.1.symbol ∉ .decodeLocale :: Symbol.setters := by
    simp [preInitCalls, Call.symbol, Symbol.setters]
  have hsetters : ∀ x ∈ preInitCalls pre (adjustPreConfig s pre) status true, x.1.symbol ∉ Symbol.setters :=
    fun x hx hs => hsymbols x hx (List.mem_cons_of_mem _ hs)
  have hcalls := setterCalls_eq_nil hsetters
  have hhanded := handed_eq_nil hsymbols
  have hpassed : ∀ pre' config' status', ¬ preInitCalls pre' config' status' false <+:
      preInitCalls pre (adjustPreConfig s pre) status true := by
    intro pre' config' status' h
    cases preInitCalls_inj (l := []) h
  have hsteady : Guarded (fun before c => ¬ FailsAt before c)
      (preInitCalls pre (adjustPreConfig s pre) status true) := by
    refine .cons (not_failsAt_of_not_refusal ?_ _) (.cons (not_failsAt_of_not_refusal ?_ _) (.cons ?_ .nil))
    · simp [Refusal]
    · simp [Refusal]
    · intro h
      cases FailsAt.status_of_snoc (l := [_]) h
  exact {
    begins := fun _ => ⟨pre, status, true, List.prefix_refl _⟩
    idle := fun h => absurd rfl h
    in_order := by rw [hcalls]; exact List.nil_prefix
    handed_in_order := by rw [hhanded]; exact List.nil_prefix
    handed_safe := by rw [hhanded]; exact List.forall_mem_nil _
    decoded := itemsDecoded_of_symbols hsetters []
    checked := .of_symbols hsetters
    refused := fun _ _ _ _ => ⟨hcalls, _, rfl⟩
    completed_iff := fun _ _ _ h => absurd h (hpassed _ _ _)
    stops := fun before c behind heq hc => absurd hc (hsteady before c behind heq)
    not_completed := fun _ _ _ h => absurd h (hpassed _ _ _) }

theorem InOrder.of_idle {s : Settings} {state : State} (h : state ≠ .uninitialized) :
    InOrder layout s state (.error (.wrongState state)) [] where
  begins hstate := absurd hstate h
  idle _ := ⟨rfl, rfl⟩
  in_order := List.nil_prefix
  handed_in_order := List.nil_prefix
  handed_safe := List.forall_mem_nil _
  decoded := .nil
  checked := .nil
  refused _ _ _ hpre := absurd (List.prefix_nil.1 hpre) (List.cons_ne_nil _ _)
  completed_iff _ _ _ hpre := absurd (List.prefix_nil.1 hpre) (List.cons_ne_nil _ _)
  stops _ _ _ heq := absurd heq.symm (by simp)
  not_completed _ _ _ hpre := absurd (List.prefix_nil.1 hpre) (List.cons_ne_nil _ _)

theorem Started.inOrder {version : Version} {s : Settings} {r : Except StartError Unit} {state : State}
    {l : List Exchange} (h : Started version s r state l)
    (hlayout : Layout.select version s.freeThreaded = .ok layout) : InOrder layout s .uninitialized r l := by
  cases h with
  | refused => exact .of_refused
  | noLayout hlayout' =>
    rw [hlayout] at hlayout'
    cases hlayout'
  | configured hlayout' hpopulated hending =>
    cases hlayout.symm.trans hlayout'
    rw [List.append_cons]
    refine .of_populated hending.around (List.prefix_append _ _) hpopulated (fun hset => ?_) fun hset => ?_
    · subst hset
      cases hending <;> simp [Call.symbol]
    · cases hending with
      | stuck e => exact ⟨by simp [Quiet, Refusal, Call.symbol, Symbol.sequence, Symbol.setters], _, rfl⟩
      | failed | running => exact absurd rfl hset

/-- Whatever the interpreter replies and whatever was done before, a start keeps to the order. -/
theorem start_keeps_order (s : Settings) {life : Lifecycle} (hrecord : life.record? = none)
    (hlayout : Layout.select life.library.version s.freeThreaded = .ok layout) :
    Stage (Lifecycle.start s) life fun r _ l => InOrder layout s life.state r l := by
  refine (Operation.run_over (.start s) hrecord).mono fun r life' l h => ?_
  cases h with
  | started hstate h =>
    rw [hstate]
    exact h.inOrder hlayout
  | refused hstate => exact .of_idle hstate

/-- Settings with an item in every list but one. -/
def sampleSettings : Settings where
  programName := Bytes.ofString "/opt/app/app"
  home := Bytes.ofString "/opt/app/_internal"
  searchPaths := [Bytes.ofString "/opt/app/_internal"]
  argv := [Bytes.ofString "/opt/app/app", [0xff, 0xfe]]
  options := { warnOptions := ["error"] }
  freeThreaded := false
  cLocale := true

/-- An interpreter of 3.12 that fails in nothing. -/
def sampleLibrary : Library where
  path := Bytes.ofString "/opt/app/_internal/libpython3.12.so"
  version := .ofNumbers 3 12
  address _ := 0
  run t _ c := Script.reply { rules := [], preConfig := default, fill := 0, pending := false } t c

theorem start_keeps_order_sample : (Lifecycle.new sampleLibrary).record? = none ∧
    Layout.select (Lifecycle.new sampleLibrary).library.version sampleSettings.freeThreaded = .ok .v312 ∧
      Stage (Lifecycle.start sampleSettings) (.new sampleLibrary) fun r _ l =>
        InOrder .v312 sampleSettings .uninitialized r l :=
  ⟨rfl, rfl, start_keeps_order sampleSettings rfl rfl⟩

end FrozenApp.Startup
