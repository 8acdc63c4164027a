import FrozenApp.Proofs.Startup.Laws
/-!
# Decoded strings are given back

The interpreter allocates the strings that it decodes, and whoever has them decoded has
to give them back. `unfreed` follows them from call to call. `Returned` says that the
setter of a list finds its own strings and no others, that no other call which sets a
member or starts the interpreter finds any, and that each of them is given back once.
Setting one list keeps to it (`ListSet.returned`), so that a start does
(`strings_returned`).
-/

namespace FrozenApp.Interpreter

/-- The functions that decoded strings go through. -/
def Symbol.decoding : List Symbol := [.decodeLocale, .configSetWideStringList, .rawFree]

end FrozenApp.Interpreter

namespace FrozenApp.Startup

open Config (Block Layout)
open Interpreter

/-! ## Strings in hand -/

/-- The string that a call decodes. -/
def decoded? : Exchange → Option WideString
  | ⟨.decodeLocale text, some address⟩ => some ⟨address, text⟩
  | _ => none

/-- The address that a call frees. -/
def freed? (x : Exchange) : Option Nat :=
  match x.1 with
  | .rawFree address => some address
  | _ => none

/-- What is left of decoded strings behind one more call. A call that frees an address
frees one string there. -/
def keep (strings : List WideString) (x : Exchange) : List WideString :=
  match freed? x with
  | some address => strings.eraseP (·.address = address)
  | none => strings ++ (decoded? x).toList

/-- The strings that calls have decoded and not freed, in order. -/
def unfreed (l : List Exchange) : List WideString :=
  l.foldl keep []

/-- What a call finds of the strings that are decoded and not freed. -/
structure Finds (strings : List WideString) (c : Exchange) : Prop where
  /-- The setter of a list finds the strings of this list. -/
  list : ∀ (size : Nat) (block : Block size) (offset : Nat) (items : List WideString),
    c.1 = .configSetWideStringList block offset items → strings = items
  /-- The setters of a string and what starts the interpreter find none. -/
  other : c.1.symbol ∈ [.configSetBytesString, .configSetString, .initializeFromConfig] → strings = []
  /-- Only what has been decoded is freed. -/
  freed : ∀ address, c.1 = .rawFree address → ∃ s ∈ strings, s.address = address

/-- Each decoded string is given back once, and no other call finds it than the setter it
is for. -/
structure Returned (l : List Exchange) : Prop where
  finds : Guarded (fun before c => Finds (unfreed before) c) l
  unfreed : unfreed l = []
  /-- What is freed are the strings that were decoded, in the same order. -/
  freed : l.filterMap freed? = (l.filterMap decoded?).map (·.address)

theorem unfreed_append (l l' : List Exchange) : unfreed (l ++ l') = l'.foldl keep (unfreed l) :=
  List.foldl_append

theorem unfreed_snoc (l : List Exchange) (x : Exchange) : unfreed (l ++ [x]) = keep (unfreed l) x :=
  unfreed_append l [x]

theorem freed?_eq_none {x : Exchange} (h : x.1.symbol ≠ .rawFree) : freed? x = none := by
  obtain ⟨c, reply⟩ := x
  cases c <;> first | rfl | exact absurd rfl h

theorem decoded?_eq_none {x : Exchange} (h : x.1.symbol ≠ .decodeLocale) : decoded? x = none := by
  obtain ⟨c, reply⟩ := x
  cases c <;> first | rfl | exact absurd rfl h

/-- A call that has to do with neither decoding nor freeing. -/
def IsApart (x : Exchange) : Prop :=
  freed? x = none ∧ decoded? x = none

theorem keep_of_isApart {x : Exchange} (h : IsApart x) (strings : List WideString) : keep strings x = strings := by
  rw [keep, h.1, h.2]
  exact List.append_nil strings

theorem Finds.of_symbol {c : Exchange}
    (h : c.1.symbol ∉ [Symbol.configSetWideStringList, .configSetBytesString, .configSetString, .initializeFromConfig, .rawFree])
    (strings : List WideString) : Finds strings c := by
  refine ⟨?_, fun hc => absurd ?_ h, ?_⟩
  · intro size block offset items hc
    rw [hc] at h
    exact absurd (List.mem_cons_self ..) h
  · exact List.mem_cons_of_mem _ (List.mem_append_left [Symbol.rawFree] hc)
  · intro address hc
    rw [hc] at h
    exact absurd (by decide : Symbol.rawFree ∈ _) h

/-- Where no string is in hand, only what frees one or sets a list can go wrong. -/
theorem Finds.nil {c : Exchange} (h : c.1.symbol ∉ Symbol.decoding) : Finds [] c := by
  refine ⟨?_, fun _ => rfl, ?_⟩
  · intro size block offset items hc
    rw [hc] at h
    exact absurd (by decide : Symbol.configSetWideStringList ∈ Symbol.decoding) h
  · intro address hc
    rw [hc] at h
    exact absurd (by decide : Symbol.rawFree ∈ Symbol.decoding) h

/-! ## Calls one behind the other -/

theorem Returned.nil : Returned [] :=
  ⟨.nil, rfl, rfl⟩

theorem Returned.append {l l' : List Exchange} (h : Returned l) (h' : Returned l') : Returned (l ++ l') where
  finds := by
    refine h.finds.append (h'.finds.mono fun before c hc => ?_)
    rw [unfreed_append, h.unfreed]
    exact hc
  unfreed := by
    rw [unfreed_append, h.unfreed]
    exact h'.unfreed
  freed := by
    rw [List.filterMap_append, List.filterMap_append, List.map_append, h.freed, h'.freed]

theorem Returned.of_symbols {l : List Exchange} (h : ∀ x ∈ l, x.1.symbol ∉ Symbol.decoding) : Returned l := by
  induction l with
  | nil => exact .nil
  | cons x l ih =>
    obtain ⟨hx, hl⟩ := List.forall_mem_cons.1 h
    have hapart : IsApart x :=
      ⟨freed?_eq_none fun heq => hx (heq ▸ by decide), decoded?_eq_none fun heq => hx (heq ▸ by decide)⟩
    have hfirst : Returned [x] :=
      ⟨.cons (.nil hx) .nil, keep_of_isApart hapart [], by simp [hapart.1, hapart.2]⟩
    exact hfirst.append (ih hl)

/-! ## One list -/

/-- Calls that are apart leave what is in hand, and find it. -/
theorem finds_of_isApart {l l' : List Exchange} (hapart : ∀ x ∈ l', IsApart x)
    (hfinds : ∀ x ∈ l', Finds (unfreed l) x) :
    Guarded (fun before c => Finds (unfreed (l ++ before)) c) l' ∧ unfreed (l ++ l') = unfreed l := by
  induction l' generalizing l with
  | nil => exact ⟨.nil, by rw [List.append_nil]⟩
  | cons x l' ih =>
    obtain ⟨hx, hapart⟩ := List.forall_mem_cons.1 hapart
    obtain ⟨hfirst, hfinds⟩ := List.forall_mem_cons.1 hfinds
    have hkeep : unfreed (l ++ [x]) = unfreed l := by rw [unfreed_snoc, keep_of_isApart hx]
    obtain ⟨hguarded, hunfreed⟩ := ih (l := l ++ [x]) hapart (by rwa [hkeep])
    rw [← List.append_cons] at hunfreed
    refine ⟨.cons ?_ (hguarded.mono fun before c hc => ?_), hunfreed.trans hkeep⟩
    · rwa [List.append_nil]
    · rwa [← List.append_cons] at hc

/-- Decoded strings are freed one by one, the first of them first. -/
theorem finds_freeing {l : List Exchange} {strings : List WideString} (h : unfreed l = strings) :
    Guarded (fun before c => Finds (unfreed (l ++ before)) c) (freeing strings) ∧ unfreed (l ++ freeing strings) = [] := by
  induction strings generalizing l with
  | nil => exact ⟨.nil, by rw [freeing, List.map_nil, List.append_nil, h]⟩
  | cons s strings ih =>
    have hkeep : unfreed (l ++ [⟨.rawFree s.address, ()⟩]) = strings := by
      rw [unfreed_snoc, h]
      simp [keep, freed?]
    obtain ⟨hguarded, hunfreed⟩ := ih hkeep
    rw [← List.append_cons] at hunfreed
    refine ⟨.cons ?_ (hguarded.mono fun before c hc => ?_), hunfreed⟩
    · rw [List.append_nil, h]
      refine ⟨?_, fun hc => absurd hc (by simp [Call.symbol]), ?_⟩
      · rintro _ _ _ _ ⟨⟩
      · rintro address ⟨⟩
        exact ⟨s, List.mem_cons_self .., rfl⟩
    · rwa [← List.append_cons] at hc

theorem Decoded.unfreed_eq {step : String} {values : List Bytes} {strings : List WideString} {failure : Option StepError}
    {l : List Exchange} (h : Decoded step values strings failure l) (held : List WideString) :
    l.foldl keep held = held ++ strings := by
  induction h generalizing held with
  | nil | nul => exact (List.append_nil held).symm
  | undecodable => simp [keep, freed?, decoded?]
  | cons address _ _ ih =>
    rw [List.foldl_cons, ih]
    simp [keep, freed?, decoded?]

theorem Decoded.filterMap_decoded? {step : String} {values : List Bytes} {strings : List WideString}
    {failure : Option StepError} {l : List Exchange} (h : Decoded step values strings failure l) :
    l.filterMap decoded? = strings := by
  induction h with
  | nil | nul | undecodable => rfl
  | cons address _ _ ih =>
    exact congrArg _ ih

/-- Strings are decoded, something else is done with them, and they are freed. -/
theorem Decoded.returned {step : String} {values : List Bytes} {strings : List WideString} {failure : Option StepError}
    {l between : List Exchange} (h : Decoded step values strings failure l) (hapart : ∀ x ∈ between, IsApart x)
    (hfinds : ∀ x ∈ between, Finds strings x) : Returned (l ++ (between ++ freeing strings)) := by
  have hdecoded : unfreed l = strings := h.unfreed_eq []
  have hsymbols := h.symbols
  have hguarded : Guarded (fun before c => Finds (unfreed before) c) l :=
    .of_mem fun _ x hx => .of_symbol (by rw [hsymbols x hx]; decide) _
  obtain ⟨hbetween, hunfreed⟩ := finds_of_isApart (l := l) hapart (by rwa [hdecoded])
  obtain ⟨hfreeing, hnone⟩ := finds_freeing (hunfreed.trans hdecoded)
  refine ⟨hguarded.append (hbetween.append (hfreeing.mono fun before c hc => ?_)), ?_, ?_⟩
  · rwa [List.append_assoc] at hc
  · rwa [← List.append_assoc]
  · have hfreed : l.filterMap freed? = [] :=
      List.filterMap_eq_nil_iff.2 fun x hx => freed?_eq_none (by rw [hsymbols x hx]; decide)
    have hnotFreed : between.filterMap freed? = [] := List.filterMap_eq_nil_iff.2 fun x hx => (hapart x hx).1
    have hnotDecoded : between.filterMap decoded? = [] := List.filterMap_eq_nil_iff.2 fun x hx => (hapart x hx).2
    simp only [List.filterMap_append, hfreed, hnotFreed, hnotDecoded, h.filterMap_decoded?]
    simp [freeing, freed?, decoded?, Function.comp_def]

theorem ListSet.returned {size : Nat} {b b' : Block size} {offset : Nat} {values : List Bytes} {step : String}
    {r : Except StepError Unit} {l : List Exchange} (h : ListSet b offset values step r b' l) : Returned l := by
  cases h with
  | undecoded hdecoded => exact hdecoded.returned (List.forall_mem_nil _) (List.forall_mem_nil _)
  | @set strings l _ status refused hdecoded =>
    have hcheck : Finds strings ⟨.statusException status, refused⟩ :=
      .of_symbol (show Symbol.statusException ∉ _ by decide) strings
    have hset : Finds strings ⟨.configSetWideStringList b offset strings, (status, b')⟩ := by
      refine ⟨?_, ?_, nofun⟩
      · rintro _ _ _ _ ⟨⟩
        rfl
      · exact fun hc => absurd hc (show Symbol.configSetWideStringList ∉ _ by decide)
    have hapart : ∀ x ∈ [(⟨.configSetWideStringList b offset strings, (status, b')⟩ : Exchange),
        ⟨.statusException status, refused⟩], IsApart x := by
      simp [IsApart, freed?, decoded?]
    exact hdecoded.returned hapart (List.forall_mem_cons.2 ⟨hset, List.forall_mem_singleton.2 hcheck⟩)

theorem ListSet.set_iff {size : Nat} {b b' : Block size} {offset : Nat} {values : List Bytes} {step : String}
    {r : Except StepError Unit} {l : List Exchange} (h : ListSet b offset values step r b' l) :
    (∃ x ∈ l, x.1.symbol = .configSetWideStringList) ↔
      (∀ value ∈ values, 0 ∉ value) ∧ ∀ value, ⟨.decodeLocale value, none⟩ ∉ l := by
  cases h with
  | @undecoded strings e l hdecoded =>
    have hsymbols : ∀ x ∈ l ++ freeing strings, x.1.symbol ≠ .configSetWideStringList := by
      refine List.forall_mem_append.2 ⟨fun x hx => ?_, by simp [freeing, Call.symbol]⟩
      rw [hdecoded.symbols x hx]
      decide
    refine iff_of_false ?_ ?_
    · rintro ⟨x, hx, hset⟩
      exact hsymbols x hx hset
    · rintro ⟨hsafe, hdecodes⟩
      obtain ⟨value, rest, rfl, -, ⟨hnul, -⟩ | ⟨-, rfl⟩⟩ := hdecoded.of_some
      · exact hsafe value (by simp) hnul
      · exact hdecodes value (by simp)
  | set _ status refused hdecoded =>
    obtain ⟨-, hsafe, rfl⟩ := hdecoded.of_none
    refine iff_of_true ⟨_, List.mem_append_right _ (List.mem_cons_self ..), rfl⟩ ⟨hsafe, fun value => ?_⟩
    simp [decodings, freeing]

/-! ## A start -/

variable {layout : Layout}

theorem Assigned.returned {b b' : Block layout.size} {a : Assignment} {r : Except StepError Unit} {l : List Exchange}
    (h : Assigned layout b a r b' l) : Returned l := by
  cases h with
  | int | unsignedLong | nul => exact .nil
  | string next status refused => exact .of_symbols (by simp [Call.symbol, Symbol.decoding])
  | @undecoded m _ _ _ _ _ hdecoded =>
    have hset : ListSet b (layout.offset m) _ _ _ b _ := .undecoded hdecoded
    exact hset.returned
  | stringList _ status refused hdecoded => exact (ListSet.set _ status refused hdecoded).returned

theorem Populated.returned {b b' : Block layout.size} {as : List Assignment} {r : Except StepError Unit}
    {l : List Exchange} (h : Populated layout b as r b' l) : Returned l := by
  induction h with
  | nil => exact .nil
  | cons h _ ih => exact h.returned.append ih
  | stopped h => exact h.returned

theorem Started.returned {version : Version} {s : Settings} {r : Except StartError Unit} {state : State}
    {l : List Exchange} (h : Started version s r state l) : Returned l := by
  have hdisjoint : ∀ f ∈ [Symbol.preConfigInitIsolated, .preInitialize, .statusException], f ∉ Symbol.decoding := by
    decide
  have hpre : ∀ pre config status refused, Returned (preInitCalls pre config status refused) := fun _ _ _ _ =>
    .of_symbols fun _ hx => hdisjoint _ (preInitCalls_symbols hx)
  cases h with
  | refused | noLayout => exact hpre _ _ _ _
  | @configured pre status layout b b' set uses tail _ _ _ hpopulated hending =>
    have htail : Returned (tail ++ [⟨.configClear b', ()⟩]) :=
      .of_symbols (by cases hending <;> simp [Call.symbol, Symbol.decoding])
    have hfilled : Returned [⟨.configInitIsolated Block.zero, b⟩] := .of_symbols (by simp [Call.symbol, Symbol.decoding])
    exact (hpre _ _ _ _).append (hfilled.append (hpopulated.returned.append htail))

/-- Whatever the interpreter replies, setting a list gives every string back that has been
decoded for it, and a start in any life does so: each setter and the interpreter at its
start find the strings that they are given, and no others. -/
theorem strings_returned (lib : Library) :
    (∀ (size : Nat) (b : Block size) (offset : Nat) (values : List Bytes) (step : String),
      Stage (setStringList lib offset values step) b fun r b' l =>
        ListSet b offset values step r b' l ∧ Returned l ∧
          ((∃ x ∈ l, x.1.symbol = .configSetWideStringList) ↔
            (∀ value ∈ values, 0 ∉ value) ∧ ∀ value, ⟨.decodeLocale value, none⟩ ∉ l)) ∧
    ∀ (t : Trace) (ops : List Operation) (s : Settings),
      Stage (Lifecycle.start s) (after lib t ops).1 fun _ _ l => Returned l := by
  constructor
  · intro size b offset values step
    exact (setStringList_stage lib b offset values step).mono fun r b' l h => ⟨h, h.returned, h.set_iff⟩
  · intro t ops s
    obtain ⟨_, -, hreached⟩ := after_reached lib t ops
    refine (Operation.run_over (.start s) hreached.record?).mono fun r life l h => ?_
    cases h with
    | started _ h => exact h.returned
    | refused => exact .nil

end FrozenApp.Startup
