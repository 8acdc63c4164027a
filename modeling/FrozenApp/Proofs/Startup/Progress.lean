import FrozenApp.Proofs.Startup.Laws
/-!
# How far a start comes with its settings

The settings ask for members to be set, in an order of their own (`wanted`).
`Progress` says how far calls come with such a list: through all of it, or up to a
string with a NUL, or up to a call that fails. Each assignment comes so far with what it
sets (`Assigned.progress`), and assignments one behind the other add up (`Populated.progress`).
-/

namespace FrozenApp.Startup

open Config (Block Layout Member)
open Interpreter

/-! ## What is to be set -/

/-- What a setter is given. -/
inductive Value where
  | string (text : Bytes)
  | wideString (text : Bytes)
  | stringList (texts : List Bytes)
  deriving Repr, DecidableEq

/-- The strings in a value. -/
def Value.texts : Value → List Bytes
  | string text | wideString text => [text]
  | stringList texts => texts

/-- The members that setters set for the settings, in order. Warning options and
extended options are set only where there are any. -/
def wanted (s : Settings) : List (Member × Value) :=
  [(.programName, .string s.programName), (.home, .string s.home), (.moduleSearchPaths, .stringList s.searchPaths),
    (.argv, .stringList s.argv)] ++
  (if s.options.warnOptions = [] then []
    else [(.warnoptions, .stringList (s.options.warnOptions.map Bytes.ofString))]) ++
  if s.options.xOptions = [] then [] else [(.xoptions, .stringList (s.options.xOptions.map Bytes.ofString))]

/-- The strings in a list of values, in order. -/
def strings (want : List (Member × Value)) : List Bytes :=
  want.flatMap (·.2.texts)

/-- What an assignment sets through a setter. -/
def Assignment.wanted? : Assignment → Option (Member × Value)
  | string m value _ => some (m, .string value)
  | stringList m values _ => some (m, .stringList values)
  | int .. | unsignedLong .. => none

theorem filterMap_wanted? (s : Settings) : (assignments s).filterMap Assignment.wanted? = wanted s := by
  simp only [assignments, plainAssignments, listAssignments, wanted]
  cases s.options.hashSeed <;> cases s.options.warnOptions <;> cases s.options.xOptions <;> rfl

/-- Each layout has the members that setters set. -/
theorem offset?_of_mem_wanted (layout : Layout) {s : Settings} {m : Member} {value : Value} (h : (m, value) ∈ wanted s) :
    layout.offset? m = some (layout.offset m) := by
  have hall : ∀ layout : Layout, ∀ m ∈ [Member.programName, .home, .moduleSearchPaths, .argv, .warnoptions, .xoptions],
      layout.offset? m = some (layout.offset m) := by
    intro layout
    cases layout <;> decide +kernel
  refine hall layout m ?_
  have hmembers : (wanted s).map Prod.fst ⊆
      [.programName, .home, .moduleSearchPaths, .argv, .warnoptions, .xoptions] := by
    rw [wanted]
    split <;> split <;> simp
  exact hmembers (List.mem_map_of_mem h)

/-! ## What is called -/

/-- The offset that a setter is called with, and what it is given. -/
def setter? (x : Exchange) : Option (Nat × Value) :=
  match x.1 with
  | .configSetBytesString _ offset text => some (offset, .string text)
  | .configSetString _ offset text => some (offset, .wideString text)
  | .configSetWideStringList _ offset items => some (offset, .stringList (items.map (·.text)))
  | _ => none

/-- The outcome that a setter reports. -/
def setterStatus? : Exchange → Option Status
  | ⟨.configSetBytesString _ _ _, reply⟩ => some reply.1
  | ⟨.configSetString _ _ _, reply⟩ => some reply.1
  | ⟨.configSetWideStringList _ _ _, reply⟩ => some reply.1
  | _ => none

/-- The string that is handed over to be set or to be decoded. -/
def handed? (x : Exchange) : Option Bytes :=
  match x.1 with
  | .configSetBytesString _ _ text | .configSetString _ _ text | .decodeLocale text => some text
  | _ => none

/-- The setters that are called, in order. -/
def setterCalls (l : List Exchange) : List (Nat × Value) :=
  l.filterMap setter?

/-- The strings that are handed over, in order. -/
def handed (l : List Exchange) : List Bytes :=
  l.filterMap handed?

@[simp]
theorem setterCalls_append (l l' : List Exchange) : setterCalls (l ++ l') = setterCalls l ++ setterCalls l' :=
  List.filterMap_append

@[simp]
theorem handed_append (l l' : List Exchange) : handed (l ++ l') = handed l ++ handed l' :=
  List.filterMap_append

@[simp]
theorem setterCalls_cons (x : Exchange) (l : List Exchange) :
    setterCalls (x :: l) = (setter? x).toList ++ setterCalls l :=
  filterMap_cons_toList setter? x l

@[simp]
theorem handed_cons (x : Exchange) (l : List Exchange) : handed (x :: l) = (handed? x).toList ++ handed l :=
  filterMap_cons_toList handed? x l

@[simp]
theorem setterCalls_nil : setterCalls [] = [] := rfl

@[simp]
theorem handed_nil : handed [] = [] := rfl

@[simp]
theorem setterCalls_decodings (items : List WideString) : setterCalls (decodings items) = [] := by
  simp [setterCalls, decodings, setter?]

@[simp]
theorem handed_decodings (items : List WideString) : handed (decodings items) = items.map (·.text) := by
  simp [handed, decodings, handed?, Function.comp_def]

@[simp]
theorem setterCalls_freeing (items : List WideString) : setterCalls (freeing items) = [] := by
  simp [setterCalls, freeing, setter?]

@[simp]
theorem handed_freeing (items : List WideString) : handed (freeing items) = [] := by
  simp [handed, freeing, handed?]

/-- The interpreter cannot decode a string, or takes an outcome for an exception. -/
def Refusal (x : Exchange) : Prop :=
  (∃ value, x = ⟨.decodeLocale value, none⟩) ∨ ∃ status, x = ⟨.statusException status, true⟩

/-- A call that has no part in the sequence and refuses nothing. -/
def Quiet (x : Exchange) : Prop :=
  x.1.symbol ∉ Symbol.sequence ∧ ¬ Refusal x

/-- A step fails with the call `c`: the interpreter cannot decode a string, or takes
the outcome of the setter called right ahead of it for an exception. -/
inductive FailsAt : List Exchange → Exchange → Prop
  | undecodable {before} (value : Bytes) : FailsAt before ⟨.decodeLocale value, none⟩
  | rejected {before x status} (hx : setterStatus? x = some status) :
      FailsAt (before ++ [x]) ⟨.statusException status, true⟩

theorem FailsAt.refusal {before : List Exchange} {c : Exchange} (h : FailsAt before c) : Refusal c := by
  cases h with
  | undecodable value => exact .inl ⟨value, rfl⟩
  | rejected => exact .inr ⟨_, rfl⟩

theorem not_failsAt_of_not_refusal {x : Exchange} (hx : ¬ Refusal x) (before : List Exchange) : ¬ FailsAt before x :=
  fun h => hx h.refusal

theorem FailsAt.append_left {before : List Exchange} {c : Exchange} (h : FailsAt before c) (l : List Exchange) :
    FailsAt (l ++ before) c := by
  cases h with
  | undecodable value => exact .undecodable value
  | rejected hx =>
    rw [← List.append_assoc]
    exact .rejected hx

/-- Where one call alone refuses anything, no step fails anywhere else. -/
theorem FailsAt.unique {l₁ l₂ before behind : List Exchange} {c c' : Exchange} (h : FailsAt before c)
    (h₁ : ∀ x ∈ l₁, ¬ Refusal x) (h₂ : ∀ x ∈ l₂, ¬ Refusal x) (heq : l₁ ++ c' :: l₂ = before ++ c :: behind) :
    before = l₁ ∧ c = c' ∧ behind = l₂ := by
  have hplace := (List.append_cons_inj_of_notMem (fun hc => h₁ c hc h.refusal) fun hc => h₂ c hc h.refusal).1 heq
  exact ⟨hplace.1.symm, hplace.2.1.symm, hplace.2.2.symm⟩

/-! ## How far assignments come -/

@[simp]
theorem strings_append (want want' : List (Member × Value)) : strings (want ++ want') = strings want ++ strings want' :=
  List.flatMap_append

theorem strings_singleton (m : Member) (value : Value) : strings [(m, value)] = value.texts :=
  List.flatMap_singleton ..

/-- Calls begin with what is wanted, and hand over no string with a NUL. -/
structure Begun (layout : Layout) (want : List (Member × Value)) (l : List Exchange) : Prop where
  calls : setterCalls l <+: want.map (Prod.map layout.offset id)
  texts : handed l <+: strings want
  safe : ∀ text ∈ handed l, 0 ∉ text

/-- Calls go through all that is wanted. -/
structure Whole (layout : Layout) (want : List (Member × Value)) (l : List Exchange) : Prop where
  calls : setterCalls l = want.map (Prod.map layout.offset id)
  texts : handed l = strings want
  safe : ∀ text ∈ strings want, 0 ∉ text

section

variable {layout : Layout} {want want' : List (Member × Value)} {l l' : List Exchange}

theorem Whole.nothing : Whole layout [] [] :=
  ⟨rfl, rfl, List.forall_mem_nil _⟩

theorem Whole.begun (h : Whole layout want l) : Begun layout want l where
  calls := h.calls ▸ List.prefix_refl _
  texts := h.texts ▸ List.prefix_refl _
  safe := h.texts ▸ h.safe

theorem Whole.append (h : Whole layout want l) (h' : Whole layout want' l') :
    Whole layout (want ++ want') (l ++ l') where
  calls := by rw [setterCalls_append, h.calls, h'.calls, List.map_append]
  texts := by rw [handed_append, h.texts, h'.texts, strings_append]
  safe := by
    rw [strings_append]
    exact List.forall_mem_append.2 ⟨h.safe, h'.safe⟩

theorem Whole.append_begun (h : Whole layout want l) (h' : Begun layout want' l') :
    Begun layout (want ++ want') (l ++ l') where
  calls := by
    rw [setterCalls_append, h.calls, List.map_append, List.prefix_append_right_inj]
    exact h'.calls
  texts := by
    rw [handed_append, h.texts, strings_append, List.prefix_append_right_inj]
    exact h'.texts
  safe := by
    rw [handed_append, h.texts]
    exact List.forall_mem_append.2 ⟨h.safe, h'.safe⟩

theorem Begun.extend (h : Begun layout want l) (want' : List (Member × Value)) : Begun layout (want ++ want') l where
  calls := by
    rw [List.map_append]
    exact h.calls.trans (List.prefix_append _ _)
  texts := by
    rw [strings_append]
    exact h.texts.trans (List.prefix_append _ _)
  safe := h.safe

end

/-- How far calls come with what is wanted, where assignments have the outcome `r`. -/
inductive Progress (layout : Layout) (want : List (Member × Value)) : Except StepError Unit → List Exchange → Prop
  | whole {l : List Exchange} (h : Whole layout want l) (hl : ∀ x ∈ l, ¬ Refusal x) : Progress layout want (.ok ()) l
  /-- They come to a string with a NUL. -/
  | nul {e : StepError} {l : List Exchange} (h : Begun layout want l) (hnul : ∃ text ∈ strings want, 0 ∈ text)
      (hl : ∀ x ∈ l, ¬ Refusal x) : Progress layout want (.error e) l
  /-- They come to a call that fails. -/
  | failed {e : StepError} {l₁ l₂ : List Exchange} {c : Exchange} (h : Begun layout want (l₁ ++ c :: l₂))
      (hc : FailsAt l₁ c) (h₁ : ∀ x ∈ l₁, ¬ Refusal x) (h₂ : ∀ x ∈ l₂, Quiet x) :
      Progress layout want (.error e) (l₁ ++ c :: l₂)

variable {layout : Layout}

theorem Progress.nothing : Progress layout [] (.ok ()) [] :=
  .whole .nothing (List.forall_mem_nil _)

theorem Progress.begun {want : List (Member × Value)} {r : Except StepError Unit} {l : List Exchange}
    (h : Progress layout want r l) : Begun layout want l := by
  cases h with
  | whole h => exact h.begun
  | nul h | failed h => exact h

/-- What is wanted in full comes ahead of what else is wanted. -/
theorem Progress.append {want want' : List (Member × Value)} {r : Except StepError Unit} {l l' : List Exchange}
    (h : Progress layout want (.ok ()) l) (h' : Progress layout want' r l') :
    Progress layout (want ++ want') r (l ++ l') := by
  cases h with
  | whole h hl =>
    cases h' with
    | whole h' hl' => exact .whole (h.append h') (List.forall_mem_append.2 ⟨hl, hl'⟩)
    | nul h' hnul hl' =>
      obtain ⟨text, htext, hzero⟩ := hnul
      refine .nul (h.append_begun h') ⟨text, ?_, hzero⟩ (List.forall_mem_append.2 ⟨hl, hl'⟩)
      rw [strings_append]
      exact List.mem_append_right _ htext
    | failed h' hc h₁ h₂ =>
      have hbegun := h.append_begun h'
      rw [← List.append_assoc] at hbegun ⊢
      exact .failed hbegun (hc.append_left l) (List.forall_mem_append.2 ⟨hl, h₁⟩) h₂

/-- What stops ahead of the rest stops with it as well. -/
theorem Progress.extend {want : List (Member × Value)} {e : StepError} {l : List Exchange}
    (h : Progress layout want (.error e) l) (want' : List (Member × Value)) :
    Progress layout (want ++ want') (.error e) l := by
  cases h with
  | nul h hnul hl =>
    obtain ⟨text, htext, hzero⟩ := hnul
    refine .nul (h.extend want') ⟨text, ?_, hzero⟩ hl
    rw [strings_append]
    exact List.mem_append_left _ htext
  | failed h hc h₁ h₂ => exact .failed (h.extend want') hc h₁ h₂

theorem not_refusal_decodings (items : List WideString) : ∀ x ∈ decodings items, ¬ Refusal x := by
  simp [decodings, Refusal]

theorem freeing_quiet (items : List WideString) : ∀ x ∈ freeing items, Quiet x := by
  simp [freeing, Quiet, Refusal, Call.symbol, Symbol.sequence, Symbol.setters]

/-- An assignment comes as far as its string, or as far as the strings of its list. -/
theorem Assigned.progress {b b' : Block layout.size} {a : Assignment} {r : Except StepError Unit} {l : List Exchange}
    (h : Assigned layout b a r b' l) : Progress layout a.wanted?.toList r l := by
  cases h with
  | int | unsignedLong => exact .nothing
  | nul hnul => exact .nul (Whole.nothing.begun.extend _) ⟨_, List.mem_singleton_self _, hnul⟩ (List.forall_mem_nil _)
  | @string m value step next status refused hnul =>
    have hwhole : Whole layout [(m, .string value)]
        ([⟨.configSetBytesString b (layout.offset m) value, (status, b')⟩] ++ [⟨.statusException status, refused⟩]) :=
      ⟨rfl, rfl, List.forall_mem_singleton.2 hnul⟩
    cases refused with
    | false => exact .whole hwhole (by simp [Refusal])
    | true =>
      have hfails : FailsAt ([] ++ [⟨.configSetBytesString b (layout.offset m) value, (status, b')⟩])
          ⟨.statusException status, true⟩ := .rejected rfl
      exact .failed hwhole.begun hfails (by simp [Refusal]) (List.forall_mem_nil _)
  | @undecoded m values step items e l hdecoded =>
    obtain ⟨value, rest, rfl, hitems, hstop⟩ := hdecoded.of_some
    have hstrings : strings [(m, .stringList (items.map (·.text) ++ value :: rest))] =
        items.map (·.text) ++ value :: rest := strings_singleton _ _
    have hfreed : ∀ x ∈ freeing items, ¬ Refusal x := fun x hx => (freeing_quiet items x hx).2
    rcases hstop with ⟨hvalue, rfl⟩ | ⟨hvalue, rfl⟩
    · refine .nul ⟨by simp, ?_, by simpa using hitems⟩ ⟨value, ?_, hvalue⟩
        (List.forall_mem_append.2 ⟨not_refusal_decodings items, hfreed⟩)
      · simp [Assignment.wanted?, hstrings]
      · simp [Assignment.wanted?, hstrings]
    · rw [List.append_assoc]
      refine .failed ⟨?_, ?_, ?_⟩ (.undecodable value) (not_refusal_decodings items) (freeing_quiet items)
      · simp [setter?]
      · simp [handed?, Assignment.wanted?, hstrings]
      · simpa [handed?, or_imp, forall_and] using ⟨hitems, hvalue⟩
  | @stringList m values step items l next status refused hdecoded =>
    obtain ⟨rfl, hvalues, rfl⟩ := hdecoded.of_none
    rw [List.append_cons]
    have hwhole : Whole layout [(m, .stringList (items.map (·.text)))]
        (decodings items ++ [⟨.configSetWideStringList b (layout.offset m) items, (status, b')⟩] ++
          ⟨.statusException status, refused⟩ :: freeing items) := by
      refine ⟨?_, ?_, ?_⟩
      · simp [setter?]
      · simp [handed?, strings_singleton, Value.texts]
      · rw [strings_singleton]
        exact hvalues
    have hset : ∀ x ∈ decodings items ++ [⟨.configSetWideStringList b (layout.offset m) items, (status, b')⟩],
        ¬ Refusal x := List.forall_mem_append.2 ⟨not_refusal_decodings items, by simp [Refusal]⟩
    cases refused with
    | false =>
      refine .whole hwhole (List.forall_mem_append.2 ⟨hset, List.forall_mem_cons.2 ⟨by simp [Refusal], ?_⟩⟩)
      exact fun x hx => (freeing_quiet items x hx).2
    | true => exact .failed hwhole.begun (.rejected rfl) hset (freeing_quiet items)

theorem Populated.progress {b b' : Block layout.size} {as : List Assignment} {r : Except StepError Unit}
    {l : List Exchange} (h : Populated layout b as r b' l) : Progress layout (as.filterMap Assignment.wanted?) r l := by
  induction h with
  | nil => exact .nothing
  | cons h _ ih =>
    rw [filterMap_cons_toList]
    exact h.progress.append ih
  | stopped h =>
    rw [filterMap_cons_toList]
    exact h.progress.extend _

end FrozenApp.Startup
