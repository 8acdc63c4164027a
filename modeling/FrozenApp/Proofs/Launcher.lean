import FrozenApp.Launcher
import FrozenApp.Proofs.Text
import FrozenApp.Proofs.Utf8
/-!
# The variable that asks for more lines

A value of the variable is text or it is not. A text counts without the white space at
its ends, and then has to be one of ten spellings. `readDebug_exact` says what
every value comes to. One that is no text is not refused: it counts as if the variable
were unset (`readDebug_no_text`).
-/

namespace FrozenApp.Launcher

open Text

/-- The value is text, namely `inner` with white space around it or without. -/
def Reads (value? : Option Bytes) (inner : String) : Prop :=
  ∃ text, value? = some (Bytes.ofString text) ∧ Trimmed text inner

/-- There is a value, but it is no text. -/
def Unreadable (value? : Option Bytes) : Prop :=
  ∃ value, value? = some value ∧ ∀ text, value ≠ Bytes.ofString text

variable {value? : Option Bytes}

theorem reads_cases (value? : Option Bytes) :
    value? = none ∨ Unreadable value? ∨ ∃ inner, Reads value? inner := by
  cases value? with
  | none => exact .inl rfl
  | some value =>
    by_cases htext : ∃ text, value = Bytes.ofString text
    · obtain ⟨text, rfl⟩ := htext
      exact .inr (.inr ⟨trim text, text, rfl, trimmed_trim text⟩)
    · exact .inr (.inl ⟨value, rfl, not_exists.1 htext⟩)

/-! ## What a value comes to -/

theorem Reads.readDebug_eq {inner : String} (h : Reads value? inner) : readDebug value? =
    if inner ∈ onValues then .ok true else if inner ∈ offValues then .ok false else .error ⟨inner⟩ := by
  obtain ⟨text, rfl, htrimmed⟩ := h
  have hdecode : Utf8.decode (Bytes.ofString text) = .ok text := (Utf8.decode_eq_ok_iff _ _).2 rfl
  rw [trimmed_iff] at htrimmed
  rw [readDebug, Option.map_some, hdecode]
  simp only [htrimmed, List.contains_eq_mem, decide_eq_true_eq]

theorem Unreadable.readDebug_eq (h : Unreadable value?) : readDebug value? = .ok false := by
  obtain ⟨value, rfl, hnone⟩ := h
  rw [readDebug, Option.map_some]
  cases hdecode : Utf8.decode value with
  | error fault => rfl
  | ok text =>
    have htext := (Utf8.decode_eq_ok_iff _ _).1 hdecode
    exact absurd htext.symm (hnone text)

/-- No spelling means both. -/
theorem not_mem_offValues : ∀ inner ∈ onValues, inner ∉ offValues := by decide

theorem readDebug_eq_true_iff :
    readDebug value? = .ok true ↔ ∃ inner, Reads value? inner ∧ inner ∈ onValues := by
  constructor
  · intro h
    obtain rfl | hnone | ⟨inner, hreads⟩ := reads_cases value?
    · cases h
    · rw [hnone.readDebug_eq] at h
      cases h
    · rw [hreads.readDebug_eq] at h
      split at h
      next hon => exact ⟨inner, hreads, hon⟩
      split at h <;> cases h
  · rintro ⟨inner, hreads, hon⟩
    rw [hreads.readDebug_eq, if_pos hon]

theorem readDebug_eq_false_iff : readDebug value? = .ok false ↔
    value? = none ∨ Unreadable value? ∨ ∃ inner, Reads value? inner ∧ inner ∈ offValues := by
  constructor
  · intro h
    obtain hunset | hnone | ⟨inner, hreads⟩ := reads_cases value?
    · exact .inl hunset
    · exact .inr (.inl hnone)
    · rw [hreads.readDebug_eq] at h
      split at h
      · cases h
      split at h
      next hoff => exact .inr (.inr ⟨inner, hreads, hoff⟩)
      · cases h
  · rintro (rfl | hnone | ⟨inner, hreads, hoff⟩)
    · rfl
    · exact hnone.readDebug_eq
    · have hon : inner ∉ onValues := fun hon => not_mem_offValues inner hon hoff
      rw [hreads.readDebug_eq, if_neg hon, if_pos hoff]

theorem readDebug_eq_error_iff (e : BadDebugValue) : readDebug value? = .error e ↔
    Reads value? e.value ∧ e.value ∉ onValues ∧ e.value ∉ offValues := by
  constructor
  · intro h
    obtain rfl | hnone | ⟨inner, hreads⟩ := reads_cases value?
    · cases h
    · rw [hnone.readDebug_eq] at h
      cases h
    · rw [hreads.readDebug_eq] at h
      split at h
      · cases h
      next hon =>
      split at h
      · cases h
      next hoff =>
      cases h
      exact ⟨hreads, hon, hoff⟩
  · rintro ⟨hreads, hon, hoff⟩
    rw [hreads.readDebug_eq, if_neg hon, if_neg hoff]

/-- The variable is on for five spellings, with white space around them or without. It is off
for five others, where it is unset, and where its value is no text. A text that is none of the ten
is refused, and the error shows it without the white space. -/
theorem readDebug_exact (value? : Option Bytes) :
    (readDebug value? = .ok true ↔
      ∃ inner, Reads value? inner ∧ inner ∈ ["1", "true", "TRUE", "yes", "YES"]) ∧
    (readDebug value? = .ok false ↔ value? = none ∨ Unreadable value? ∨
      ∃ inner, Reads value? inner ∧ inner ∈ ["0", "false", "FALSE", "no", "NO"]) ∧
    ∀ e : BadDebugValue, readDebug value? = .error e ↔ Reads value? e.value ∧
      e.value ∉ ["1", "true", "TRUE", "yes", "YES"] ∧ e.value ∉ ["0", "false", "FALSE", "no", "NO"] :=
  ⟨readDebug_eq_true_iff, readDebug_eq_false_iff, readDebug_eq_error_iff⟩

/-- A byte that starts no character is a value of the variable, but no text. It is not refused. -/
theorem readDebug_no_text : (∀ inner, ¬ Reads (some [0xFF]) inner) ∧ readDebug (some [0xFF]) = .ok false := by
  have hnone : ∀ text, [0xFF] ≠ Bytes.ofString text := by
    intro text htext
    have hdecode := (Utf8.decode_eq_ok_iff _ _).2 htext.symm
    have herror : Utf8.decode [0xFF] = .error (.invalid 1 0) := by decide +kernel
    rw [herror] at hdecode
    cases hdecode
  constructor
  · rintro inner ⟨text, hvalue, -⟩
    exact hnone text (Option.some.inj hvalue)
  · exact Unreadable.readDebug_eq ⟨[0xFF], rfl, hnone⟩

end FrozenApp.Launcher
