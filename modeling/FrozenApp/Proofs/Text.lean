import FrozenApp.Text.Blank
import FrozenApp.Text.Decimal
import Mathlib.Data.List.TakeWhile
/-!
# Trimmed texts and decimal numbers

`trimmed_iff`: trimming takes the white space off both ends of a text, and nothing
else. `parseUInt64_eq_ok_iff`: a text is read as a number exactly if it consists of
ASCII digits, behind a plus sign or not, whose value fits in 64 bits.
-/

namespace FrozenApp.Text

/-! ## Trimming -/

/-- `inner` is `text` without the white space at its ends. -/
structure Trimmed (text inner : String) : Prop where
  within : ∃ before after : List Char, text.toList = before ++ (inner.toList ++ after) ∧
    (∀ c ∈ before, isBlank c) ∧ ∀ c ∈ after, isBlank c
  begins : ∀ c ∈ inner.toList.head?, ¬ isBlank c
  ends : ∀ c ∈ inner.toList.getLast?, ¬ isBlank c

/-- The rest of a list behind the blanks it begins with begins with none. -/
theorem not_isBlank_of_dropWhile (cs : List Char) : ∀ c ∈ (cs.dropWhile isBlank).head?, ¬ isBlank c := by
  intro c hc
  have hne : cs.dropWhile isBlank ≠ [] := by
    intro hnil
    rw [hnil] at hc
    cases hc
  rw [List.head?_eq_some_head hne] at hc
  cases hc
  simpa using List.head_dropWhile_not isBlank hne

theorem trimmed_trim (s : String) : Trimmed s (trim s) := by
  -- what is kept is `kept`, and the blanks behind it are `tail`
  generalize hrest : s.toList.dropWhile isBlank = rest
  have hsplit : s.toList = s.toList.takeWhile isBlank ++ rest := by
    rw [← hrest, List.takeWhile_append_dropWhile]
  have hrev : rest = (rest.reverse.dropWhile isBlank).reverse ++ (rest.reverse.takeWhile isBlank).reverse := by
    rw [← List.reverse_append, List.takeWhile_append_dropWhile, List.reverse_reverse]
  have hkept : (trim s).toList = (rest.reverse.dropWhile isBlank).reverse := by
    rw [trim, String.toList_ofList, hrest]
  refine ⟨⟨s.toList.takeWhile isBlank, (rest.reverse.takeWhile isBlank).reverse, ?_, ?_, ?_⟩, ?_, ?_⟩
  · rw [hkept, ← hrev, ← hsplit]
  · intro c hc
    exact List.mem_takeWhile_imp hc
  · intro c hc
    exact List.mem_takeWhile_imp (List.mem_reverse.1 hc)
  · intro c hc
    apply not_isBlank_of_dropWhile s.toList
    rw [hrest, hrev, List.head?_append, ← hkept, hc]
    rfl
  · intro c hc
    apply not_isBlank_of_dropWhile rest.reverse
    rw [hkept, List.getLast?_reverse] at hc
    exact hc

theorem Trimmed.trim_eq {text inner : String} (h : Trimmed text inner) : trim text = inner := by
  obtain ⟨⟨before, after, htext, hbefore, hafter⟩, hbegins, hends⟩ := h
  have hinner : ((inner.toList ++ after).dropWhile isBlank).reverse.dropWhile isBlank = inner.toList.reverse := by
    cases hcs : inner.toList with
    | nil =>
      have hnone : after.dropWhile isBlank = [] := List.dropWhile_eq_nil_iff.2 hafter
      simp [hnone]
    | cons c cs =>
      have hc : ¬ isBlank c := hbegins c (by rw [hcs]; rfl)
      rw [List.cons_append, List.dropWhile_cons_of_neg hc, ← List.cons_append, List.reverse_append,
        List.dropWhile_append_of_pos (fun a ha => hafter a (List.mem_reverse.1 ha))]
      -- the last character kept is none of the blanks
      cases hlast : (c :: cs).reverse with
      | nil => simp at hlast
      | cons d ds =>
        apply List.dropWhile_cons_of_neg
        apply hends d
        rw [hcs, ← List.head?_reverse, hlast]
        rfl
  rw [trim, htext, List.dropWhile_append_of_pos hbefore, hinner, List.reverse_reverse, String.ofList_toList]

theorem trimmed_iff {text inner : String} : Trimmed text inner ↔ trim text = inner := by
  constructor
  · exact Trimmed.trim_eq
  · rintro rfl
    exact trimmed_trim text

/-! ## Decimal numbers -/

/-- The text is the number in decimal: ASCII digits, behind a plus sign or not. -/
def Spells (text : String) (n : UInt64) : Prop :=
  ∃ digits : List Char, digits ≠ [] ∧ (text.toList = digits ∨ text.toList = '+' :: digits) ∧
    (∀ c ∈ digits, c.isDigit) ∧ Nat.ofDigitChars 10 digits 0 = n.toNat

/-- Digits behind a number make it no smaller. -/
theorem le_ofDigitChars (cs : List Char) (n : Nat) : n ≤ Nat.ofDigitChars 10 cs n := by
  induction cs generalizing n with
  | nil => exact Nat.le_refl n
  | cons c cs ih =>
    have hstep := ih (10 * n + (c.toNat - '0'.toNat))
    rw [Nat.ofDigitChars_cons]
    omega

/-- Digits are read up to the end exactly if the number that they come to fits. -/
theorem digits_eq_ok_iff {n : Nat} (hn : n < UInt64.size) (cs : List Char) (m : Nat) :
    digits n cs = .ok m ↔ (∀ c ∈ cs, c.isDigit) ∧ Nat.ofDigitChars 10 cs n = m ∧ m < UInt64.size := by
  induction cs generalizing n with
  | nil =>
    rw [digits, Except.ok.injEq]
    constructor
    · rintro rfl
      exact ⟨List.forall_mem_nil _, rfl, hn⟩
    · rintro ⟨-, rfl, -⟩
      rfl
  | cons c cs ih =>
    rw [digits, Nat.ofDigitChars_cons, List.forall_mem_cons, Nat.mul_comm 10 n]
    by_cases hc : c.isDigit
    · simp only [hc, Bool.not_true, Bool.false_eq_true, if_false, true_and]
      by_cases hlarge : UInt64.size ≤ n * 10 + (c.toNat - '0'.toNat)
      · rw [if_pos hlarge]
        refine iff_of_false nofun ?_
        rintro ⟨-, rfl, hfits⟩
        have := le_ofDigitChars cs (n * 10 + (c.toNat - '0'.toNat))
        omega
      · rw [if_neg hlarge]
        exact ih (Nat.lt_of_not_le hlarge)
    · simp [hc]

theorem map_digits_eq_ok_iff (cs : List Char) (n : UInt64) :
    (digits 0 cs).map UInt64.ofNat = .ok n ↔ (∀ c ∈ cs, c.isDigit) ∧ Nat.ofDigitChars 10 cs 0 = n.toNat := by
  have hzero : 0 < UInt64.size := by decide
  constructor
  · intro h
    cases hdigits : digits 0 cs with
    | error e =>
      rw [hdigits] at h
      cases h
    | ok m =>
      obtain ⟨hall, hvalue, hfits⟩ := (digits_eq_ok_iff hzero cs m).1 hdigits
      rw [hdigits] at h
      cases h
      exact ⟨hall, by rw [hvalue, UInt64.toNat_ofNat_of_lt' hfits]⟩
  · rintro ⟨hall, hvalue⟩
    have hdigits : digits 0 cs = .ok n.toNat := (digits_eq_ok_iff hzero cs _).2 ⟨hall, hvalue, n.toNat_lt⟩
    rw [hdigits]
    exact congrArg Except.ok UInt64.ofNat_toNat

/-- A text is read as a number exactly if it spells it. -/
theorem parseUInt64_eq_ok_iff (s : String) (n : UInt64) : parseUInt64 s = .ok n ↔ Spells s n := by
  have hplus : '+'.isDigit = false := by decide
  rw [parseUInt64, Spells]
  split
  · next hs =>
    refine iff_of_false nofun ?_
    rintro ⟨digits, hne, hdigits | hdigits, -⟩
    · exact hne (hdigits.symm.trans hs)
    · cases hdigits.symm.trans hs
  · next hs =>
    refine iff_of_false nofun ?_
    rintro ⟨digits, hne, hdigits | hdigits, hall, -⟩
    · rw [← hdigits, hs] at hall
      simp [hplus] at hall
    · cases hdigits.symm.trans hs
      exact hne rfl
  · next rest hne hs =>
    rw [map_digits_eq_ok_iff, hs]
    constructor
    · rintro ⟨hall, hvalue⟩
      exact ⟨rest, hne, .inr rfl, hall, hvalue⟩
    · rintro ⟨_, -, rfl | htail, hall, hvalue⟩
      · simp [hplus] at hall
      · cases htail
        exact ⟨hall, hvalue⟩
  · next hnil hsign hrest =>
    rw [map_digits_eq_ok_iff]
    constructor
    · rintro ⟨hall, hvalue⟩
      exact ⟨s.toList, hnil, .inl rfl, hall, hvalue⟩
    · rintro ⟨digits, -, rfl | hs, hall, hvalue⟩
      · exact ⟨hall, hvalue⟩
      · exact absurd hs (hrest digits)

end FrozenApp.Text
