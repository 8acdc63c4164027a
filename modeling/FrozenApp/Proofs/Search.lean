import FrozenApp.Bytes.Search
import Mathlib.Data.List.Basic
/-!
# Searching from the end finds the last occurrence

The search looks at one window of the data after the other. Its invariant is
that no occurrence ends beyond `stop`, so the last one within the first `stop`
bytes is the last one of all. `findLast?_eq_some_iff` and `findLast?_eq_none_iff`
say what is found for a pattern that fits into a window, and `findLast?_eq_none_of_not_fits`
that no other pattern is found. `findWithin_eq` bounds the number of windows.
-/

namespace FrozenApp.Bytes

/-- The pattern lies in the data from place `i` on. -/
def OccursAt (pattern data : Bytes) (i : Nat) : Prop :=
  pattern <+: data.drop i

instance (pattern data : Bytes) (i : Nat) : Decidable (OccursAt pattern data i) :=
  inferInstanceAs (Decidable (pattern <+: data.drop i))

/-- The greatest place with a property, or none if no place has it. -/
def IsLast (P : Nat → Prop) : Option Nat → Prop
  | some i => P i ∧ ∀ j, P j → j ≤ i
  | none => ∀ j, ¬ P j

theorem IsLast.eq_some_iff {P : Nat → Prop} {r : Option Nat} (h : IsLast P r) (i : Nat) :
    r = some i ↔ P i ∧ ∀ j, P j → j ≤ i := by
  constructor
  · rintro rfl; exact h
  · rintro ⟨hi, hmax⟩
    cases r with
    | none => exact absurd hi (h i)
    | some k => exact congrArg some (Nat.le_antisymm (hmax k h.1) (h.2 i hi))

theorem IsLast.eq_none_iff {P : Nat → Prop} {r : Option Nat} (h : IsLast P r) :
    r = none ↔ ∀ i, ¬ P i := by
  constructor
  · rintro rfl; exact h
  · intro hn
    cases r with
    | none => rfl
    | some k => exact absurd h.1 (hn k)

theorem IsLast.congr {P Q : Nat → Prop} {r : Option Nat} (h : IsLast P r) (hPQ : ∀ i, P i ↔ Q i) : IsLast Q r := by
  rwa [show Q = P from funext fun i => propext (hPQ i).symm]

/-! ## Occurrences -/

theorem OccursAt.le_length {pattern data : Bytes} {i : Nat} (hp : pattern ≠ [])
    (h : OccursAt pattern data i) : i + pattern.length ≤ data.length := by
  have hl := h.length_le
  have := List.length_pos_of_ne_nil hp
  rw [List.length_drop] at hl
  omega

/-- A window shows exactly the occurrences that lie in it. -/
theorem occursAt_slice {pattern data : Bytes} {start length i : Nat} (hp : pattern ≠ []) :
    OccursAt pattern (data.slice start length) i ↔
      OccursAt pattern data (start + i) ∧ i + pattern.length ≤ length := by
  have hpos := List.length_pos_of_ne_nil hp
  constructor
  · intro h
    have hle := h.le_length hp
    simp only [slice, List.length_take, List.length_drop] at hle
    refine ⟨?_, by omega⟩
    rw [OccursAt, slice, List.drop_take, List.drop_drop] at h
    exact h.trans (List.take_prefix _ _)
  · rintro ⟨h, hle⟩
    rw [OccursAt, slice, List.drop_take, List.drop_drop]
    exact List.prefix_take_iff.2 ⟨h, by omega⟩

/-! ## One window -/

theorem lastMatch?_isLast {pattern : Bytes} (hp : pattern ≠ []) (window : Bytes) :
    IsLast (OccursAt pattern window) (lastMatch? pattern window) := by
  -- an occurrence behind the first byte takes precedence over one at it
  induction window with
  | nil =>
    intro j h
    rw [OccursAt, List.drop_nil, List.prefix_nil] at h
    exact hp h
  | cons b rest ih =>
    rw [lastMatch?]
    cases h : lastMatch? pattern rest with
    | some k =>
      rw [h] at ih
      refine ⟨ih.1, fun j hj => ?_⟩
      cases j with
      | zero => exact Nat.zero_le _
      | succ j => exact Nat.succ_le_succ (ih.2 j hj)
    | none =>
      rw [h] at ih
      simp only
      split
      · next hb =>
        refine ⟨List.isPrefixOf_iff_prefix.1 hb, fun j hj => ?_⟩
        cases j with
        | zero => exact Nat.le_refl 0
        | succ j => exact absurd hj (ih j)
      · next hb =>
        intro j hj
        cases j with
        | zero => exact hb (List.isPrefixOf_iff_prefix.2 hj)
        | succ j => exact ih j hj

/-! ## All windows -/

/-- The search within the first `stop` bytes. A window without an occurrence
leaves those that end ahead of its first possible end. -/
theorem scanBack_isLast {size : Nat} {pattern data : Bytes} (hp : pattern ≠ []) (hs : pattern.length ≤ size)
    (stop : Nat) : IsLast (fun i => OccursAt pattern data i ∧ i + pattern.length ≤ stop)
      (scanBack size pattern data stop) := by
  have hpos := List.length_pos_of_ne_nil hp
  fun_induction scanBack size pattern data stop with
  | case1 stop start hshort =>
    rintro j ⟨hj, hle⟩
    omega
  | case2 stop start hlong i hi =>
    have hw := lastMatch?_isLast hp (data.slice start (stop - start))
    rw [hi] at hw
    obtain ⟨hocc, hle⟩ := (occursAt_slice hp).1 hw.1
    refine ⟨⟨hocc, by omega⟩, ?_⟩
    -- one further behind would lie in the window as well
    rintro j ⟨hj, hjle⟩
    by_cases hstart : start ≤ j
    · have := hw.2 (j - start) ((occursAt_slice hp).2 ⟨by rwa [Nat.add_sub_cancel' hstart], by omega⟩)
      omega
    · omega
  | case3 stop start hlong hnone h0 =>
    have hw := lastMatch?_isLast hp (data.slice start (stop - start))
    rw [hnone] at hw
    rintro j ⟨hj, hle⟩
    exact hw j ((occursAt_slice hp).2 ⟨by rwa [h0, Nat.zero_add], by omega⟩)
  | case4 stop start hlong hnone h0 ih =>
    have hw := lastMatch?_isLast hp (data.slice start (stop - start))
    rw [hnone] at hw
    refine ih.congr fun j => and_congr_right fun hj => ⟨fun h => by omega, fun h => ?_⟩
    -- an occurrence that does not end ahead of the next `stop` lies in the window
    by_contra hlt
    exact hw (j - start) ((occursAt_slice hp).2 ⟨by rwa [Nat.add_sub_cancel' (by omega)], by omega⟩)

theorem findLast?_isLast {pattern : Bytes} (hp : pattern ≠ []) (hs : pattern.length ≤ windowSize) (data : Bytes) :
    IsLast (OccursAt pattern data) (data.findLast? pattern) := by
  rw [findLast?]
  split
  · next h =>
    intro j hj
    have hle := hj.le_length hp
    rcases h with h | h
    · exact hp (List.isEmpty_iff.1 h)
    · omega
  · exact (scanBack_isLast hp hs _).congr fun i => ⟨And.left, fun h => ⟨h, h.le_length hp⟩⟩

theorem findLast?_eq_some_iff {pattern : Bytes} (hp : pattern ≠ []) (hs : pattern.length ≤ windowSize)
    (data : Bytes) (i : Nat) : data.findLast? pattern = some i ↔
      OccursAt pattern data i ∧ ∀ j, OccursAt pattern data j → j ≤ i :=
  (findLast?_isLast hp hs data).eq_some_iff i

theorem findLast?_eq_none_iff {pattern : Bytes} (hp : pattern ≠ []) (hs : pattern.length ≤ windowSize)
    (data : Bytes) : data.findLast? pattern = none ↔ ∀ i, ¬ OccursAt pattern data i :=
  (findLast?_isLast hp hs data).eq_none_iff

/-- A pattern that does not fit into a window is not found. -/
theorem findLast?_eq_none_of_not_fits {pattern : Bytes} (h : pattern = [] ∨ windowSize < pattern.length)
    (data : Bytes) : data.findLast? pattern = none := by
  rw [findLast?]
  split
  · rfl
  next hrefused =>
  rcases h with h | h
  · exact absurd (.inl (List.isEmpty_iff.2 h)) hrefused
  · rw [scanBack, if_pos (by omega)]

/-! ## How many windows -/

/-- By how much a window starts ahead of the next one behind it. -/
def stride (size : Nat) (pattern : Bytes) : Nat :=
  size + 1 - pattern.length

/-- How many windows there are between the pattern's length and `stop`, at most. -/
def windowsTo (size : Nat) (pattern : Bytes) (stop : Nat) : Nat :=
  (stop - pattern.length) / stride size pattern + 1

/-- Every window but the first in the data leaves one less. -/
theorem windowsTo_next {size : Nat} {pattern : Bytes} {stop : Nat} (hs : pattern.length ≤ size) (hstop : size < stop) :
    windowsTo size pattern stop = windowsTo size pattern (stop - size + pattern.length - 1) + 1 := by
  have hstride : 0 < stride size pattern := by rw [stride]; omega
  have hnext : stop - pattern.length = stop - size + pattern.length - 1 - pattern.length + stride size pattern := by
    rw [stride]; omega
  rw [windowsTo, hnext, Nat.add_div_right _ hstride]
  rfl

/-- So many windows suffice, and all of them lie within the data. -/
theorem scanWithin_eq {size : Nat} {pattern data : Bytes} {stop : Nat} (hstop : stop ≤ data.length) {windows : Nat}
    (h : windowsTo size pattern stop ≤ windows + 1) :
    scanWithin size pattern data (windows + 1) stop = some (scanBack size pattern data stop) := by
  fun_induction scanBack size pattern data stop generalizing windows with
  | case1 stop start hshort =>
    rw [scanWithin, if_neg (Nat.not_lt.2 hstop), if_pos hshort]
  | case2 stop start hlong i hi =>
    rw [scanWithin, if_neg (Nat.not_lt.2 hstop), if_neg hlong]
    dsimp only [start] at hi ⊢
    rw [hi]
  | case3 stop start hlong hnone h0 =>
    rw [scanWithin, if_neg (Nat.not_lt.2 hstop), if_neg hlong]
    dsimp only [start] at hnone h0 ⊢
    rw [hnone]
    exact if_pos h0
  | case4 stop start hlong hnone h0 ih =>
    dsimp only [start] at hlong hnone h0 ih ⊢
    -- the window is a whole one, since it does not start the data
    rw [windowsTo_next (by omega) (by omega)] at h
    obtain ⟨windows, rfl⟩ : ∃ n, windows = n + 1 :=
      Nat.exists_eq_add_of_le' (Nat.le_trans (Nat.succ_pos _) (Nat.succ_le_succ_iff.1 h))
    rw [scanWithin, if_neg (Nat.not_lt.2 hstop), if_neg hlong, hnone]
    exact (if_neg h0).trans (ih (by omega) (Nat.succ_le_succ_iff.1 h))

theorem findWithin_eq (data pattern : Bytes) :
    findWithin (windowsTo windowSize pattern data.length) data pattern = some (data.findLast? pattern) := by
  rw [findWithin, findLast?]
  split
  · rfl
  · exact scanWithin_eq (Nat.le_refl _) (Nat.le_refl _)

end FrozenApp.Bytes
