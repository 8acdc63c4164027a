import FrozenApp.Package.Archive
import FrozenApp.Proofs.Search
/-!
# Signatures in files

A file has a signature if the magic lies anywhere in it (`hasSignature_iff_occurs`).
`search_exact` says what the search gives for any data and any pattern, and how far
it looks.
-/

namespace FrozenApp.Package

open Bytes

/-- Only a file can have a signature. -/
theorem hasSignature_iff_found (files : FileTree) (path : Path) (magic : Bytes) :
    hasSignature files path magic = .ok true ↔
      ∃ content i, files.lookup path = .ok (.file content) ∧ content.findLast? magic = some i := by
  rw [hasSignature]
  cases files.lookup path with
  | error e => simp
  | ok node =>
    cases node with
    | directory =>
      dsimp only
      split <;> simp
    | file content => simp [Option.isSome_iff_exists]

theorem hasSignature_iff_occurs (files : FileTree) (path : Path) {magic : Bytes} (hp : magic ≠ [])
    (hs : magic.length ≤ windowSize) : hasSignature files path magic = .ok true ↔
      ∃ content, files.lookup path = .ok (.file content) ∧ ∃ i, OccursAt magic content i := by
  rw [hasSignature_iff_found]
  constructor
  · rintro ⟨content, i, hfile, hi⟩
    exact ⟨content, hfile, i, ((findLast?_eq_some_iff hp hs content i).1 hi).1⟩
  · rintro ⟨content, hfile, i, hi⟩
    cases hfound : content.findLast? magic with
    | some last => exact ⟨content, last, hfile, hfound⟩
    | none => exact absurd hi ((findLast?_eq_none_iff hp hs content).1 hfound i)

/-- The search gives the last occurrence, of a pattern that is neither empty nor longer
than a window. It ends after a bounded number of windows, all of them within the data.
A file has a signature exactly if it finds one. -/
theorem search_exact (data pattern : Bytes) :
    (∀ i, data.findLast? pattern = some i ↔ (pattern ≠ [] ∧ pattern.length ≤ windowSize) ∧
      OccursAt pattern data i ∧ ∀ j, OccursAt pattern data j → j ≤ i) ∧
    (data.findLast? pattern = none ↔ (pattern = [] ∨ windowSize < pattern.length) ∨ ∀ i, ¬ OccursAt pattern data i) ∧
    findWithin (windowsTo windowSize pattern data.length) data pattern = some (data.findLast? pattern) ∧
    ∀ files path, hasSignature files path pattern = .ok true ↔
      ∃ content i, files.lookup path = .ok (.file content) ∧ content.findLast? pattern = some i := by
  have hwithin := findWithin_eq data pattern
  have hsignature := fun files path => hasSignature_iff_found files path pattern
  by_cases hfits : pattern = [] ∨ windowSize < pattern.length
  · have hnone := findLast?_eq_none_of_not_fits hfits data
    refine ⟨fun i => iff_of_false ?_ ?_, iff_of_true hnone (.inl hfits), hwithin, hsignature⟩
    · rw [hnone]
      nofun
    · rintro ⟨⟨hp, hs⟩, -⟩
      rcases hfits with h | h
      · exact hp h
      · exact Nat.not_lt.2 hs h
  · obtain ⟨hp, hs⟩ := not_or.1 hfits
    rw [Nat.not_lt] at hs
    refine ⟨fun i => ?_, ?_, hwithin, hsignature⟩
    · have hpattern : pattern ≠ [] ∧ pattern.length ≤ windowSize := ⟨hp, hs⟩
      rw [findLast?_eq_some_iff hp hs, and_iff_right hpattern]
    · rw [findLast?_eq_none_iff hp hs, or_iff_right hfits]

/-- A pattern that overlaps itself is found at its last place. -/
example : findLast? [0, 1, 2, 1, 2, 1, 0] [1, 2, 1] = some 3 := by cbv

end FrozenApp.Package
