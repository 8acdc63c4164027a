import FrozenApp.Options
import FrozenApp.Proofs.Interpreter.Acts
/-!
# What options come to

Apart from the lines of the log, options are added by a fold over their names
(`addAll_goes`). So they depend on the package only, and a fact about all options
of a package needs a look at what one setting does.
-/

namespace FrozenApp.Options

open Interpreter Package

/-- The options with those of these names added, in order. -/
def addNames (o : Options) (names : List String) : Except Error Options :=
  names.foldlM (fun o name => o.apply name (read name)) o

theorem addNames_cons {o o' : Options} {name : String} {names : List String} (h : addNames o (name :: names) = .ok o') :
    ∃ first, o.apply name (read name) = .ok first ∧ addNames first names = .ok o' := by
  rw [addNames, List.foldlM_cons] at h
  cases happly : o.apply name (read name) with
  | error e => rw [happly] at h; cases h
  | ok first => exact ⟨first, rfl, by rw [happly] at h; exact h⟩

theorem addAll_goes (o : Options) (names : List String) : Goes (addAll o names) fun r l =>
    r = addNames o names ∧ l = [] := by
  induction names generalizing o with
  | nil => exact .pure ⟨rfl, rfl⟩
  | cons name names ih =>
    rw [addNames, List.foldlM_cons, addAll]
    cases o.apply name (read name) with
    | error e =>
      have hstop : Goes (throw e : Act Error Options) fun r l => r = .error e ∧ l = [] := .throw ⟨rfl, rfl⟩
      cases remark? name (read name) with
      | none => exact hstop
      | some line => exact .debug_bind hstop
    | ok o =>
      cases remark? name (read name) with
      | none => exact ih o
      | some line => exact .debug_bind (ih o)

/-- The names of the options of a package. -/
def namesIn (a : Archive) : List String :=
  (a.entriesOf .option).map (·.name)

theorem ofArchive_goes (a : Archive) : Goes (ofArchive a) fun r l => r = addNames {} (namesIn a) ∧ l = [] :=
  addAll_goes {} _

/-- Whatever was done before, the options of a package are the same. -/
theorem ofArchive_eq (a : Archive) (t : Trace) : ((ofArchive a).run.run t).1 = addNames {} (namesIn a) := by
  obtain ⟨-, -, -, h, -⟩ := ofArchive_goes a t
  exact h

/-! ## Free-threaded builds -/

theorem apply_freeThreaded {o o' : Options} {name : String} {s : Setting} (h : o.apply name s = .ok o') :
    o'.launch.freeThreaded = true ↔ o.launch.freeThreaded = true ∨ s = .freeThreaded := by
  cases s with
  | hashSeed seed => cases seed <;> cases h; simp
  | _ => cases h; simp

/-- Interpreters are free-threaded where an option says so. No other option takes that back. -/
theorem addNames_freeThreaded {o o' : Options} {names : List String} (h : addNames o names = .ok o') :
    o'.launch.freeThreaded = true ↔ o.launch.freeThreaded = true ∨ ∃ name ∈ names, read name = .freeThreaded := by
  induction names generalizing o with
  | nil => cases h; simp
  | cons name names ih =>
    obtain ⟨first, hfirst, hrest⟩ := addNames_cons h
    rw [ih hrest, apply_freeThreaded hfirst, or_assoc]
    simp only [List.mem_cons, exists_eq_or_imp]

end FrozenApp.Options
