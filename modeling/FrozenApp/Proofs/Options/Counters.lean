import FrozenApp.Proofs.Options.Meaning
import FrozenApp.Proofs.Package.Open
/-!
# Options that are counted

Two options count how often they are given. The names that do so are not empty, so each
takes at least 19 bytes of the table of contents (`counted_le`), and the counters stay far
below the largest number of 32 bits.
-/

namespace FrozenApp.Options

open Interpreter Package

/-- A counter, the setting that adds to it, and the names that are read as this setting. -/
inductive IsCounter : (InterpreterOptions → Int32) → Setting → List String → Prop
  | verbose : IsCounter (·.verbose) .verbose ["v", "verbose"]
  | optimize : IsCounter (·.optimize) .optimize ["O", "optimize"]

/-- The next number, as long as there is one. -/
theorem toInt_add_one {n : Int32} (hlow : 0 ≤ n.toInt) (hhigh : n.toInt < Int32.maxValue.toInt) :
    (n + 1).toInt = n.toInt + 1 := by
  have hmin : Int32.minValue.toInt = -2147483648 := by decide
  have hone : (1 : Int32).toInt = 1 := by decide
  rw [toInt_add_of_fits (by omega) (by omega), hone]

namespace IsCounter

variable {counter : InterpreterOptions → Int32} {setting : Setting} {flags : List String}

theorem readOther_ne (h : IsCounter counter setting flags) (name : String) : readOther name ≠ setting := by
  rcases readOther_cases name with hunknown | ⟨rest, rfl⟩
  · rw [hunknown]
    cases h <;> nofun
  · rw [readOther_hashSeed]
    cases h <;> nofun

/-- No other name is read so. -/
theorem read_eq_iff (h : IsCounter counter setting flags) (name : String) : read name = setting ↔ name ∈ flags := by
  have hother := h.readOther_ne name
  constructor
  · intro hread
    rcases splitName_cases name with hsplit | ⟨key, rest, hspace, rfl⟩
    · rw [read, hsplit] at hread
      cases h with
      | verbose =>
        dsimp only at hread
        split_ifs at hread with hflag
        · simpa using hflag
        · exact absurd hread hother
      | optimize =>
        dsimp only at hread
        split_ifs at hread with _ _ hflag
        · simpa using hflag
        · exact absurd hread hother
    · rw [read_append hspace] at hread
      exfalso
      split_ifs at hread
      all_goals first | exact hother hread | (cases h <;> cases hread)
  · intro hmem
    cases h <;> simp only [List.mem_cons, List.not_mem_nil, or_false] at hmem <;> rcases hmem with rfl | rfl <;> rfl

theorem apply_counted (h : IsCounter counter setting flags) {o first : Options} {name : String}
    (hfirst : o.apply name setting = .ok first) : counter first.interpreter = counter o.interpreter + 1 := by
  cases h with
  | verbose => cases hfirst; rfl
  | optimize => cases hfirst; rfl

theorem apply_other (h : IsCounter counter setting flags) {o first : Options} {name : String} {s : Setting}
    (hs : s ≠ setting) (hfirst : o.apply name s = .ok first) :
    counter first.interpreter = counter o.interpreter := by
  cases s with
  | hashSeed seed =>
    cases seed with
    | error => cases hfirst
    | ok => cases hfirst; cases h <;> rfl
  | x option =>
    cases hfirst
    have hswitch : counter (switchMode o.interpreter option) = counter o.interpreter := by
      cases h <;> (rw [switchMode]; split_ifs <;> rfl)
    cases h <;> exact hswitch
  | verbose =>
    cases h with
    | verbose => exact absurd rfl hs
    | optimize => cases hfirst; rfl
  | optimize =>
    cases h with
    | verbose => cases hfirst; rfl
    | optimize => exact absurd rfl hs
  | _ => cases hfirst; cases h <;> rfl

/-- A counter that has room for all names grows by the number of those that are counted. -/
theorem toInt_of_addNames (h : IsCounter counter setting flags) {o o' : Options} {names : List String}
    (hlow : 0 ≤ (counter o.interpreter).toInt)
    (hhigh : (counter o.interpreter).toInt + names.countP (· ∈ flags) ≤ Int32.maxValue.toInt)
    (hnames : addNames o names = .ok o') :
    (counter o'.interpreter).toInt = (counter o.interpreter).toInt + names.countP (· ∈ flags) := by
  induction names generalizing o with
  | nil => cases hnames; simp
  | cons name names ih =>
    obtain ⟨first, hfirst, hrest⟩ := addNames_cons hnames
    rw [List.countP_cons] at hhigh ⊢
    by_cases hname : name ∈ flags
    · rw [if_pos (by simpa using hname), Int.natCast_add] at hhigh ⊢
      have hone : (counter first.interpreter).toInt = (counter o.interpreter).toInt + 1 := by
        rw [(h.read_eq_iff name).2 hname] at hfirst
        rw [h.apply_counted hfirst, toInt_add_one hlow (by omega)]
      rw [ih (by omega) (by omega) hrest]
      omega
    · rw [if_neg (by simpa using hname), Nat.add_zero] at hhigh ⊢
      have hsame := h.apply_other (fun hread => hname ((h.read_eq_iff name).1 hread)) hfirst
      rw [← hsame] at hlow hhigh ⊢
      exact ih hlow hhigh hrest

theorem toInt_of_addNames_empty (h : IsCounter counter setting flags) {o : Options} {names : List String}
    (hhigh : (names.countP (· ∈ flags) : Int) ≤ Int32.maxValue.toInt) (hnames : addNames {} names = .ok o) :
    (counter o.interpreter).toInt = names.countP (· ∈ flags) := by
  have hzero : (counter ({} : Options).interpreter).toInt = 0 := by cases h <;> rfl
  rw [h.toInt_of_addNames (Int.le_of_eq hzero.symm) (by omega) hnames, hzero, Int.zero_add]

end IsCounter

/-- What two predicates count that are never both true is counted by one that follows from either. -/
theorem countP_add_countP_le {α : Type} {p q r : α → Bool} {l : List α} (hp : ∀ x, p x = true → r x = true ∧ q x = false)
    (hq : ∀ x, q x = true → r x = true) : l.countP p + l.countP q ≤ l.countP r := by
  induction l with
  | nil => exact Nat.le_refl 0
  | cons x l ih =>
    simp only [List.countP_cons]
    cases hpx : p x with
    | true =>
      obtain ⟨hrx, hqx⟩ := hp x hpx
      simp only [hrx, hqx, if_true, Bool.false_eq_true, if_false]
      omega
    | false =>
      cases hqx : q x with
      | true =>
        simp only [hq x hqx, if_true, Bool.false_eq_true, if_false]
        omega
      | false => exact Nat.le_add_right_of_le ih

/-- The names that are counted, of both counters together, fit into the table of contents. -/
theorem counted_le {files : FileTree} {path : Path} {a : Archive} (h : Archive.read files path = .ok a) :
    (namesIn a).countP (· ∈ ["v", "verbose"]) + (namesIn a).countP (· ∈ ["O", "optimize"]) ≤
      a.cookie.tocLength.toNat / 19 := by
  obtain ⟨s, htable, hlength⟩ := exists_isTable_of_read h
  have hnamed := htable.countP_name_le
  have hboth : (namesIn a).countP (· ∈ ["v", "verbose"]) + (namesIn a).countP (· ∈ ["O", "optimize"]) ≤
      (namesIn a).countP (· ≠ "") := by
    refine countP_add_countP_le (fun name hname => ?_) fun name hname => ?_
    all_goals
      simp only [List.mem_cons, List.not_mem_nil, or_false, decide_eq_true_eq] at hname
      rcases hname with rfl | rfl <;> decide
  have hall : (namesIn a).countP (· ≠ "") ≤ a.entries.countP (·.name ≠ "") := by
    rw [namesIn, List.countP_map]
    exact List.filter_sublist.countP_le
  rw [recordHeaderLength] at hnamed
  omega

/-- The counters once options of these names have been added. -/
structure Counted (a : Archive) (names : List String) (o : Options) : Prop where
  verbose : o.interpreter.verbose.toInt = names.countP (· ∈ ["v", "verbose"])
  optimize : o.interpreter.optimize.toInt = names.countP (· ∈ ["O", "optimize"])
  sum_le : o.interpreter.verbose.toInt + o.interpreter.optimize.toInt ≤ (a.cookie.tocLength.toNat / 19 : Nat)
  /-- Both have room for one more. -/
  verbose_succ : (o.interpreter.verbose + 1).toInt = o.interpreter.verbose.toInt + 1
  optimize_succ : (o.interpreter.optimize + 1).toInt = o.interpreter.optimize.toInt + 1

theorem counted_of_prefix {files : FileTree} {path : Path} {a : Archive} (h : Archive.read files path = .ok a)
    {names : List String} (hbegin : names <+: namesIn a) {o : Options} (ho : addNames {} names = .ok o) :
    Counted a names o := by
  have hmax : Int32.maxValue.toInt = 2147483647 := by decide
  have htoc := a.cookie.tocLength.toNat_lt
  have hle := counted_le h
  have hverbose := hbegin.sublist.countP_le (p := (· ∈ ["v", "verbose"]))
  have hoptimize := hbegin.sublist.countP_le (p := (· ∈ ["O", "optimize"]))
  have hv := IsCounter.verbose.toInt_of_addNames_empty (by omega) ho
  have ho := IsCounter.optimize.toInt_of_addNames_empty (by omega) ho
  exact ⟨hv, ho, by omega, toInt_add_one (by omega) (by omega), toInt_add_one (by omega) (by omega)⟩

end FrozenApp.Options
