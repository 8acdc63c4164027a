import FrozenApp.Proofs.Options.Meaning
/-!
# The modes that options switch

An extended option switches UTF-8 mode on or off, or development mode on. Of the options that
switch UTF-8 mode the last one counts (`addNames_utf8Mode`), and development mode is on if
there is an option for it (`addNames_devMode`).
-/

namespace FrozenApp.Options

open Text

/-- The name is that of an extended option of the interpreter. -/
def Extended (option name : String) : Prop :=
  ∃ rest, Trimmed rest option ∧ name = "X" ++ " " ++ rest

/-- The name is that of an option that switches UTF-8 mode on or off. -/
def Switches : Bool → String → Prop
  | true, name => Extended "utf8" name ∨ Extended "utf8=1" name
  | false, name => Extended "utf8=0" name

/-- The last name that switches UTF-8 mode switches it on or off. -/
def LastSwitch (names : List String) (on : Bool) : Prop :=
  ∃ before name behind, names = before ++ name :: behind ∧ Switches on name ∧
    ∀ later ∈ behind, ∀ on', ¬ Switches on' later

/-- The name is that of an option that switches development mode on. -/
def AsksDev (name : String) : Prop :=
  Extended "dev" name ∨ Extended "dev=1" name

/-! ## One name -/

theorem readOther_ne_x (name option : String) : readOther name ≠ .x option := by
  rcases readOther_cases name with hunknown | ⟨rest, rfl⟩
  · rw [hunknown]
    nofun
  · rw [readOther_hashSeed]
    nofun

theorem read_eq_x_iff {name option : String} : read name = .x option ↔ Extended option name := by
  constructor
  · intro h
    rcases splitName_cases name with hsplit | ⟨key, rest, hspace, rfl⟩
    · simp only [read, hsplit] at h
      split_ifs at h
      exact absurd h (readOther_ne_x name option)
    · rw [read_append hspace] at h
      split_ifs at h with hw hx
      · cases h
        subst hx
        exact ⟨rest, trimmed_trim rest, rfl⟩
      · exact absurd h (readOther_ne_x _ option)
  · rintro ⟨rest, htrimmed, rfl⟩
    rw [read_append (by decide), if_neg (by decide), if_pos rfl, htrimmed.trim_eq]

/-- The UTF-8 mode that a setting asks for. -/
def Setting.utf8Mode? : Setting → Option Bool
  | .x option => utf8ModeIn option
  | _ => none

theorem utf8ModeIn_eq_some_true {option : String} :
    utf8ModeIn option = some true ↔ option = "utf8" ∨ option = "utf8=1" := by
  rw [utf8ModeIn]
  split_ifs with hon hoff
  · exact iff_of_true rfl hon
  · exact iff_of_false (by decide) hon
  · exact iff_of_false (by decide) hon

theorem utf8ModeIn_eq_some_false {option : String} : utf8ModeIn option = some false ↔ option = "utf8=0" := by
  rw [utf8ModeIn]
  split_ifs with hon hoff
  · refine iff_of_false (by decide) ?_
    rcases hon with rfl | rfl <;> decide
  · exact iff_of_true rfl hoff
  · exact iff_of_false (by decide) hoff

theorem utf8Mode?_eq_some_iff {s : Setting} {on : Bool} :
    s.utf8Mode? = some on ↔ ∃ option, s = .x option ∧ utf8ModeIn option = some on := by
  cases s with
  | x option => simp [Setting.utf8Mode?]
  | _ => simp [Setting.utf8Mode?]

theorem utf8Mode?_read {name : String} {on : Bool} : (read name).utf8Mode? = some on ↔ Switches on name := by
  rw [utf8Mode?_eq_some_iff]
  simp only [read_eq_x_iff]
  cases on with
  | true => simp only [utf8ModeIn_eq_some_true, Switches, and_or_left, exists_or, exists_eq_right]
  | false => simp only [utf8ModeIn_eq_some_false, Switches, exists_eq_right]

theorem utf8Mode?_read_eq_none {name : String} : (read name).utf8Mode? = none ↔ ∀ on, ¬ Switches on name := by
  rw [Option.eq_none_iff_forall_ne_some]
  simp only [ne_eq, utf8Mode?_read]

theorem apply_utf8Mode {o o' : Options} {name : String} {s : Setting} (h : o.apply name s = .ok o') :
    o'.interpreter.utf8Mode = s.utf8Mode?.or o.interpreter.utf8Mode := by
  cases s with
  | hashSeed seed => cases seed <;> cases h; rfl
  | x option =>
    cases h
    rw [switchMode_eq, switchMode_empty]
    rfl
  | _ => cases h; rfl

theorem apply_devMode {o o' : Options} {name : String} {s : Setting} (h : o.apply name s = .ok o') :
    o'.interpreter.devMode = true ↔ o.interpreter.devMode = true ∨ s = .x "dev" ∨ s = .x "dev=1" := by
  cases s with
  | hashSeed seed => cases seed <;> cases h; simp
  | x option =>
    cases h
    rw [switchMode_eq, switchMode_empty]
    simp [InterpreterOptions.merge]
  | _ => cases h; simp

/-! ## All names -/

theorem addNames_utf8Mode_eq {o o' : Options} {names : List String} (h : addNames o names = .ok o') :
    o'.interpreter.utf8Mode = (names.filterMap fun name => (read name).utf8Mode?).getLast?.or o.interpreter.utf8Mode := by
  induction names generalizing o with
  | nil => cases h; rfl
  | cons name names ih =>
    obtain ⟨first, hfirst, hrest⟩ := addNames_cons h
    rw [ih hrest, apply_utf8Mode hfirst, Interpreter.filterMap_cons_toList, List.getLast?_append, Option.or_assoc]
    cases (read name).utf8Mode? <;> rfl

/-- The last option counts that switches UTF-8 mode. -/
theorem addNames_utf8Mode {o : Options} {names : List String} (h : addNames {} names = .ok o) (on : Bool) :
    o.interpreter.utf8Mode = some on ↔ LastSwitch names on := by
  rw [addNames_utf8Mode_eq h, Option.or_none, List.getLast?_filterMap, List.findSome?_eq_some_iff]
  constructor
  · rintro ⟨behind, name, before, hsplit, hname, hbehind⟩
    refine ⟨before.reverse, name, behind.reverse, ?_, utf8Mode?_read.1 hname, fun later hlater => ?_⟩
    · rw [← List.reverse_reverse names, hsplit]
      simp
    · exact utf8Mode?_read_eq_none.1 (hbehind later (List.mem_reverse.1 hlater))
  · rintro ⟨before, name, behind, rfl, hname, hbehind⟩
    refine ⟨behind.reverse, name, before.reverse, by simp, utf8Mode?_read.2 hname, fun later hlater => ?_⟩
    exact utf8Mode?_read_eq_none.2 (hbehind later (List.mem_reverse.1 hlater))

theorem addNames_utf8Mode_eq_none {o : Options} {names : List String} (h : addNames {} names = .ok o) :
    o.interpreter.utf8Mode = none ↔ ∀ name ∈ names, ∀ on, ¬ Switches on name := by
  rw [addNames_utf8Mode_eq h, Option.or_none, List.getLast?_eq_none_iff, List.filterMap_eq_nil_iff]
  simp only [utf8Mode?_read_eq_none]

theorem addNames_devMode_iff {o o' : Options} {names : List String} (h : addNames o names = .ok o') :
    o'.interpreter.devMode = true ↔ o.interpreter.devMode = true ∨ ∃ name ∈ names, AsksDev name := by
  induction names generalizing o with
  | nil => cases h; simp
  | cons name names ih =>
    obtain ⟨first, hfirst, hrest⟩ := addNames_cons h
    rw [ih hrest, apply_devMode hfirst, read_eq_x_iff, read_eq_x_iff, or_assoc]
    simp only [List.mem_cons, exists_eq_or_imp, AsksDev]

/-- Development mode is on if there is an option for it. -/
theorem addNames_devMode {o : Options} {names : List String} (h : addNames {} names = .ok o) :
    o.interpreter.devMode = true ↔ ∃ name ∈ names, AsksDev name := by
  rw [addNames_devMode_iff h]
  exact or_iff_right nofun

end FrozenApp.Options
