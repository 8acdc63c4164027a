import FrozenApp.Proofs.FileTree
import FrozenApp.Proofs.Options.Counters
import FrozenApp.Proofs.Package.RoundTrip
import FrozenApp.Proofs.Program.Order
/-!
# Values that can be handed over

What an interpreter is handed must not hold a NUL, or be longer than its numbers tell. An
archive that was opened holds nothing of this kind: its names end where a NUL would stand,
its path has led to a file, and a payload is as long as a number of 32 bits says.
`opened_archive_converts`: so a program fails at none of these checks, unless it is its home
that holds a NUL, and the counters among its options do not overflow.
-/

namespace FrozenApp

theorem Path.zero_not_mem_join {p q : Path} (hp : 0 ∉ p) (hq : 0 ∉ q) : 0 ∉ p.join q := by
  have hslash : 0 ≠ slash := by decide
  rw [join]
  split
  · exact hq
  split
  · exact fun h => (List.mem_append.1 h).elim hp hq
  · simp only [List.mem_append, List.mem_cons, not_or]
    exact ⟨hp, hslash, hq⟩

end FrozenApp

namespace FrozenApp.Program

open Bytes Interpreter Package

/-! ## Errors of conversions -/

/-- Something cannot be handed over. -/
def BootstrapError.IsConversion : BootstrapError → Prop
  | .homeNul _ | .nameNul _ | .moduleTooLarge _ | .archivePathNul _ | .locationNul _ => True
  | _ => False

/-- Something cannot be handed over. -/
def ScriptError.IsConversion : ScriptError → Prop
  | .pathNul _ | .tooLarge _ => True
  | _ => False

/-- Something cannot be handed over. -/
def IsConversion : LaunchError → Prop
  | .bootstrap e => e.IsConversion
  | .scripts e => e.IsConversion
  | _ => False

/-- What cannot be handed over at a step, and how it ends the run. -/
inductive Unconverted (archive : Archive) (home : Path) : PlanStep → LaunchError → Prop
  | home (hnul : 0 ∈ home) : Unconverted archive home .home (.bootstrap (.homeNul ⟨home⟩))
  | module {e : Entry} (hnul : 0 ∈ ofString e.name) :
      Unconverted archive home (.module e) (.bootstrap (.nameNul ⟨ofString e.name⟩))
  | collection {e : Entry} (hnul : 0 ∈ archive.path) :
      Unconverted archive home (.collection e) (.bootstrap (.archivePathNul ⟨archive.path⟩))
  | script {e : Entry} (hnul : 0 ∈ rawFile home e.name) :
      Unconverted archive home (.script e) (.scripts (.pathNul ⟨rawFile home e.name⟩))

section

variable {files : FileTree} {archive : Archive} {home : Path}

theorem Failed.unconverted {scope? : Option Scope} {step : PlanStep} {error : LaunchError} {l : List Exchange}
    (h : Failed files archive home scope? step (.error error) l) (herror : IsConversion error) :
    Unconverted archive home step error := by
  cases h with
  | homeNul hnul => exact .home hnul
  | moduleNul _ hnul => exact .module hnul
  | archivePathNul hnul => exact .collection hnul
  | scriptNul _ hnul => exact .script hnul
  | _ => exact herror.elim

/-- A conversion that fails does so at one of the steps. -/
theorem Followed.unconverted {scope? : Option Scope} {steps : List PlanStep} {error : LaunchError} {l : List Exchange}
    (h : Followed files archive home scope? steps (.stop (.error error)) l) (herror : IsConversion error) :
    ∃ step ∈ steps, Unconverted archive home step error := by
  rcases h.split with ⟨_, hnext⟩ | ⟨done, step, rest, scope?', calls, last, rfl, -, -, hfailed⟩
  · cases hnext
  · exact ⟨step, List.mem_append_right _ (List.mem_cons_self ..), hfailed.unconverted herror⟩

theorem zero_not_mem_rawFile {name : String} (hhome : 0 ∉ home) (hname : 0 ∉ ofString name) : 0 ∉ rawFile home name := by
  intro h
  refine Path.zero_not_mem_join hhome ?_ (zero_mem_of_lossy h)
  rw [Path.ofString, ofString_append]
  exact fun h => (List.mem_append.1 h).elim hname (by decide)

end

/-! ## Archives that were opened -/

/-- All that a program hands over can be handed over. -/
structure Converts (a : Archive) : Prop where
  names : ∀ e ∈ a.entries, 0 ∉ ofString e.name ∧ terminated (ofString e.name) = .ok (ofString e.name)
  locations : 0 ∉ a.path ∧ ∀ offset, collectionLocation a.path offset = .ok (location a.path offset)
  lengths : ∀ files e data, a.extract files e = .ok data →
    data.length < 2 ^ 32 ∧ signedLength? data = some (Int64.ofNat data.length)
  scriptFiles : ∀ home, 0 ∉ home → ∀ e ∈ a.entries, terminated (rawFile home e.name) = .ok (rawFile home e.name)
  /-- So no error of this kind ends the parts of a program, unless its home holds a NUL. -/
  modules : ∀ files lib, Goes (importModules files lib a) fun r _ => ∀ e, r = .error e → ¬ e.IsConversion
  collections : ∀ lib, Goes (installCollections lib a) fun r _ => ∀ e, r = .error e → ¬ e.IsConversion
  scripts : ∀ files lib home, Goes (runScripts files lib a home) fun r _ =>
    ∀ e, r = .error e → e.IsConversion → 0 ∈ home ∧ ∃ nul, e = .pathNul nul
  /-- After any of the options, both counters have room for one more. -/
  counters : ∀ names, names <+: Options.namesIn a → ∀ t o, ((Options.ofNames names).run.run t).1 = .ok o →
    Options.Counted a names o
  options : ∀ t o, ((Options.ofArchive a).run.run t).1 = .ok o → Options.Counted a (Options.namesIn a) o

section

variable {a : Archive} (hnames : ∀ e ∈ a.entries, 0 ∉ ofString e.name)

include hnames

theorem importModules_converts (files : FileTree) (lib : Library) :
    Goes (importModules files lib a) fun r _ => ∀ e, r = .error e → ¬ e.IsConversion := by
  refine (importModules_goes files lib a []).mono ?_
  rintro _ l ⟨-, hfollowed⟩ e rfl herror
  obtain ⟨step, hstep, hunconverted⟩ := hfollowed.unconverted (show IsConversion (.bootstrap e) from herror)
  obtain ⟨entry, hentry, rfl⟩ := List.mem_map.1 hstep
  cases hunconverted with
  | module hnul => exact hnames entry (List.mem_filter.1 hentry).1 hnul

theorem runScripts_converts (files : FileTree) (lib : Library) (home : Path) : Goes (runScripts files lib a home) fun r _ =>
    ∀ e, r = .error e → e.IsConversion → 0 ∈ home ∧ ∃ nul, e = .pathNul nul := by
  refine (runScripts_goes files lib a home).mono ?_
  rintro _ l ⟨next, hfollowed, hending⟩ e rfl herror
  cases next with
  | go => cases hending
  | stop ending =>
    cases hending
    obtain ⟨step, hstep, hunconverted⟩ := hfollowed.unconverted (show IsConversion (.scripts e) from herror)
    cases hunconverted with
    | @script entry hnul =>
      refine ⟨?_, _, rfl⟩
      have hentry : entry ∈ a.entriesOf .script := by simpa [scripting] using hstep
      by_contra hhome
      exact zero_not_mem_rawFile hhome (hnames entry (List.mem_filter.1 hentry).1) hnul

end

theorem installCollections_converts {a : Archive} (hpath : 0 ∉ a.path) (lib : Library) :
    Goes (installCollections lib a) fun r _ => ∀ e, r = .error e → ¬ e.IsConversion := by
  refine (installCollections_goes .empty lib a []).mono ?_
  rintro _ l ⟨-, hfollowed⟩ e rfl herror
  obtain ⟨step, hstep, hunconverted⟩ := hfollowed.unconverted (show IsConversion (.bootstrap e) from herror)
  obtain ⟨entry, -, rfl⟩ := List.mem_map.1 hstep
  cases hunconverted with
  | collection hnul => exact hpath hnul

/-- Nothing in an archive that was opened trips a program over a conversion. -/
theorem opened_archive_converts (files : FileTree) (path : Path) (a : Archive) (h : Archive.read files path = .ok a) :
    Converts a := by
  obtain ⟨table, htable, -⟩ := exists_isTable_of_read h
  obtain ⟨content, hfile⟩ := exists_file_of_read h
  have hnames := htable.zero_not_mem_name
  have hpath : 0 ∉ a.path := by
    rw [path_of_read h]
    exact FileTree.zero_not_mem_of_lookup hfile
  refine ⟨fun e he => ⟨hnames e he, terminated_of_not_mem (hnames e he)⟩, ⟨hpath, fun offset => ?_⟩,
    fun files e data hdata => ⟨length_lt_of_extract hdata, signedLength?_of_extract hdata⟩,
    fun home hhome e he => terminated_of_not_mem (zero_not_mem_rawFile hhome (hnames e he)), importModules_converts hnames,
    installCollections_converts hpath, runScripts_converts hnames, fun names hfirst t o ho => ?_, fun t o ho => ?_⟩
  · rw [collectionLocation_eq, if_neg hpath]
  · rw [Options.ofNames_eq] at ho
    exact Options.counted_of_prefix h hfirst ho
  · rw [Options.ofArchive_eq] at ho
    exact Options.counted_of_prefix h List.prefix_rfl ho

/-- A build with a script, and with options that are counted. -/
def countingBuilder : Builder where
  version := 312
  libraryName := "lib"
  entries := [⟨.option, "v", [], 0, false⟩, ⟨.option, "O", [], 0, false⟩, ⟨.option, "verbose", [], 0, false⟩,
    ⟨.script, "s", [1], 1, false⟩]

theorem opened_archive_converts_counting :
    Archive.read ⟨fun _ => some (.file countingBuilder.bytes)⟩ (.ofString "app") =
        .ok (countingBuilder.archiveAt (.ofString "app") 0) ∧
      Converts (countingBuilder.archiveAt (.ofString "app") 0) := by
  have hread : Archive.read ⟨fun _ => some (.file countingBuilder.bytes)⟩ (.ofString "app") =
      .ok (countingBuilder.archiveAt (.ofString "app") 0) :=
    read_toBytes_alone (by decide) (toBytes_eq_bytes (by decide) (by decide +kernel)) rfl (by decide +kernel)
  exact ⟨hread, opened_archive_converts _ _ _ hread⟩

end FrozenApp.Program
