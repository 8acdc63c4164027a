import FrozenApp.Inspect.Report
import FrozenApp.Proofs.Launch
import FrozenApp.Proofs.Options
import FrozenApp.Proofs.Package.RoundTrip
/-!
# The layout in a summary

A summary names the layout for a build that is not free-threaded, whatever the
package says about its interpreter. A launch goes by what the package says.
`summary_layout_iff`: the two agree unless the package asks for a free-threaded
build of a version that has a layout.
-/

namespace FrozenApp

open Config (Layout SelectError)
open Interpreter Package Inspect Program

/-! ## Selecting a layout -/

namespace Config.Layout

theorem mem_all (l : Layout) : l ∈ all := by
  cases l <;> decide

theorem eq_of_version {l l' : Layout} (hversion : l.version = l'.version) (hbuild : l.freeThreaded = l'.freeThreaded) :
    l = l' := by
  have h : ∀ l ∈ all, ∀ l' ∈ all, l.version = l'.version → l.freeThreaded = l'.freeThreaded → l = l' := by decide
  exact h l (mem_all l) l' (mem_all l') hversion hbuild

theorem select_eq_ok_iff {version : Version} {freeThreaded : Bool} {l : Layout} :
    select version freeThreaded = .ok l ↔ l.version = version ∧ l.freeThreaded = freeThreaded := by
  rw [select]
  cases hfind : all.find? fun l => l.version = version && l.freeThreaded == freeThreaded with
  | none =>
    have hnone := List.find?_eq_none.1 hfind l (mem_all l)
    simp only [Bool.and_eq_true, decide_eq_true_eq, beq_iff_eq] at hnone
    refine iff_of_false (fun h => ?_) hnone
    dsimp only at h
    split at h <;> cases h
  | some found =>
    have hfound := List.find?_some hfind
    simp only [Bool.and_eq_true, decide_eq_true_eq, beq_iff_eq] at hfound
    refine ⟨fun h => by cases h; exact hfound, fun ⟨hversion, hbuild⟩ => ?_⟩
    rw [eq_of_version (hversion.trans hfound.1.symm) (hbuild.trans hfound.2.symm)]

/-- A layout can be told by what messages call it. -/
theorem display_injective {l l' : Layout} (h : l.display = l'.display) : l = l' := by
  have hall : ∀ l ∈ all, ∀ l' ∈ all, l.display = l'.display → l = l' := by decide
  exact hall l (mem_all l) l' (mem_all l') h

/-- A version with a free-threaded build has another one too. -/
theorem exists_not_freeThreaded (l : Layout) : ∃ l' : Layout, l'.version = l.version ∧ l'.freeThreaded = false := by
  have h : ∀ l ∈ all, ∃ l' ∈ all, l'.version = l.version ∧ l'.freeThreaded = false := by decide
  obtain ⟨l', -, hl'⟩ := h l (mem_all l)
  exact ⟨l', hl'⟩

theorem toOption_select_eq_none {version : Version} (h : ∀ l : Layout, l.version ≠ version) (freeThreaded : Bool) :
    (select version freeThreaded).toOption = none := by
  cases hselect : select version freeThreaded with
  | error => rfl
  | ok l => exact absurd (select_eq_ok_iff.1 hselect).1 (h l)

/-- For a version that has a layout, those of its builds are called by different names. -/
theorem display_select_eq_iff (version : Version) (freeThreaded : Bool) :
    (select version false).toOption.map display = (select version freeThreaded).toOption.map display ↔
      (freeThreaded = true → ∀ l : Layout, l.version ≠ version) := by
  constructor
  · rintro h rfl l rfl
    obtain ⟨l', hversion, hbuild⟩ := exists_not_freeThreaded l
    rw [select_eq_ok_iff.2 ⟨hversion, hbuild⟩] at h
    cases hselect : select l.version true with
    | error => rw [hselect] at h; cases h
    | ok found =>
      rw [hselect] at h
      have hfound := (select_eq_ok_iff.1 hselect).2
      rw [← display_injective (Option.some.inj h), hbuild] at hfound
      cases hfound
  · intro h
    cases freeThreaded with
    | false => rfl
    | true => rw [toOption_select_eq_none (h rfl), toOption_select_eq_none (h rfl)]

end Config.Layout

/-! ## The layout of a launch -/

/-- The layout for an archive with these options. -/
def layoutFor (a : Archive) (options : Options) : Except SelectError Layout :=
  Layout.select ⟨a.cookie.version⟩ options.launch.freeThreaded

/-- Does a package ask for an interpreter that is free-threaded? -/
def AsksFreeThreaded (a : Archive) : Prop :=
  ∃ e ∈ a.entriesOf .option, Options.read e.name = .freeThreaded

theorem freeThreaded_iff {a : Archive} {options : Options} {t : Trace}
    (h : ((Options.ofArchive a).run.run t).1 = .ok options) :
    options.launch.freeThreaded = true ↔ AsksFreeThreaded a := by
  rw [Options.ofArchive_eq] at h
  rw [Options.addNames_freeThreaded h]
  simp [Options.namesIn, AsksFreeThreaded]

/-- A launch takes the options of its package. -/
theorem Host.new_returns {a : Archive} {options : Options} {t : Trace}
    (h : ((Options.ofArchive a).run.run t).1 = .ok options) (executable : Path) (argv : List Bytes) :
    Returns (Host.new executable a argv) fun host => host.archive = a ∧ host.options = options := by
  rw [Options.ofArchive_eq] at h
  have hread : Goes ((Options.ofArchive a).adapt HostError.options) fun r _ => r = .ok options :=
    .map ((Options.ofArchive_goes a).mono fun r _ ⟨hr, _⟩ => by rw [hr, h]; rfl)
  refine Goes.bind hread (fun found _ hfound => ?_) fun _ _ he => nomatch he
  cases hfound
  cases FrozenApp.home executable options.launch.contentsDirectory with
  | error e => exact .throw nofun
  | ok home =>
    refine .debug_bind (.debug_bind (.debug_bind (.pure fun host hhost => ?_)))
    cases hhost
    exact ⟨rfl, rfl⟩

/-- A summary names the layout that a launch of the archive selects unless the
package asks for a free-threaded build of a version that has a layout. -/
theorem summary_layout_iff (a : Archive) (options : Options) (t : Trace)
    (h : ((Options.ofArchive a).run.run t).1 = .ok options) :
    (a.isOnefile = false → ∀ executable argv, Returns (Host.new executable a argv) fun host =>
      host.selectLayout = (layoutFor a options).mapError LaunchError.noLayout) ∧
    ((summary a).layout = (layoutFor a options).toOption.map Layout.display ↔
      (AsksFreeThreaded a → ∀ l : Layout, l.version ≠ ⟨a.cookie.version⟩)) := by
  constructor
  · intro honefile executable argv
    refine (Host.new_returns h executable argv).mono fun r _ hr host hhost => ?_
    obtain ⟨harchive, hoptions⟩ := hr host hhost
    rw [Host.selectLayout_eq (by rwa [harchive]), Host.version, harchive, hoptions, layoutFor]
  · rw [← freeThreaded_iff h]
    exact Layout.display_select_eq_iff _ _

/-- The options of `sampleBuilder`. -/
def sampleOptions : Options where
  interpreter := { unbuffered := true }

/-- The sample does not ask for a free-threaded build, so its summary names the right layout. -/
theorem summary_layout_iff_sample : ((Options.ofArchive (sampleBuilder.archiveAt [97] 8)).run.run []).1 = .ok sampleOptions ∧
    (summary (sampleBuilder.archiveAt [97] 8)).layout =
      (layoutFor (sampleBuilder.archiveAt [97] 8) sampleOptions).toOption.map Layout.display := by
  have h : ((Options.ofArchive (sampleBuilder.archiveAt [97] 8)).run.run []).1 = .ok sampleOptions := by
    rw [Options.ofArchive_eq]
    rfl
  exact ⟨h, (summary_layout_iff _ sampleOptions [] h).2.2 fun hasks => nomatch (freeThreaded_iff h).2 hasks⟩

/-- A package for a free-threaded build of 3.13. -/
def freeThreadedBuilder : Builder where
  version := 313
  libraryName := "libpython3.13t.so.1.0"
  entries := [⟨.option, "pyi-python-flag Py_GIL_DISABLED", [], 0, false⟩]

theorem toBytes_freeThreadedBuilder : freeThreadedBuilder.toBytes = .ok freeThreadedBuilder.bytes :=
  toBytes_eq_bytes (by decide) (by decide)

/-- The executable `/app` with a package for a free-threaded build. Its summary
names another layout than the launch selects. -/
theorem summary_layout_free_threaded :
    Archive.read ⟨fun _ => some (.file freeThreadedBuilder.bytes)⟩ (.ofString "/app") =
        .ok (freeThreadedBuilder.archiveAt (.ofString "/app") 0) ∧
      (∃ host, ((Host.new (.ofString "/app") (freeThreadedBuilder.archiveAt (.ofString "/app") 0) []).run.run []).1 = .ok host ∧
        host.selectLayout = .ok .v313FreeThreaded) ∧
      Layout.v313FreeThreaded.display = "PyConfig 3.13 (free-threaded)" ∧
      (summary (freeThreadedBuilder.archiveAt (.ofString "/app") 0)).layout = some "PyConfig 3.13" := by
  refine ⟨?_, ⟨_, rfl, by decide +kernel⟩, by decide +kernel, by decide +kernel⟩
  refine @read_toBytes _ _ _ _ [] [] (by decide) toBytes_freeThreadedBuilder ?_ (magic_bounded (by decide +kernel))
  rw [List.nil_append, List.append_nil]
  rfl

end FrozenApp
