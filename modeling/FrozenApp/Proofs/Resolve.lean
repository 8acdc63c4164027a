import FrozenApp.Host
import FrozenApp.Proofs.Interpreter.Acts
import FrozenApp.Proofs.Package.Open
import FrozenApp.Proofs.Package.Signature
/-!
# Which package an executable gets

An executable that holds a package gets that one, and one that is not stamped
gets no other: what lies beside it makes no difference. `resolveArchive_trust`
says so for any two file systems that agree on the executable, and says where any
other package comes from.
-/

namespace FrozenApp

open Bytes Interpreter Package

/-- The file of an executable carries the magic that lets its package lie beside it. -/
def Stamped (files : FileTree) (executable : Path) : Prop :=
  ∃ content, files.lookup executable = .ok (.file content) ∧ ∃ i, OccursAt sideloadMagic content i

theorem hasSignature_iff_stamped (files : FileTree) (executable : Path) :
    hasSignature files executable sideloadMagic = .ok true ↔ Stamped files executable :=
  hasSignature_iff_occurs files executable (by decide) (by decide)

theorem sideloadPath_ne (executable : Path) : sideloadPath executable ≠ executable := by
  intro h
  have hlength := congrArg List.length h
  rw [show sideloadPath executable = executable ++ Path.dot :: Bytes.ofString sideloadExtension from rfl,
    List.length_append, List.length_cons] at hlength
  omega

/-! ## One file system -/

/-- How the search for a package goes. -/
inductive Resolved (files : FileTree) (executable : Path) : Except ResolveError Archive → Prop
  | embedded {a : Archive} (hembedded : Archive.read files executable = .ok a) : Resolved files executable (.ok a)
  | unsearched {cause : OpenError} {e : SignatureError} (hembedded : Archive.read files executable = .error cause)
      (hstamped : ¬ Stamped files executable) : Resolved files executable (.error (.unsearched executable e))
  | unstamped {cause : OpenError} (hembedded : Archive.read files executable = .error cause)
      (hstamped : ¬ Stamped files executable) : Resolved files executable (.error (.embedded executable cause))
  | beside {cause : OpenError} {a : Archive} (hembedded : Archive.read files executable = .error cause)
      (hstamped : Stamped files executable) (hbeside : Archive.read files (sideloadPath executable) = .ok a) :
      Resolved files executable (.ok a)
  | notBeside {cause e : OpenError} (hembedded : Archive.read files executable = .error cause)
      (hstamped : Stamped files executable) (hbeside : Archive.read files (sideloadPath executable) = .error e) :
      Resolved files executable (.error (.sideload (sideloadPath executable) e))

theorem resolveArchive_goes (files : FileTree) (executable : Path) :
    Goes (resolveArchive files executable) fun r l => Resolved files executable r ∧ l = [] := by
  refine .debug_bind ?_
  cases hembedded : Archive.read files executable with
  | ok embedded => exact .pure ⟨.embedded hembedded, rfl⟩
  | error cause =>
    refine .debug_bind ?_
    have hstamped := hasSignature_iff_stamped files executable
    cases hsignature : hasSignature files executable sideloadMagic with
    | error e =>
      rw [hsignature] at hstamped
      exact .throw ⟨.unsearched hembedded fun h => (nomatch hstamped.2 h), rfl⟩
    | ok found =>
      rw [hsignature] at hstamped
      cases found with
      | false => exact .throw ⟨.unstamped hembedded fun h => (nomatch hstamped.2 h), rfl⟩
      | true =>
        refine .debug_bind ?_
        cases hbeside : Archive.read files (sideloadPath executable) with
        | error e => exact .throw ⟨.notBeside hembedded (hstamped.1 rfl) hbeside, rfl⟩
        | ok beside => exact .pure ⟨.beside hembedded (hstamped.1 rfl) hbeside, rfl⟩

/-- The package of an executable that holds none: it lies beside the executable, which allows for it. -/
structure Sideloaded (files : FileTree) (executable : Path) (a : Archive) : Prop where
  not_embedded : ∃ e, Archive.read files executable = .error e
  stamped : Stamped files executable
  elsewhere : sideloadPath executable ≠ executable
  beside : Archive.read files (sideloadPath executable) = .ok a

theorem Resolved.eq_ok_iff {files : FileTree} {executable : Path} {r : Except ResolveError Archive}
    (h : Resolved files executable r) (a : Archive) :
    r = .ok a ↔ Archive.read files executable = .ok a ∨ Sideloaded files executable a := by
  constructor
  · rintro rfl
    cases h with
    | embedded hembedded => exact .inl hembedded
    | beside hembedded hstamped hbeside =>
      exact .inr ⟨⟨_, hembedded⟩, hstamped, sideloadPath_ne executable, hbeside⟩
  · rintro (ha | ⟨⟨e, he⟩, hstamped, -, ha⟩)
    · cases h with
      | embedded hembedded => cases hembedded.symm.trans ha; rfl
      | unsearched hembedded | unstamped hembedded | beside hembedded | notBeside hembedded =>
        cases hembedded.symm.trans ha
    · cases h with
      | embedded hembedded => cases hembedded.symm.trans he
      | unsearched _ hnot | unstamped _ hnot => exact absurd hstamped hnot
      | beside _ _ hbeside => cases hbeside.symm.trans ha; rfl
      | notBeside _ _ hbeside => cases hbeside.symm.trans ha

/-! ## Two file systems -/

section Agree

variable {files files' : FileTree} {path : Path}

theorem read_congr (h : files.lookup path = files'.lookup path) : Archive.read files path = Archive.read files' path := by
  rw [Archive.read, Archive.read, h]

theorem hasSignature_congr (h : files.lookup path = files'.lookup path) (magic : Bytes) :
    hasSignature files path magic = hasSignature files' path magic := by
  rw [hasSignature, hasSignature, h]

end Agree

/-- Nothing is read beside an executable that holds a package or is not stamped. -/
theorem resolveArchive_congr {files files' : FileTree} {executable : Path}
    (h : files.lookup executable = files'.lookup executable)
    (hclosed : (∃ a, Archive.read files executable = .ok a) ∨ ¬ Stamped files executable) :
    resolveArchive files executable = resolveArchive files' executable := by
  rw [resolveArchive, resolveArchive, ← read_congr h, ← hasSignature_congr h]
  congr 1
  funext _
  cases hembedded : Archive.read files executable with
  | ok a => rfl
  | error cause =>
    have hnot : ¬ Stamped files executable := by
      rcases hclosed with ⟨a, ha⟩ | hnot
      · rw [hembedded] at ha
        cases ha
      · exact hnot
    cases hsignature : hasSignature files executable sideloadMagic with
    | error e => rfl
    | ok found =>
      cases found with
      | false => rfl
      | true => exact absurd ((hasSignature_iff_stamped files executable).1 hsignature) hnot

/-- What lies beside an executable makes no difference where the executable holds a package
or is not stamped. An executable gets the package that it holds, or the one beside it if
it holds none and is stamped. -/
theorem resolveArchive_trust (executable : Path) :
    (∀ files files' : FileTree, files.lookup executable = files'.lookup executable →
      (∃ a, Archive.read files executable = .ok a) ∨ ¬ Stamped files executable →
        resolveArchive files executable = resolveArchive files' executable) ∧
    ∀ files, Goes (resolveArchive files executable) fun r _ =>
      ∀ a, r = .ok a ↔ Archive.read files executable = .ok a ∨ Sideloaded files executable a :=
  ⟨fun _ _ => resolveArchive_congr, fun files => (resolveArchive_goes files executable).mono fun _ _ h => h.1.eq_ok_iff⟩

/-- An executable `/a` that is neither a package nor stamped. -/
def plainFiles : FileTree :=
  FileTree.empty.put ⟨.root, [[97]]⟩ (.file [0x7F, 0x45, 0x4C, 0x46])

/-- A package without entries: the cookie alone, its name field filled with NULs. -/
def barePackage : Bytes :=
  cookieMagic ++ (ofUInt32 88 ++ (ofUInt32 0 ++ (ofUInt32 0 ++ (ofUInt32 310 ++ List.replicate 64 0))))

/-- `plainFiles` with a package beside the executable. -/
def sideloadFiles : FileTree :=
  plainFiles.put ⟨.root, [[97, 46, 112, 107, 103]]⟩ (.file barePackage)

theorem resolveArchive_trust_plain :
    plainFiles.lookup [47, 97] = sideloadFiles.lookup [47, 97] ∧ ¬ Stamped plainFiles [47, 97] ∧
      Archive.read sideloadFiles (sideloadPath [47, 97]) = .ok ⟨sideloadPath [47, 97], 0, ⟨88, 0, 0, 310, ""⟩, []⟩ ∧
      resolveArchive plainFiles [47, 97] = resolveArchive sideloadFiles [47, 97] := by
  have hagree : plainFiles.lookup [47, 97] = sideloadFiles.lookup [47, 97] := by decide
  have hstamped : ¬ Stamped plainFiles [47, 97] := by
    rintro ⟨content, hfile, i, hi⟩
    cases (show plainFiles.lookup [47, 97] = .ok (.file [0x7F, 0x45, 0x4C, 0x46]) by decide).symm.trans hfile
    have hle : i + 8 ≤ 4 := hi.le_length (by decide)
    omega
  exact ⟨hagree, hstamped, by decide +kernel, (resolveArchive_trust [47, 97]).1 _ _ hagree (.inr hstamped)⟩

end FrozenApp
