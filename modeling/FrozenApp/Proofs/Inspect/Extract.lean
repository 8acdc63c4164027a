import FrozenApp.Inspect.Command
import FrozenApp.Proofs.Directories
import FrozenApp.Proofs.Package.Extract
/-!
# What extracting leaves behind

An entry is extracted before anything is written, so that the files stay as they are
where that fails (`Unpacking`). Otherwise directories are made around the destination,
and one file is written, which may be the archive itself (`Deposited`). That succeeds where no file
stands in the way of the directories (`Unpacks`).
`extraction_touches_destination`: this holds of any entry, and of the command that
looks one up by its name.
-/

namespace FrozenApp.Package

/-! ## Extracting into a file -/

/-- How extracting an entry into a file ends. -/
inductive Unpacking (a : Archive) (e : Entry) (destination : Path) (t : FileTree) :
    Except UnpackError Unit → FileTree → Prop
  | damaged {cause : ExtractError} (hpayload : a.extract t e = .error cause) :
      Unpacking a e destination t (.error (.extract cause)) t
  | unfurnished {payload : Bytes} {around : Path} {cause : FileError} {t' : FileTree}
      (hpayload : a.extract t e = .ok payload) (hmade : t.Furnished destination.Around t') :
      Unpacking a e destination t (.error (.directory around cause)) t'
  | unwritten {payload : Bytes} {cause : FileError} {t' : FileTree} (hpayload : a.extract t e = .ok payload)
      (hmade : t.Furnished destination.Around t') (hrefused : ∀ l, ¬ t'.Writable destination l) :
      Unpacking a e destination t (.error (.write destination cause)) t'
  | written {payload : Bytes} {l : Location} {made t' : FileTree} (hpayload : a.extract t e = .ok payload)
      (hmade : t.Furnished destination.Around made)
      (haround : ∀ around, destination.parent? = some around →
        around.isEmpty = true ∨ made.isDirectory around = true)
      (hwritten : made.Written destination l payload t') : Unpacking a e destination t (.ok ()) t'

theorem extractToFile_changes (a : Archive) (e : Entry) (destination : Path) (t : FileTree) :
    Changes (a.extractToFile e destination) t (Unpacking a e destination t) := by
  refine .get_bind ?_
  cases hpayload : a.extract t e with
  | error cause => exact .throw (.damaged hpayload)
  | ok payload =>
    -- the file is written behind directories that are there
    have hwrite : ∀ t', t.Furnished destination.Around t' →
        (∀ around, destination.parent? = some around → around.isEmpty = true ∨ t'.isDirectory around = true) →
        Changes ((FileM.writeFile destination payload).adapt (.write destination)) t' (Unpacking a e destination t) := by
      intro t' hmade haround
      refine .adapt ((FileM.writeFile_changes t' destination payload).mono fun r t'' h => ?_)
      cases h with
      | written h => exact .written hpayload hmade haround h
      | refused h => exact .unwritten hpayload hmade h
    cases hparent : destination.parent? with
    | none => exact hwrite t (.refl t _) (by rw [hparent]; nofun)
    | some around =>
      dsimp only
      split
      next hempty =>
        refine hwrite t (.refl t _) fun around' h => .inl ?_
        rw [hparent] at h
        cases h
        exact hempty
      refine .adapt_bind (FileM.makeDirectories_changes around t) (fun _ t' ⟨hmade, hdir⟩ => ?_) fun cause t' ⟨hmade, _⟩ => ?_
      · refine hwrite t' (hmade.mono fun q => Path.around_of_within hparent) fun around' h => ?_
        rw [hparent] at h
        cases h
        exact hdir rfl
      · exact .unfurnished hpayload (hmade.mono fun q => Path.around_of_within hparent)

/-- What is found after a payload has been put into a file. -/
structure Deposited (t : FileTree) (destination : Path) (payload : Bytes) (t' : FileTree) : Prop where
  reads : t'.lookup destination = .ok (.file payload)
  /-- The directory around the file is there. -/
  around : ∀ around, destination.parent? = some around → around.isEmpty = true ∨ t'.isDirectory around = true
  /-- The file stands in one place, and no directory stood there. -/
  others : ∃ l, t'.locate destination = .ok l ∧ t.get? l ≠ some .directory ∧
    -- whatever path led there reads the payload, that of the archive included
    (∀ q, t.locate q = .ok l → t'.lookup q = .ok (.file payload)) ∧
    -- whatever other path led to something still does
    (∀ q node, t.lookup q = .ok node → t.locate q ≠ .ok l → t'.lookup q = .ok node) ∧
    -- everywhere else there is what was there, apart from directories around the destination
    ∀ m ≠ l, t'.get? m = t.get? m ∨
      t.get? m = none ∧ t'.get? m = some .directory ∧ ∃ q, destination.Around q ∧ t'.locate q = .ok m

section

variable {t made t' : FileTree} {destination : Path} {payload : Bytes} {l : Location}

theorem deposited_of_written (hmade : t.Furnished destination.Around made)
    (haround : ∀ around, destination.parent? = some around →
      around.isEmpty = true ∨ made.isDirectory around = true)
    (hwritten : made.Written destination l payload t') : Deposited t destination payload t' where
  reads := hwritten.rewritten.reads
  around around hparent := by
    refine (haround around hparent).imp_right fun hdir => ?_
    obtain ⟨m, hm, hdir⟩ := (FileTree.isDirectory_iff ..).1 hdir
    exact (FileTree.isDirectory_iff ..).2 ⟨m, hwritten.locate_of_locate hm, (hwritten.directory_iff m).2 hdir⟩
  others := by
    refine ⟨l, hwritten.locate_self, fun hdir => hwritten.before.2 (hmade.get?_of_get? hdir), fun q hq => ?_,
      fun q node hnode hq => ?_, fun m hm => ?_⟩
    · exact (FileTree.lookup_eq_ok_iff ..).2 ⟨l, hwritten.locate_of_locate (hmade.locate_of_locate hq), hwritten.file⟩
    · obtain ⟨m, hm, hnode⟩ := (FileTree.lookup_eq_ok_iff ..).1 hnode
      have hne : m ≠ l := by rintro rfl; exact hq hm
      refine (FileTree.lookup_eq_ok_iff ..).2 ⟨m, hwritten.locate_of_locate (hmade.locate_of_locate hm), ?_⟩
      rw [hwritten.elsewhere m hne, hmade.get?_of_get? hnode]
    · rw [hwritten.elsewhere m hm]
      refine (hmade m).imp_right fun ⟨hnone, hdir, q, hq, hqm⟩ => ⟨hnone, hdir, q, hq, hwritten.locate_of_locate hqm⟩

theorem Unpacking.furnished {a : Archive} {e : Entry} {cause : UnpackError}
    (h : Unpacking a e destination t (.error cause) t') :
    t.Furnished destination.Around t' ∧ ∀ q node, t.lookup q = .ok node → t'.lookup q = .ok node := by
  cases h with
  | damaged => exact ⟨.refl t _, fun _ _ => id⟩
  | unfurnished _ hmade | unwritten _ hmade => exact ⟨hmade, fun _ _ => hmade.lookup_of_lookup⟩

theorem Unpacking.deposited {a : Archive} {e : Entry} (h : Unpacking a e destination t (.ok ()) t') :
    ∃ payload, a.extract t e = .ok payload ∧ Deposited t destination payload t' := by
  cases h with
  | written hpayload hmade haround hwritten => exact ⟨_, hpayload, deposited_of_written hmade haround hwritten⟩

end

/-- What extracting an entry into a file comes to. -/
structure Unpacks (a : Archive) (e : Entry) (destination : Path) (t : FileTree) : Prop where
  /-- An entry that cannot be extracted changes nothing. -/
  damaged : ∀ cause, a.extract t e = .error cause →
    (a.extractToFile e destination).run.run t = (.error (.extract cause), t)
  /-- Where it fails later, there may be new directories around the destination, but no file has changed. -/
  failed : ∀ cause t', (a.extractToFile e destination).run.run t = (.error cause, t') →
    t.Furnished destination.Around t' ∧ ∀ q node, t.lookup q = .ok node → t'.lookup q = .ok node
  done : ∀ t', (a.extractToFile e destination).run.run t = (.ok (), t') →
    ∃ payload, a.extract t e = .ok payload ∧ Deposited t destination payload t'
  /-- It does not fail where the directory around a destination is there that can be written. -/
  succeeds : ∀ payload l, a.extract t e = .ok payload → t.Writable destination l →
    (∀ around, destination.parent? = some around → around.isEmpty = true ∨ t.isDirectory around = true) →
    ∃ t', (a.extractToFile e destination).run.run t = (.ok (), t')
  /-- Nor where directories are missing around a destination, but no file stands in their way. -/
  succeeds_behind : ∀ payload, a.extract t e = .ok payload → t.Admits destination →
    ∃ t', (a.extractToFile e destination).run.run t = (.ok (), t')

/-- Extracting succeeds where the directories around the destination are made, if there are to be any, and
the destination can be written then. -/
theorem extractToFile_ok {a : Archive} {e : Entry} {destination : Path} {t : FileTree} {payload : Bytes}
    (hpayload : a.extract t e = .ok payload)
    (hbare : (∀ around, destination.parent? = some around → around.isEmpty = true) → ∃ l, t.Writable destination l)
    (hmade : ∀ around, destination.parent? = some around → around.isEmpty = false →
      Changes (FileM.makeDirectories around) t fun r t' => r = .ok () ∧ ∃ l, t'.Writable destination l) :
    ∃ t', (a.extractToFile e destination).run.run t = (.ok (), t') := by
  have hwrite : ∀ t' : FileTree, (∃ l, t'.Writable destination l) →
      Changes ((FileM.writeFile destination payload).adapt (.write destination)) t' fun r _ =>
        r = (.ok () : Except UnpackError Unit) := by
    rintro t' ⟨l, hl⟩
    refine .adapt ((FileM.writeFile_changes t' destination payload).mono fun r t'' h => ?_)
    cases h with
    | written => rfl
    | refused h => exact absurd hl (h l)
  have hchanges : Changes (a.extractToFile e destination) t fun r _ => r = .ok () := by
    refine .get_bind ?_
    rw [hpayload]
    dsimp only
    cases hparent : destination.parent? with
    | none => exact hwrite t (hbare (by rw [hparent]; nofun))
    | some around =>
      dsimp only
      split
      next hempty =>
        refine hwrite t (hbare fun around' h => ?_)
        rw [hparent] at h
        cases h
        exact hempty
      next hnonempty =>
        refine .adapt_bind (hmade around hparent (by simpa using hnonempty)) (fun _ t' ⟨_, hl⟩ => hwrite t' hl) ?_
        rintro _ _ ⟨hok, -⟩
        cases hok
  exact ⟨_, Prod.ext hchanges rfl⟩

theorem unpacks (a : Archive) (e : Entry) (destination : Path) (t : FileTree) : Unpacks a e destination t where
  damaged cause hcause := by
    refine Changes.run_eq (.get_bind ?_)
    rw [hcause]
    exact .throw rfl
  failed cause t' hrun := ((extractToFile_changes a e destination t).of_run hrun).furnished
  done t' hrun := ((extractToFile_changes a e destination t).of_run hrun).deposited
  succeeds payload l hpayload hl haround := by
    refine extractToFile_ok hpayload (fun _ => ⟨l, hl⟩) fun around hparent hnonempty => ?_
    have hdir : t.isDirectory around = true :=
      (haround around hparent).resolve_left fun hempty => nomatch hempty.symm.trans hnonempty
    exact (FileM.makeDirectories_of_isDirectory hdir).mono fun _ _ ⟨hok, ht'⟩ => ⟨hok, l, ht' ▸ hl⟩
  succeeds_behind payload hpayload hadmits := by
    refine extractToFile_ok hpayload (fun hempty => ?_) fun around hparent _ => ?_
    · exact ⟨_, hadmits.writable (.refl t _) fun around hparent => .inl (hempty around hparent)⟩
    · refine ((FileM.makeDirectories_ok hadmits hparent).and (FileM.makeDirectories_changes around t)).mono ?_
      rintro _ t' ⟨rfl, hmade, hdir⟩
      refine ⟨rfl, _, hadmits.writable (hmade.mono fun q => Path.around_of_within hparent) fun around' h => ?_⟩
      rw [hparent] at h
      cases h
      exact hdir rfl

end FrozenApp.Package

namespace FrozenApp.Inspect

open Package

/-! ## The command -/

theorem openArchive_changes (path : Path) (t : FileTree) : Changes (openArchive path) t fun r t' =>
    r = (Archive.read t path).mapError .unopened ∧ t' = t := by
  refine .get_bind ?_
  cases Archive.read t path with
  | error e => exact .throw ⟨rfl, rfl⟩
  | ok a => exact .pure ⟨rfl, rfl⟩

/-- The command looks the entry up, and has it extracted. -/
theorem run_extract_eq (path : Path) (name : String) (destination : Path) (t : FileTree) :
    (Command.extract path name destination).run.run.run t =
      match Archive.read t path with
      | .error e => (.error (.unopened e), t)
      | .ok a =>
        match a.find? name with
        | none => (.error (.noEntry name path), t)
        | some e =>
          match (a.extractToFile e destination).run.run t with
          | (.error cause, t') => (.error (.unpack cause), t')
          | (.ok (), t') => (.ok ⟨"", s!"wrote {destination.display} ({e.uncompressedLength} bytes)\n"⟩, t') := by
  refine Changes.run_eq (.bind (openArchive_changes path t) (fun a t' ⟨hread, ht'⟩ => ?_) fun e t' ⟨hread, ht'⟩ => ?_)
  · cases ha : Archive.read t path with
    | error e => rw [ha] at hread; cases hread
    | ok a =>
      rw [ha] at hread
      cases hread
      rw [ht']
      cases he : a.find? name with
      | none => exact .throw (by simp only [he])
      | some e =>
        refine .adapt_bind (.self _ t) (fun _ t' hrun => ?_) fun _ t' hrun => ?_
        · exact .pure (by simp only [he, hrun])
        · simp only [he, hrun]
  · cases ha : Archive.read t path with
    | ok => rw [ha] at hread; cases hread
    | error e => rw [ha] at hread; cases hread; rw [ht']

/-- What the command that extracts an entry comes to. -/
structure Extracts (path : Path) (name : String) (destination : Path) (t : FileTree) : Prop where
  /-- Where there is no payload, the command says why, and the files stay as they are. -/
  unopened : ∀ e, Archive.read t path = .error e →
    (Command.extract path name destination).run.run.run t = (.error (.unopened e), t)
  missing : ∀ a, Archive.read t path = .ok a → a.find? name = none →
    (Command.extract path name destination).run.run.run t = (.error (.noEntry name path), t)
  damaged : ∀ a e cause, Archive.read t path = .ok a → a.find? name = some e → a.extract t e = .error cause →
    (Command.extract path name destination).run.run.run t = (.error (.unpack (.extract cause)), t)
  /-- Where it fails later, there may be new directories around the destination, but no file has changed. -/
  failed : ∀ cause t', (Command.extract path name destination).run.run.run t = (.error cause, t') →
    t.Furnished destination.Around t' ∧ ∀ q node, t.lookup q = .ok node → t'.lookup q = .ok node
  /-- It tells the length of the payload. -/
  done : ∀ output t', (Command.extract path name destination).run.run.run t = (.ok output, t') →
    ∃ a e payload, Archive.read t path = .ok a ∧ a.find? name = some e ∧ a.extract t e = .ok payload ∧
      Deposited t destination payload t' ∧
      output = ⟨"", s!"wrote {destination.display} ({payload.length} bytes)\n"⟩
  /-- It does not fail where the entry can be extracted into the file. -/
  succeeds : ∀ a e t', Archive.read t path = .ok a → a.find? name = some e →
    (a.extractToFile e destination).run.run t = (.ok (), t') →
    ∃ output, (Command.extract path name destination).run.run.run t = (.ok output, t')

theorem extracts (path : Path) (name : String) (destination : Path) (t : FileTree) :
    Extracts path name destination t where
  unopened e he := by rw [run_extract_eq, he]
  missing a ha hnone := by
    rw [run_extract_eq, ha]
    dsimp only
    rw [hnone]
  damaged a e cause ha he hcause := by
    rw [run_extract_eq, ha]
    dsimp only
    rw [he]
    dsimp only
    rw [(unpacks a e destination t).damaged cause hcause]
  failed cause t' hrun := by
    rw [run_extract_eq] at hrun
    split at hrun
    · cases hrun
      exact ⟨.refl t _, fun _ _ => id⟩
    next a _ =>
    split at hrun
    · cases hrun
      exact ⟨.refl t _, fun _ _ => id⟩
    next e _ =>
    split at hrun
    next hunpack =>
      cases hrun
      exact (unpacks a e destination t).failed _ _ hunpack
    · cases hrun
  done output t' hrun := by
    rw [run_extract_eq] at hrun
    split at hrun
    · cases hrun
    next a ha =>
    split at hrun
    · cases hrun
    next e he =>
    split at hrun
    · cases hrun
    next hunpack =>
      cases hrun
      obtain ⟨payload, hpayload, hdeposited⟩ := (unpacks a e destination t).done _ hunpack
      refine ⟨a, e, payload, ha, he, hpayload, hdeposited, ?_⟩
      rw [length_of_extract hpayload]
      rfl
  succeeds a e t' ha he hrun := by
    rw [run_extract_eq, ha]
    dsimp only
    rw [he]
    dsimp only
    rw [hrun]
    exact ⟨_, rfl⟩

/-- Extracting writes the destination, and nothing else but directories around it; where there is
no payload, it writes nothing at all. The entry need not be one of the archive's, and the
destination may be the archive itself. -/
theorem extraction_touches_destination (t : FileTree) (destination : Path) :
    (∀ a e, Unpacks a e destination t) ∧ ∀ path name, Extracts path name destination t :=
  ⟨fun a e => unpacks a e destination t, fun path name => extracts path name destination t⟩

/-- Two directories are made on the way to the destination. -/
example : (((Archive.mk [97] 0 ⟨0, 3, 0, 0, ""⟩ []).extractToFile ⟨1, 2, 2, false, .data, ""⟩ [120, 47, 121, 47, 122]).run.run
    (FileTree.empty.put ⟨.working 0, [[97]]⟩ (.file [1, 2, 3]))).2.lookup [120, 47, 121, 47, 122] = .ok (.file [2, 3]) := by
  decide

end FrozenApp.Inspect
