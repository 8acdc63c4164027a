import FrozenApp.FileTree
import Mathlib.Logic.Relation
/-!
# What file operations change

A path is walked through directories only, so it leads to the same place as long as
these stay (`locate_of_directories`). A file is written at one place and nowhere else
(`Written`), and directories are made where nothing stood (`Furnished`).
-/

namespace FrozenApp

namespace Path

/-- `q` is `p`, or a path around it. -/
def Within : Path → Path → Prop :=
  Relation.ReflTransGen fun p around => p.parent? = some around

/-- `q` is a path around `p`. -/
def Around : Path → Path → Prop :=
  Relation.TransGen fun p around => p.parent? = some around

theorem around_of_within {p around q : Path} (h : p.parent? = some around) (hq : around.Within q) : p.Around q :=
  .head' h hq

end Path

theorem Location.names_child_ne_nil (l : Location) (name : Bytes) : (l.child name).names ≠ [] := by
  simp [child]

namespace FileTree

variable {t t' : FileTree} {l m : Location} {p q : Path} {content more : Bytes} {node : Node}

theorem get?_put_self (hl : l.names ≠ []) : (t.put l node).get? l = some node := by
  simp [get?, put, hl]

theorem get?_put_of_ne (hm : m ≠ l) : (t.put l node).get? m = t.get? m := by
  simp [get?, put, hm]

/-! ## Walking a path -/

theorem get?_of_descend {names : List Bytes} (hl : t.get? l = some .directory) (h : t.descend l names = .ok m) :
    t.get? m = some .directory := by
  induction names generalizing l with
  | nil => cases h; exact hl
  | cons name names ih =>
    rw [descend] at h
    split at h
    · cases h
    split at h
    · cases h
    · cases h
    next hstep => exact ih hstep h

theorem descend_of_directories (hdirs : ∀ m, t.get? m = some .directory → t'.get? m = some .directory)
    {names : List Bytes} (h : t.descend l names = .ok m) : t'.descend l names = .ok m := by
  induction names generalizing l with
  | nil => exact h
  | cons name names ih =>
    rw [descend] at h ⊢
    split at h
    · cases h
    next hlength =>
    rw [if_neg hlength]
    split at h
    · cases h
    · cases h
    next hstep =>
    rw [hdirs _ hstep]
    exact ih h

/-- A walk looks at the directories along some names, and at nothing else. -/
theorem exists_descend_of_walk {target : Target} (h : t.walk p = .ok target) : ∃ names,
    t.descend p.origin names = .ok target.directory ∧
      ∀ t' : FileTree, t'.descend p.origin names = .ok target.directory → t'.walk p = .ok target := by
  simp only [walk] at h ⊢
  split at h
  · cases h
  next hnul =>
  split at h
  · cases h
  next hempty =>
  split at h
  · cases h
  next hlength =>
  simp only [if_neg hnul, if_neg hempty, if_neg hlength]
  generalize (Path.splitSlash p).filter (!·.isEmpty) = names at h ⊢
  split at h
  next hnone =>
    cases h
    exact ⟨[], rfl, fun _ _ => rfl⟩
  split at h
  next last _ hproper =>
    cases hdescend : t.descend p.origin names.dropLast with
    | error e => rw [hdescend] at h; cases h
    | ok directory =>
      simp only [hdescend, if_pos hproper] at h ⊢
      change (if _ then _ else _) = _ at h
      split at h
      · cases h
      next hlast =>
      cases h
      refine ⟨_, hdescend, fun t' h' => ?_⟩
      rw [h']
      exact if_neg hlast
  next last _ hproper =>
    cases hdescend : t.descend p.origin names with
    | error e => rw [hdescend] at h; cases h
    | ok directory =>
      rw [hdescend] at h
      cases h
      refine ⟨_, hdescend, fun t' h' => ?_⟩
      rw [if_neg hproper, h']
      rfl

theorem get?_of_walk {target : Target} (h : t.walk p = .ok target) : t.get? target.directory = some .directory := by
  obtain ⟨names, hdescend, -⟩ := exists_descend_of_walk h
  exact get?_of_descend rfl hdescend

theorem walk_of_directories (hdirs : ∀ m, t.get? m = some .directory → t'.get? m = some .directory) {target : Target}
    (h : t.walk p = .ok target) : t'.walk p = .ok target := by
  obtain ⟨names, hdescend, hwalk⟩ := exists_descend_of_walk h
  exact hwalk t' (descend_of_directories hdirs hdescend)

/-- No path with a NUL leads anywhere. -/
theorem zero_not_mem_of_lookup (h : t.lookup p = .ok node) : 0 ∉ p := by
  intro hnul
  have hwalk : t.walk p = .error .nulInName := if_pos (by simpa using hnul)
  rw [lookup, locate, hwalk] at h
  cases h

/-- The last name of a path belongs at `l`, whatever stands there; `trailing` says whether it
has to be a directory. -/
def LeadsTo (t : FileTree) (p : Path) (l : Location) (trailing : Bool) : Prop :=
  ∃ directory name, t.walk p = .ok ⟨directory, some name, trailing⟩ ∧ directory.child name = l

namespace LeadsTo

variable {trailing : Bool}

theorem names_ne_nil (h : t.LeadsTo p l trailing) : l.names ≠ [] := by
  obtain ⟨directory, name, -, rfl⟩ := h
  exact directory.names_child_ne_nil name

theorem of_directories (hdirs : ∀ m, t.get? m = some .directory → t'.get? m = some .directory)
    (h : t.LeadsTo p l trailing) : t'.LeadsTo p l trailing := by
  obtain ⟨directory, name, hwalk, rfl⟩ := h
  exact ⟨directory, name, walk_of_directories hdirs hwalk, rfl⟩

theorem locate_file (h : t.LeadsTo p l false) (hfile : t.get? l = some (.file content)) : t.locate p = .ok l := by
  obtain ⟨directory, name, hwalk, rfl⟩ := h
  simp [locate, hwalk, hfile, bind, Except.bind]

theorem locate_directory (h : t.LeadsTo p l trailing) (hdir : t.get? l = some .directory) : t.locate p = .ok l := by
  obtain ⟨directory, name, hwalk, rfl⟩ := h
  simp [locate, hwalk, hdir, bind, Except.bind]

end LeadsTo

/-- What stands where a path is found. -/
inductive Located (t : FileTree) (p : Path) : Location → Node → Prop
  /-- The path has no last name. -/
  | through {target : Target} (hwalk : t.walk p = .ok target) (hname : target.name? = none) :
      Located t p target.directory .directory
  | directory {l : Location} {trailing : Bool} (hlast : t.LeadsTo p l trailing) (hdir : t.get? l = some .directory) :
      Located t p l .directory
  | file {l : Location} {content : Bytes} (hlast : t.LeadsTo p l false) (hfile : t.get? l = some (.file content)) :
      Located t p l (.file content)

theorem located_of_locate (h : t.locate p = .ok l) : ∃ node, t.get? l = some node ∧ Located t p l node := by
  rw [locate] at h
  cases hwalk : t.walk p with
  | error e => rw [hwalk] at h; cases h
  | ok target =>
    obtain ⟨directory, name?, trailing⟩ := target
    rw [hwalk] at h
    cases name? with
    | none =>
      cases h
      exact ⟨_, get?_of_walk hwalk, .through hwalk rfl⟩
    | some name =>
      dsimp only [bind, Except.bind] at h
      have hlast : t.LeadsTo p (directory.child name) trailing := ⟨directory, name, hwalk, rfl⟩
      split at h
      · cases h
      next content hfile =>
        cases trailing with
        | true => cases h
        | false => cases h; exact ⟨_, hfile, .file hlast hfile⟩
      next hdir =>
        cases h
        exact ⟨_, hdir, .directory hlast hdir⟩

/-- A path leads to the same place where all directories are, and the place itself. -/
theorem locate_of_directories (hdirs : ∀ m, t.get? m = some .directory → t'.get? m = some .directory)
    (hfiles : ∀ content, t.get? l = some (.file content) → ∃ content', t'.get? l = some (.file content'))
    (h : t.locate p = .ok l) : t'.locate p = .ok l := by
  obtain ⟨node, -, hlocated⟩ := located_of_locate h
  cases hlocated with
  | through hwalk hname =>
    rw [locate, walk_of_directories hdirs hwalk]
    simp [hname, bind, Except.bind]
  | directory hlast hdir => exact (hlast.of_directories hdirs).locate_directory (hdirs _ hdir)
  | file hlast hfile =>
    obtain ⟨content', hfile'⟩ := hfiles _ hfile
    exact (hlast.of_directories hdirs).locate_file hfile'

theorem lookup_eq_ok_iff (t : FileTree) (p : Path) (node : Node) :
    t.lookup p = .ok node ↔ ∃ l, t.locate p = .ok l ∧ t.get? l = some node := by
  rw [lookup]
  cases hl : t.locate p with
  | error e => exact ⟨nofun, fun ⟨_, h, _⟩ => nomatch h⟩
  | ok l =>
    obtain ⟨found, hfound, -⟩ := located_of_locate hl
    simp [bind, Except.bind, hfound]

theorem isDirectory_iff (t : FileTree) (p : Path) :
    t.isDirectory p = true ↔ ∃ l, t.locate p = .ok l ∧ t.get? l = some .directory := by
  rw [← lookup_eq_ok_iff, isDirectory]
  split <;> simp_all

/-! ## Writing a file -/

/-- A file can be written where the path leads. -/
def Writable (t : FileTree) (p : Path) (l : Location) : Prop :=
  t.LeadsTo p l false ∧ t.get? l ≠ some .directory

/-- The tree `t'` is `t` after a file has been written. -/
structure Written (t : FileTree) (p : Path) (l : Location) (content : Bytes) (t' : FileTree) : Prop where
  before : t.Writable p l
  file : t'.get? l = some (.file content)
  elsewhere : ∀ m ≠ l, t'.get? m = t.get? m

theorem Writable.written (h : t.Writable p l) (content : Bytes) : Written t p l content (t.put l (.file content)) :=
  ⟨h, get?_put_self h.1.names_ne_nil, fun _ hm => get?_put_of_ne hm⟩

theorem LeadsTo.writeFile_eq (h : t.LeadsTo p l false) (content : Bytes) : t.writeFile p content =
    if t.get? l = some .directory then .error .isADirectory else .ok (t.put l (.file content)) := by
  obtain ⟨directory, name, hwalk, rfl⟩ := h
  rw [writeFile, hwalk]
  dsimp only [bind, Except.bind]
  cases t.get? (directory.child name) with
  | none => rfl
  | some node => cases node <;> rfl

theorem writeFile_eq_ok_iff (t : FileTree) (p : Path) (content : Bytes) (t' : FileTree) :
    t.writeFile p content = .ok t' ↔ ∃ l, t.Writable p l ∧ t.put l (.file content) = t' := by
  constructor
  · intro h
    have hwrite := h
    rw [writeFile] at h
    cases hwalk : t.walk p with
    | error e => rw [hwalk] at h; cases h
    | ok target =>
      obtain ⟨directory, name?, trailing⟩ := target
      rw [hwalk] at h
      cases name? with
      | none => cases h
      | some name =>
        cases trailing with
        | true => cases h
        | false =>
          have hlast : t.LeadsTo p (directory.child name) false := ⟨directory, name, hwalk, rfl⟩
          rw [hlast.writeFile_eq] at hwrite
          split at hwrite
          · cases hwrite
          next hdir => exact ⟨_, ⟨hlast, hdir⟩, Except.ok.inj hwrite⟩
  · rintro ⟨l, ⟨hlast, hdir⟩, rfl⟩
    rw [hlast.writeFile_eq, if_neg hdir]

theorem writable_of_locate (h : t.locate p = .ok l) (hfile : t.get? l = some (.file content)) : t.Writable p l := by
  obtain ⟨node, hnode, hlocated⟩ := located_of_locate h
  rw [hfile] at hnode
  cases hnode
  cases hlocated with
  | file hlast => exact ⟨hlast, by rw [hfile]; nofun⟩

/-- A path leads to one place only. -/
theorem Writable.unique (h : t.Writable p l) (hm : t.Writable p m) : l = m := by
  obtain ⟨⟨directory, name, hwalk, rfl⟩, -⟩ := h
  obtain ⟨⟨directory', name', hwalk', rfl⟩, -⟩ := hm
  cases hwalk.symm.trans hwalk'
  rfl

theorem appendFile_eq_ok_iff (t : FileTree) (p : Path) (more : Bytes) (t' : FileTree) :
    t.appendFile p more = .ok t' ↔ ∃ l old, t.locate p = .ok l ∧ t.get? l = some (.file old) ∧
      t.put l (.file (old ++ more)) = t' := by
  rw [appendFile]
  constructor
  · intro h
    cases hlookup : t.lookup p with
    | error e => rw [hlookup] at h; cases h
    | ok node =>
      rw [hlookup] at h
      cases node with
      | directory => cases h
      | file old =>
        obtain ⟨l, hl, hfile⟩ := (lookup_eq_ok_iff ..).1 hlookup
        obtain ⟨m, hm, rfl⟩ := (writeFile_eq_ok_iff ..).1 h
        cases (writable_of_locate hl hfile).unique hm
        exact ⟨l, old, hl, hfile, rfl⟩
  · rintro ⟨l, old, hl, hfile, rfl⟩
    rw [(lookup_eq_ok_iff t p _).2 ⟨l, hl, hfile⟩]
    exact (writeFile_eq_ok_iff ..).2 ⟨l, writable_of_locate hl hfile, rfl⟩

namespace Written

variable (h : Written t p l content t')

include h

theorem directory_iff (m : Location) : t'.get? m = some .directory ↔ t.get? m = some .directory := by
  by_cases hm : m = l
  · rw [hm, h.file]
    exact iff_of_false nofun h.before.2
  · rw [h.elsewhere m hm]

theorem locate_self : t'.locate p = .ok l :=
  (h.before.1.of_directories fun m => (h.directory_iff m).2).locate_file h.file

/-- Whatever path was found is found at the same place. -/
theorem locate_of_locate (hq : t.locate q = .ok m) : t'.locate q = .ok m := by
  refine locate_of_directories (fun m => (h.directory_iff m).2) (fun old hold => ?_) hq
  by_cases hm : m = l
  · exact ⟨content, by rw [hm, h.file]⟩
  · exact ⟨old, by rw [h.elsewhere m hm, hold]⟩

/-- Every path reads as before, apart from those that lead to the file. -/
theorem lookup_eq_ok_iff_of_ne (hq : t'.locate q ≠ .ok l) (node : Node) : t'.lookup q = .ok node ↔ t.lookup q = .ok node := by
  rw [lookup_eq_ok_iff, lookup_eq_ok_iff]
  constructor
  · rintro ⟨m, hm, hnode⟩
    have hne : m ≠ l := by rintro rfl; exact hq hm
    rw [h.elsewhere m hne] at hnode
    refine ⟨m, locate_of_directories (fun m => (h.directory_iff m).1) (fun old hold => ?_) hm, hnode⟩
    exact ⟨old, by rw [← h.elsewhere m hne, hold]⟩
  · rintro ⟨m, hm, hnode⟩
    have hm' := h.locate_of_locate hm
    have hne : m ≠ l := by rintro rfl; exact hq hm'
    exact ⟨m, hm', by rw [h.elsewhere m hne, hnode]⟩

end Written

/-- A file has been written, as far as paths can tell: the path reads the content, and every
path that does not lead to the same place reads what it read before. -/
structure Rewritten (t : FileTree) (p : Path) (content : Bytes) (t' : FileTree) : Prop where
  reads : t'.lookup p = .ok (.file content)
  others : ∃ l, t'.locate p = .ok l ∧ (∀ m ≠ l, t'.get? m = t.get? m) ∧
    ∀ q, t'.locate q ≠ .ok l → ∀ node, t'.lookup q = .ok node ↔ t.lookup q = .ok node

theorem Written.rewritten (h : Written t p l content t') : Rewritten t p content t' where
  reads := (lookup_eq_ok_iff ..).2 ⟨l, h.locate_self, h.file⟩
  others := ⟨l, h.locate_self, h.elsewhere, fun _ hq => h.lookup_eq_ok_iff_of_ne hq⟩

/-! ## Making directories -/

/-- Only directories have been made, where nothing stood and where paths of a sort lead. -/
def Furnished (t : FileTree) (sort : Path → Prop) (t' : FileTree) : Prop :=
  ∀ m, t'.get? m = t.get? m ∨
    t.get? m = none ∧ t'.get? m = some .directory ∧ ∃ p, sort p ∧ t'.locate p = .ok m

namespace Furnished

variable {sort sort' : Path → Prop}

theorem refl (t : FileTree) (sort : Path → Prop) : Furnished t sort t :=
  fun _ => .inl rfl

theorem mono (hsort : ∀ p, sort p → sort' p) (h : Furnished t sort t') : Furnished t sort' t' := fun m =>
  (h m).imp_right fun ⟨hnone, hdir, p, hp, hm⟩ => ⟨hnone, hdir, p, hsort p hp, hm⟩

theorem get?_of_get? (h : Furnished t sort t') (hnode : t.get? m = some node) : t'.get? m = some node := by
  rcases h m with hsame | ⟨hnone, -⟩
  · rw [hsame, hnode]
  · rw [hnone] at hnode
    cases hnode

/-- No file has been made. -/
theorem file_of_file {content : Bytes} (h : Furnished t sort t') (hfile : t'.get? m = some (.file content)) :
    t.get? m = some (.file content) := by
  rcases h m with hsame | ⟨-, hdir, -⟩
  · exact hsame.symm.trans hfile
  · rw [hdir] at hfile
    cases hfile

theorem locate_of_locate (h : Furnished t sort t') (hq : t.locate q = .ok m) : t'.locate q = .ok m :=
  locate_of_directories (fun _ => h.get?_of_get?) (fun content hfile => ⟨content, h.get?_of_get? hfile⟩) hq

/-- Whatever path led to something still does. -/
theorem lookup_of_lookup (h : Furnished t sort t') (hq : t.lookup q = .ok node) : t'.lookup q = .ok node := by
  rw [lookup_eq_ok_iff] at hq ⊢
  obtain ⟨m, hm, hnode⟩ := hq
  exact ⟨m, h.locate_of_locate hm, h.get?_of_get? hnode⟩

theorem trans {t'' : FileTree} (h : Furnished t sort t') (h' : Furnished t' sort t'') : Furnished t sort t'' := by
  intro m
  rcases h' m with hsame | ⟨hnone, hdir, hmade⟩
  · rcases h m with hsame' | ⟨hnone, hdir, p, hp, hm⟩
    · exact .inl (hsame.trans hsame')
    · exact .inr ⟨hnone, hsame.trans hdir, p, hp, h'.locate_of_locate hm⟩
  · rcases h m with hsame' | ⟨-, hdir', -⟩
    · exact .inr ⟨hsame'.symm.trans hnone, hdir, hmade⟩
    · rw [hdir'] at hnone
      cases hnone

end Furnished

theorem makeDirectory_eq_ok (h : t.makeDirectory p = .ok t') :
    t'.isDirectory p = true ∧ Furnished t (· = p) t' := by
  rw [makeDirectory] at h
  cases hwalk : t.walk p with
  | error e => rw [hwalk] at h; cases h
  | ok target =>
    obtain ⟨directory, name?, trailing⟩ := target
    rw [hwalk] at h
    dsimp only [bind, Except.bind] at h
    cases name? with
    | none => cases h
    | some name =>
      dsimp only at h
      split at h
      · cases h
      next hnone =>
      cases h
      have hlast : t.LeadsTo p (directory.child name) trailing := ⟨directory, name, hwalk, rfl⟩
      have hself : (t.put (directory.child name) .directory).get? (directory.child name) = some .directory :=
        get?_put_self hlast.names_ne_nil
      have hdirs : ∀ m, t.get? m = some .directory → (t.put (directory.child name) .directory).get? m = some .directory := by
        intro m hm
        by_cases heq : m = directory.child name
        · rw [heq, hself]
        · rw [get?_put_of_ne heq, hm]
      have hlocate := (hlast.of_directories hdirs).locate_directory hself
      refine ⟨(isDirectory_iff ..).2 ⟨_, hlocate, hself⟩, fun m => ?_⟩
      by_cases heq : m = directory.child name
      · rw [heq]
        exact .inr ⟨hnone, hself, p, rfl, hlocate⟩
      · exact .inl (get?_put_of_ne heq)

/-- A directory that is there cannot be made. -/
theorem makeDirectory_of_isDirectory (h : t.isDirectory p = true) : t.makeDirectory p = .error .exists := by
  obtain ⟨l, hl, hdir⟩ := (isDirectory_iff ..).1 h
  obtain ⟨node, hnode, hlocated⟩ := located_of_locate hl
  cases hlocated with
  | through hwalk hname =>
    rw [makeDirectory, hwalk]
    simp [hname, bind, Except.bind]
  | directory hlast hdir =>
    obtain ⟨directory, name, hwalk, rfl⟩ := hlast
    simp [makeDirectory, hwalk, hdir, bind, Except.bind]
  | file hlast hfile =>
    rw [hfile] at hdir
    cases hdir

end FileTree

end FrozenApp
