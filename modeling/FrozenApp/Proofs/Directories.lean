import FrozenApp.Proofs.FileProgram
import FrozenApp.Proofs.Path
/-!
# Making the directories on the way to a file

`FileTree.Admits` says where a file can be put at a path, by what stands at the places that the
names along it lead to: no file may stand where a directory belongs. Then the directories can be
made, the missing ones among them (`FileM.makeDirectories_ok`), and the file can be written behind
them (`FileTree.Admits.writable`).
-/

namespace FrozenApp

/-- Where names of their own lead from a location. -/
def Location.along (l : Location) (names : List Bytes) : Location :=
  { l with names := l.names ++ names }

theorem Location.along_nil (l : Location) : l.along [] = l := by
  rw [along, List.append_nil]

theorem Location.along_append (l : Location) (names more : List Bytes) :
    l.along (names ++ more) = (l.along names).along more := by
  rw [along, along, along, List.append_assoc]

theorem Location.step_eq_along {name : Bytes} (h : Path.isProper name = true) (l : Location) :
    l.step name = l.along [name] := by
  have h : name ≠ [Path.dot] ∧ name ≠ [Path.dot, Path.dot] := by simpa [Path.isProper] using h
  rw [step, if_neg h.1, if_neg h.2]
  rfl

/-! ## Paths of names of their own -/

namespace Path

/-- A path within the limits, along names of their own. -/
structure Plain (p : Path) : Prop where
  no_nul : 0 ∉ p
  length : p.length ≤ FileTree.pathMax
  names : ∀ name ∈ p.segments, isProper name = true ∧ name.length ≤ FileTree.nameMax

/-- Where the names along a path lead. -/
def place (p : Path) : Location :=
  p.origin.along p.segments

theorem Plain.dot_not_mem {p : Path} (h : p.Plain) : [dot] ∉ p.segments :=
  fun hmem => absurd (h.names _ hmem).1 (by decide)

theorem Plain.parent {p around : Path} (h : p.Plain) (hparent : p.parent? = some around) :
    around.Plain ∧ around.origin = p.origin ∧ p.segments ≠ [] ∧ around.segments = p.segments.dropLast := by
  obtain ⟨hne, hsegments, habsolute, hcut⟩ := parent?_eq_some h.dot_not_mem hparent
  refine ⟨⟨?_, ?_, fun name hname => ?_⟩, by rw [origin, origin, habsolute], hne, hsegments⟩
  · rcases hcut with hcut | rfl | rfl
    · exact fun hnul => h.no_nul (hcut.subset hnul)
    · decide
    · decide
  · rcases hcut with hcut | rfl | rfl
    · exact Nat.le_trans hcut.length_le h.length
    · decide
    · decide
  · rw [hsegments] at hname
    exact h.names name (List.dropLast_subset _ hname)

theorem Plain.shorter {p around : Path} (h : p.Plain) (hparent : p.parent? = some around) :
    around.Plain ∧ around.segments.length < p.segments.length := by
  obtain ⟨haround, -, hne, hsegments⟩ := h.parent hparent
  have hpos := List.length_pos_iff.2 hne
  rw [hsegments, List.length_dropLast]
  exact ⟨haround, by omega⟩

/-- A path around another has fewer names. -/
theorem Plain.around {p q : Path} (h : p.Plain) (hq : p.Around q) :
    q.Plain ∧ q.segments.length < p.segments.length := by
  induction hq with
  | single hparent => exact h.shorter hparent
  | tail _ hparent ih =>
    obtain ⟨hplain, hlt⟩ := ih.1.shorter hparent
    exact ⟨hplain, Nat.lt_trans hlt ih.2⟩

end Path

namespace FileTree

variable {t t' : FileTree} {l m : Location} {p : Path} {names : List Bytes} {last : Bytes}

/-! ## Walking along names of their own -/

theorem descend_append (t : FileTree) (l : Location) (names more : List Bytes) :
    t.descend l (names ++ more) = (t.descend l names >>= fun m => t.descend m more) := by
  induction names generalizing l with
  | nil => rfl
  | cons name names ih =>
    rw [List.cons_append, descend, descend]
    split
    · rfl
    split
    · rfl
    · rfl
    · exact ih _

theorem descend_concat (hlast : Path.isProper last = true ∧ last.length ≤ nameMax) (h : t.descend l names = .ok m)
    (hdir : t.get? (m.along [last]) = some .directory) : t.descend l (names ++ [last]) = .ok (m.along [last]) := by
  rw [descend_append, h]
  show t.descend m [last] = _
  rw [descend, if_neg (Nat.not_lt.2 hlast.2), Location.step_eq_along hlast.1, hdir]
  rfl

theorem eq_along_of_descend (hnames : ∀ name ∈ names, Path.isProper name = true) (h : t.descend l names = .ok m) :
    m = l.along names := by
  induction names generalizing l with
  | nil =>
    cases h
    exact (Location.along_nil _).symm
  | cons name names ih =>
    obtain ⟨hname, hnames⟩ := List.forall_mem_cons.1 hnames
    rw [descend, Location.step_eq_along hname] at h
    split at h
    · cases h
    split at h
    · cases h
    · cases h
    · rw [ih hnames h, ← Location.along_append]
      rfl

/-- Where no file stands in the way, a walk gets to the end or to a place where nothing stands. -/
theorem descend_cases (hnames : ∀ name ∈ names, Path.isProper name = true ∧ name.length ≤ nameMax)
    (hclear : ∀ ns, ns <+: names → ∀ content, t.get? (l.along ns) ≠ some (.file content)) :
    t.descend l names = .error .notFound ∨ ∃ m, t.descend l names = .ok m := by
  induction names generalizing l with
  | nil => exact .inr ⟨l, rfl⟩
  | cons name names ih =>
    obtain ⟨⟨hname, hlength⟩, hnames⟩ := List.forall_mem_cons.1 hnames
    rw [descend, if_neg (Nat.not_lt.2 hlength), Location.step_eq_along hname]
    cases hstep : t.get? (l.along [name]) with
    | none => exact .inl rfl
    | some node =>
      cases node with
      | file content => exact absurd hstep (hclear [name] (List.prefix_append [name] names) content)
      | directory =>
        refine ih hnames fun ns hns content => ?_
        rw [← Location.along_append]
        exact hclear (name :: ns) (List.cons_prefix_cons.2 ⟨rfl, hns⟩) content

section Plain

variable (h : p.Plain)

include h

theorem walk_of_segments_nil (hp : p ≠ []) (hsegments : p.segments = []) : t.walk p = .ok ⟨p.origin, none, false⟩ := by
  have hnul : ¬ p.contains 0 = true := by simpa using h.no_nul
  have hempty : ¬ p.isEmpty = true := by simpa using hp
  rw [walk, if_neg hnul, if_neg hempty, if_neg (Nat.not_lt.2 h.length), ← Path.segments, hsegments]
  rfl

theorem isDirectory_of_segments_nil (hp : p ≠ []) (hsegments : p.segments = []) : t.isDirectory p = true := by
  refine (isDirectory_iff ..).2 ⟨p.origin, ?_, rfl⟩
  rw [locate, walk_of_segments_nil h hp hsegments]
  rfl

theorem walk_eq_map (hsegments : p.segments = names ++ [last]) : t.walk p =
    (t.descend p.origin names).map fun directory => ⟨directory, some last, p.getLast? == some Path.slash⟩ := by
  have hnul : ¬ p.contains 0 = true := by simpa using h.no_nul
  have hempty : ¬ p.isEmpty = true := by
    intro hempty
    rw [List.isEmpty_iff.1 hempty] at hsegments
    exact absurd hsegments (by simp [Path.segments, Path.splitSlash])
  obtain ⟨hlast, hlength⟩ := h.names last (by rw [hsegments]; simp)
  rw [walk, if_neg hnul, if_neg hempty, if_neg (Nat.not_lt.2 h.length), ← Path.segments, hsegments]
  simp only [List.getLast?_concat, List.dropLast_concat, if_pos hlast, if_neg (Nat.not_lt.2 hlength)]
  cases t.descend p.origin names <;> rfl

theorem along_eq_place (hsegments : p.segments = names ++ [last]) (hdescend : t.descend p.origin names = .ok m) :
    m.along [last] = p.place := by
  have hproper : ∀ name ∈ names, Path.isProper name = true :=
    fun name hname => (h.names name (by rw [hsegments]; exact List.mem_append_left _ hname)).1
  rw [eq_along_of_descend hproper hdescend, ← Location.along_append, ← hsegments, Path.place]

/-- The last name belongs at the place of the path, if a walk gets to the name. -/
theorem leadsTo_iff (hsegments : p.segments = names ++ [last]) {trailing : Bool} : t.LeadsTo p l trailing ↔
    (∃ m, t.descend p.origin names = .ok m) ∧ l = p.place ∧ trailing = (p.getLast? == some Path.slash) := by
  have hwalk : t.walk p = _ := walk_eq_map h hsegments
  constructor
  · rintro ⟨directory, name, hwalk', rfl⟩
    rw [hwalk] at hwalk'
    cases hdescend : t.descend p.origin names with
    | error e => rw [hdescend] at hwalk'; cases hwalk'
    | ok m =>
      rw [hdescend] at hwalk'
      cases hwalk'
      exact ⟨⟨_, rfl⟩, along_eq_place h hsegments hdescend, rfl⟩
  · rintro ⟨⟨m, hdescend⟩, rfl, rfl⟩
    refine ⟨m, last, ?_, along_eq_place h hsegments hdescend⟩
    rw [hwalk, hdescend]
    rfl

/-- A path that is found is found where its names lead, and a directory there can be walked into. -/
theorem locate_plain (hl : t.locate p = .ok l) :
    l = p.place ∧ (t.get? l = some .directory → ∃ m, t.descend p.origin p.segments = .ok m) := by
  have hne : p ≠ [] := by
    rintro rfl
    cases hl
  rcases List.eq_nil_or_concat p.segments with hsegments | ⟨names, last, hsegments⟩
  · rw [locate, walk_of_segments_nil h hne hsegments] at hl
    cases hl
    rw [Path.place, hsegments]
    exact ⟨(Location.along_nil _).symm, fun _ => ⟨_, rfl⟩⟩
  · rw [List.concat_eq_append] at hsegments
    obtain ⟨node, -, hlocated⟩ := located_of_locate hl
    obtain ⟨trailing, hlast⟩ : ∃ trailing, t.LeadsTo p l trailing := by
      cases hlocated with
      | directory hlast | file hlast => exact ⟨_, hlast⟩
      | through hwalk hname =>
        rw [walk_eq_map h hsegments] at hwalk
        cases hdescend : t.descend p.origin names <;> rw [hdescend] at hwalk <;> cases hwalk
        cases hname
    obtain ⟨⟨m, hdescend⟩, rfl, -⟩ := (leadsTo_iff h hsegments).1 hlast
    refine ⟨rfl, fun hdir => ?_⟩
    rw [← along_eq_place h hsegments hdescend] at hdir
    rw [hsegments]
    exact ⟨_, descend_concat (h.names last (by rw [hsegments]; simp)) hdescend hdir⟩

/-- Where a walk gets to the last name and no file stands there, the directory can be made or is there. -/
theorem makeDirectory_cases (hsegments : p.segments = names ++ [last])
    (hdescend : ∃ m, t.descend p.origin names = .ok m) (hfile : ∀ content, t.get? p.place ≠ some (.file content)) :
    (∃ t', t.makeDirectory p = .ok t') ∨ t.makeDirectory p = .error .exists ∧ t.isDirectory p = true := by
  have hlast : t.LeadsTo p p.place (p.getLast? == some Path.slash) := (leadsTo_iff h hsegments).2 ⟨hdescend, rfl, rfl⟩
  cases hnode : t.get? p.place with
  | none =>
    obtain ⟨directory, name, hwalk, hplace⟩ := hlast
    refine .inl ⟨t.put p.place .directory, ?_⟩
    rw [makeDirectory, hwalk]
    simp [bind, Except.bind, hplace, hnode]
  | some node =>
    cases node with
    | file content => exact absurd hnode (hfile content)
    | directory =>
      have hdir : t.isDirectory p = true := (isDirectory_iff ..).2 ⟨_, hlast.locate_directory hnode, hnode⟩
      exact .inr ⟨makeDirectory_of_isDirectory hdir, hdir⟩

/-- Where the directory around a path is there, a walk gets to the last name. -/
theorem exists_descend_of_parent? (hsegments : p.segments = names ++ [last]) {around : Path}
    (hparent : p.parent? = some around) (haround : around.isEmpty = true ∨ t.isDirectory around = true) :
    ∃ m, t.descend p.origin names = .ok m := by
  obtain ⟨hplain, horigin, -, hshorter⟩ := h.parent hparent
  rw [hsegments, List.dropLast_concat] at hshorter
  rw [← horigin, ← hshorter]
  rcases haround with hempty | hdir
  · rw [List.isEmpty_iff.1 hempty]
    exact ⟨_, rfl⟩
  · obtain ⟨l, hl, hdir⟩ := (isDirectory_iff ..).1 hdir
    exact (locate_plain hplain hl).2 hdir

end Plain

/-! ## Where a file can be put -/

/-- A file can be put at a path once there are directories around it: no file stands where one of them
belongs, and no directory where the file does. -/
structure Admits (t : FileTree) (p : Path) : Prop where
  plain : p.Plain
  no_slash : p.getLast? ≠ some Path.slash
  clear : ∀ ns, ns <+: p.segments.dropLast → ∀ content, t.get? (p.origin.along ns) ≠ some (.file content)
  vacant : t.get? p.place ≠ some .directory

theorem Admits.segments_ne_nil (h : t.Admits p) : p.segments ≠ [] := by
  intro hsegments
  refine h.vacant ?_
  rw [Path.place, hsegments, Location.along_nil]
  rfl

/-- Where nothing stands, a file can be put behind any names. -/
theorem admits_empty (h : p.Plain) (hslash : p.getLast? ≠ some Path.slash) (hsegments : p.segments ≠ []) :
    empty.Admits p where
  plain := h
  no_slash := hslash
  clear ns _ content hfile := by
    rw [get?] at hfile
    split at hfile <;> cases hfile
  vacant := by
    have hnames : ¬ p.place.names.isEmpty = true := by simp [Path.place, Location.along, hsegments]
    rw [get?, if_neg hnames, empty]
    simp

/-- Once the directories are made, the file can be written. -/
theorem Admits.writable (h : t.Admits p) (hmade : t.Furnished p.Around t')
    (haround : ∀ around, p.parent? = some around → around.isEmpty = true ∨ t'.isDirectory around = true) :
    t'.Writable p p.place := by
  obtain ⟨names, last, hsegments⟩ := (List.eq_nil_or_concat p.segments).resolve_left h.segments_ne_nil
  rw [List.concat_eq_append] at hsegments
  obtain ⟨around, hparent⟩ := Path.exists_parent? h.plain.dot_not_mem h.segments_ne_nil
  have hdescend := exists_descend_of_parent? h.plain hsegments hparent (haround around hparent)
  refine ⟨(leadsTo_iff h.plain hsegments).2 ⟨hdescend, rfl, ?_⟩, fun hdir => ?_⟩
  · exact (beq_eq_false_iff_ne.2 h.no_slash).symm
  · -- a directory that has been made stands where fewer names lead
    rcases hmade p.place with hsame | ⟨-, -, q, hq, hlocate⟩
    · exact h.vacant (hsame.symm.trans hdir)
    · obtain ⟨hplain, hlt⟩ := h.plain.around hq
      have hplace := congrArg (List.length ∘ Location.names) (locate_plain hplain hlocate).1
      simp [Path.place, Location.along, Path.origin] at hplace
      omega

end FileTree

/-! ## Making directories -/

namespace FileM

open FileTree

/-- Directories can be made along names of their own, where no file stands in the way. -/
theorem makeDirectoriesWithin_ok {fuel : Nat} {p : Path} {t : FileTree} (h : p.Plain)
    (hclear : ∀ ns, ns <+: p.segments → ∀ content, t.get? (p.origin.along ns) ≠ some (.file content))
    (hfuel : p.segments.length < fuel) : Changes (makeDirectoriesWithin fuel p) t fun r _ => r = .ok () := by
  induction fuel generalizing p t with
  | zero => omega
  | succ fuel ih =>
    rw [makeDirectoriesWithin]
    split
    · exact .pure rfl
    next hnonempty =>
    refine .get_bind ?_
    rcases List.eq_nil_or_concat p.segments with hsegments | ⟨names, last, hsegments⟩
    · have hdir := isDirectory_of_segments_nil (t := t) h (by simpa using hnonempty) hsegments
      rw [makeDirectory_of_isDirectory hdir]
      exact (excuse_ok hdir _).mono fun _ _ => And.left
    rw [List.concat_eq_append] at hsegments
    have hnames : ∀ ns, ns <+: names → ∀ content, t.get? (p.origin.along ns) ≠ some (.file content) :=
      fun ns hns => hclear ns (hsegments ▸ hns.trans (List.prefix_append _ _))
    have hproper : ∀ name ∈ names, Path.isProper name = true ∧ name.length ≤ nameMax :=
      fun name hname => h.names name (by rw [hsegments]; exact List.mem_append_left _ hname)
    rcases descend_cases hproper hnames with hmissing | hfound
    · -- the directory around is made first
      have hnotFound : t.makeDirectory p = .error .notFound := by
        rw [makeDirectory, walk_eq_map h hsegments, hmissing]
        rfl
      obtain ⟨around, hparent⟩ := Path.exists_parent? h.dot_not_mem (by rw [hsegments]; simp)
      obtain ⟨haround, horigin, -, hshorter⟩ := h.parent hparent
      rw [hsegments, List.dropLast_concat] at hshorter
      rw [hnotFound, hparent]
      have hfuel' : around.segments.length < fuel := by
        rw [hsegments, List.length_append, List.length_singleton] at hfuel
        rw [hshorter]
        omega
      have hmade := ih haround (by rw [horigin, hshorter]; exact hnames) hfuel'
      refine .bind (hmade.and (makeDirectoriesWithin_changes fuel around t)) ?_ fun _ _ h => by cases h.1
      rintro _ t' ⟨-, hfurnished, hdone⟩
      refine .get_bind ?_
      have hdescend := exists_descend_of_parent? h hsegments hparent (hdone rfl)
      have hfile : ∀ content, t'.get? p.place ≠ some (.file content) :=
        fun content hcontent => hclear _ List.prefix_rfl content (hfurnished.file_of_file hcontent)
      rcases makeDirectory_cases h hsegments hdescend hfile with ⟨t'', hmade⟩ | ⟨hexists, hdir⟩
      · rw [hmade]
        exact .set rfl
      · rw [hexists]
        exact (excuse_ok hdir _).mono fun _ _ => And.left
    · rcases makeDirectory_cases h hsegments hfound (hclear _ List.prefix_rfl) with ⟨t', hmade⟩ | ⟨hexists, hdir⟩
      · rw [hmade]
        exact .set rfl
      · rw [hexists]
        exact (excuse_ok hdir _).mono fun _ _ => And.left

theorem makeDirectories_ok {p around : Path} {t : FileTree} (h : t.Admits p) (hparent : p.parent? = some around) :
    Changes (makeDirectories around) t fun r _ => r = .ok () := by
  obtain ⟨haround, horigin, -, hsegments⟩ := h.plain.parent hparent
  refine makeDirectoriesWithin_ok haround ?_ (Nat.lt_succ_of_le (Path.length_segments_le around))
  rw [horigin, hsegments]
  exact h.clear

end FileM

end FrozenApp
