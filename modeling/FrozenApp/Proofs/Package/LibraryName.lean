import FrozenApp.Proofs.Package.RoundTrip
/-!
# The library's name in a package

The name of the library shares the cookie with the magic that is searched for, and its
field ends at the first NUL. So a package can be written that is not read as it was built:
a name with a NUL loses what follows it, and a cookie that holds the magic once more is
taken for one that the file cuts short. `carries_iff`: these are the only packages which are not.
-/

namespace FrozenApp.Bytes

theorem OccursAt.append_right {pattern data : Bytes} {i : Nat} (h : OccursAt pattern data i) (behind : Bytes) :
    OccursAt pattern (data ++ behind) i := by
  rw [OccursAt, List.drop_append]
  exact h.trans (List.prefix_append _ _)

theorem occursAt_append_left_iff (pattern before data : Bytes) (i : Nat) :
    OccursAt pattern (before ++ data) (before.length + i) ↔ OccursAt pattern data i := by
  rw [OccursAt, ← List.drop_drop, List.drop_left, OccursAt]

theorem OccursAt.append_left {pattern data : Bytes} {i : Nat} (h : OccursAt pattern data i) (before : Bytes) :
    OccursAt pattern (before ++ data) (before.length + i) :=
  (occursAt_append_left_iff pattern before data i).2 h

end FrozenApp.Bytes

namespace FrozenApp.Package

open Bytes

/-! ## The magic behind the start of a cookie -/

/-- The cookie of what is built holds the magic once more, behind its start. -/
def Builder.RepeatsMagic (b : Builder) : Prop :=
  ∃ i, 0 < i ∧ OccursAt cookieMagic (b.cookie b.payloads.length b.toc.length) i

theorem repeatsMagic_iff {b : Builder} {bytes : Bytes} (h : b.toBytes = .ok bytes) :
    b.RepeatsMagic ↔ ∃ j, OccursAt cookieMagic bytes j ∧ bytes.length < j + cookieLength := by
  rw [length_toBytes h]
  obtain ⟨-, -, rfl⟩ := (toBytes_eq_ok_iff b bytes).1 h
  have hin : ∀ i, OccursAt cookieMagic (b.payloads ++ b.toc ++ b.cookie b.payloads.length b.toc.length)
      (b.payloads.length + b.toc.length + i) ↔ OccursAt cookieMagic (b.cookie b.payloads.length b.toc.length) i := by
    intro i
    rw [← List.length_append]
    exact occursAt_append_left_iff ..
  constructor
  · rintro ⟨i, hpos, hi⟩
    exact ⟨_, (hin i).2 hi, by omega⟩
  · rintro ⟨j, hj, hlt⟩
    obtain ⟨i, rfl⟩ : ∃ i, j = b.payloads.length + b.toc.length + i := Nat.exists_eq_add_of_le (by omega)
    exact ⟨i, by omega, (hin i).1 hj⟩

/-- The cookie up to the field of the library's name. -/
def Builder.cookieHead (b : Builder) : Bytes :=
  cookieMagic ++ ofUInt32 (UInt32.ofNat (b.payloads.length + b.toc.length + cookieLength)) ++
    ofUInt32 (UInt32.ofNat b.payloads.length) ++ ofUInt32 (UInt32.ofNat b.toc.length) ++ ofUInt32 b.version

theorem length_cookieHead (b : Builder) : b.cookieHead.length = 24 := rfl

theorem cookie_eq_head_append (b : Builder) : b.cookie b.payloads.length b.toc.length =
    b.cookieHead ++ (ofString b.libraryName).padTo libraryNameLength := rfl

/-- A name with the magic in it repeats it, whatever else is in the package. -/
theorem repeatsMagic_of_libraryName {b : Builder} {i : Nat} (h : OccursAt cookieMagic (ofString b.libraryName) i) :
    b.RepeatsMagic := by
  have hfield : OccursAt cookieMagic ((ofString b.libraryName).padTo libraryNameLength) i := h.append_right _
  have hpos : 0 < b.cookieHead.length + i := by
    rw [length_cookieHead]
    omega
  refine ⟨_, hpos, ?_⟩
  rw [cookie_eq_head_append]
  exact hfield.append_left b.cookieHead

/-- The search goes by the last magic, even if it is too near to the end for a cookie. -/
theorem parse_eq_shortCookie {path : Path} {content : Bytes} {j : Nat} (h : OccursAt cookieMagic content j)
    (hlt : content.length < j + cookieLength) :
    ∃ position, Archive.parse path content = .error (.shortCookie position) := by
  have hlast : IsLast (OccursAt cookieMagic content) _ := findLast?_isLast (by decide) (by decide) _
  rw [Archive.parse]
  cases hfind : content.findLast? cookieMagic with
  | none =>
    rw [hfind] at hlast
    exact absurd h (hlast j)
  | some k =>
    rw [hfind] at hlast
    have hle := hlast.2 j h
    exact ⟨k, if_pos (by omega)⟩

/-! ## Reading what was built -/

section Read

variable {files : FileTree} {path : Path} {b : Builder} {bytes : Bytes} (hbytes : b.toBytes = .ok bytes)
  (hfile : files.lookup path = .ok (.file bytes))

include hbytes hfile

theorem read_of_not_repeatsMagic (hnames : ∀ p ∈ b.entries, '\x00' ∉ p.name.toList) (h : ¬ b.RepeatsMagic) :
    Archive.read files path = .ok (b.archiveAt path 0) := by
  refine read_toBytes_alone hnames hbytes hfile fun j _ hj => ?_
  by_contra hlt
  exact h ((repeatsMagic_iff hbytes).2 ⟨j, hj, Nat.lt_of_not_le hlt⟩)

theorem read_of_repeatsMagic (h : b.RepeatsMagic) :
    ∃ position, Archive.read files path = .error (.shortCookie position) := by
  obtain ⟨j, hj, hlt⟩ := (repeatsMagic_iff hbytes).1 h
  rw [read_file hfile]
  exact parse_eq_shortCookie hj hlt

end Read

/-- The file is read as an archive with this version and library name. -/
def Carries (files : FileTree) (path : Path) (version : UInt32) (libraryName : String) : Prop :=
  ∃ a, Archive.read files path = .ok a ∧ a.cookie.version = version ∧ a.cookie.libraryName = libraryName

theorem ofList_takeWhile_eq_iff (name : String) :
    String.ofList (name.toList.takeWhile (· ≠ '\x00')) = name ↔ '\x00' ∉ name.toList := by
  rw [← String.toList_inj, String.toList_ofList, List.takeWhile_eq_self_iff]
  constructor
  · intro h hmem
    simpa using h _ hmem
  · rintro h c hc
    rw [decide_eq_true_eq]
    rintro rfl
    exact h hc

/-- What was built is read with the version and the library's name that were given exactly if
the name holds no NUL and the cookie no second magic. Otherwise it is read with the name up
to its first NUL, or, where the cookie holds the magic once more, not at all. A name with the magic in
it makes any cookie do so. -/
theorem carries_iff (files : FileTree) (path : Path) (compress : Bytes → Bytes) (version : UInt32) (libraryName : String)
    (steps : List Step) (b : Builder) (hb : build compress (.new version libraryName) steps = .ok b) (bytes : Bytes)
    (hbytes : b.toBytes = .ok bytes) (hfile : files.lookup path = .ok (.file bytes)) :
    (Carries files path version libraryName ↔ '\x00' ∉ libraryName.toList ∧ ¬ b.RepeatsMagic) ∧
    (¬ b.RepeatsMagic → Carries files path version (String.ofList (libraryName.toList.takeWhile (· ≠ '\x00')))) ∧
    (b.RepeatsMagic → ∃ position, Archive.read files path = .error (.shortCookie position)) ∧
    ∀ i, OccursAt cookieMagic (ofString libraryName) i → b.RepeatsMagic := by
  have hnames := nul_not_mem_of_build hb
  obtain ⟨-, hbuilder⟩ := (build_eq_ok_iff ..).1 hb
  have hversion : b.version = version := by rw [← hbuilder]; rfl
  have hname : b.libraryName = libraryName := by rw [← hbuilder]; rfl
  subst hversion hname
  have hcut : ¬ b.RepeatsMagic →
      Carries files path b.version (String.ofList (b.libraryName.toList.takeWhile (· ≠ '\x00'))) :=
    fun hmagic => ⟨_, read_of_not_repeatsMagic hbytes hfile hnames hmagic, rfl, rfl⟩
  refine ⟨⟨?_, ?_⟩, hcut, read_of_repeatsMagic hbytes hfile, fun i hi => repeatsMagic_of_libraryName hi⟩
  · rintro ⟨a, ha, -, hname⟩
    have hmagic : ¬ b.RepeatsMagic := by
      intro hmagic
      obtain ⟨position, herror⟩ := read_of_repeatsMagic hbytes hfile hmagic
      rw [herror] at ha
      cases ha
    rw [read_of_not_repeatsMagic hbytes hfile hnames hmagic] at ha
    cases ha
    exact ⟨(ofList_takeWhile_eq_iff _).1 hname, hmagic⟩
  · rintro ⟨hnul, hmagic⟩
    have hcarries := hcut hmagic
    rwa [(ofList_takeWhile_eq_iff _).2 hnul] at hcarries

theorem not_repeatsMagic_sampleBuilder : ¬ sampleBuilder.RepeatsMagic := by
  rw [repeatsMagic_iff toBytes_sampleBuilder]
  rintro ⟨j, hj, hlt⟩
  have hle := sampleBytes_magic (cookieMagic.length + j) ((hj.append_left cookieMagic).append_right [0])
  omega

theorem carries_iff_sample : build Zlib.store (.new 310 "lib") sampleSteps = .ok sampleBuilder ∧
    sampleBuilder.toBytes = .ok sampleBytes ∧ Carries ⟨fun _ => some (.file sampleBytes)⟩ [97] 310 "lib" := by
  refine ⟨build_sampleSteps, toBytes_sampleBuilder, ?_⟩
  have h := carries_iff ⟨fun _ => some (.file sampleBytes)⟩ [97] Zlib.store 310 "lib" sampleSteps sampleBuilder
    build_sampleSteps sampleBytes toBytes_sampleBuilder rfl
  exact h.1.2 ⟨by decide, not_repeatsMagic_sampleBuilder⟩

/-- The name of the library is written as `"lib\x00x"` and read as `"lib"`. A name that is the
magic makes a package that is not read at all. -/
theorem names_not_carried :
    (∃ bytes a, (Builder.new 312 "lib\x00x").toBytes = .ok bytes ∧
      Archive.read ⟨fun _ => some (.file bytes)⟩ [97] = .ok a ∧ a.cookie.libraryName = "lib") ∧
    ∃ bytes position, (Builder.new 312 "MEI\x0c\x0b\n\x0b\x0e").toBytes = .ok bytes ∧
      Archive.read ⟨fun _ => some (.file bytes)⟩ [97] = .error (.shortCookie position) := by
  constructor
  · have hbytes : (Builder.new 312 "lib\x00x").toBytes = .ok (Builder.new 312 "lib\x00x").bytes :=
      toBytes_eq_bytes (by decide) (by decide)
    exact ⟨_, _, hbytes, read_toBytes_alone (List.forall_mem_nil _) hbytes rfl (by decide), by decide⟩
  · generalize hb : Builder.new 312 "MEI\x0c\x0b\n\x0b\x0e" = b
    have hbytes : b.toBytes = .ok b.bytes := by
      rw [← hb]
      exact toBytes_eq_bytes (by decide) (by decide)
    have hmagic : OccursAt cookieMagic (ofString b.libraryName) 0 := by
      rw [← hb]
      decide
    have hread : ∃ position, Archive.read ⟨fun _ => some (.file b.bytes)⟩ [97] = .error (.shortCookie position) :=
      read_of_repeatsMagic hbytes rfl (repeatsMagic_of_libraryName hmagic)
    obtain ⟨position, hposition⟩ := hread
    exact ⟨b.bytes, position, hbytes, hposition⟩

end FrozenApp.Package
