import FrozenApp.Proofs.Package.Format
import Mathlib.Algebra.Group.Nat.Defs
/-!
# Opening an archive

What a file says cannot lead the reader astray: the end of the file is met
nowhere behind the cookie (`parse_ne_shortToc`), a fault is reported at a place
within the table of contents (`position_lt_of_parse_error`), and sums of words of 64 bits
would not wrap (`parseWords_eq_parse`). `read_package_iff` puts this together
with the format of a package.
-/

namespace FrozenApp.Package

open Bytes

/-! ## The table of contents -/

/-- The record where reading a table of contents stopped. -/
def TocError.position : TocError → Nat
  | .truncated position => position
  | .malformed position _ => position
  | .badName position _ => position

theorem position_lt_of_parseFrom_error {position : Nat} {s : Bytes} {e : TocError}
    (h : Toc.parseFrom position s = .error e) : position ≤ e.position ∧ e.position < position + s.length := by
  fun_induction Toc.parseFrom position s generalizing e with
  | case1 => cases h
  | case2 position s hs hshort =>
    cases h
    have := List.length_pos_iff.2 fun h => hs (List.isEmpty_iff.2 h)
    exact ⟨Nat.le_refl _, by rw [TocError.position]; omega⟩
  | case3 position s hs hlong =>
    cases h
    rw [recordHeaderLength] at hlong
    exact ⟨Nat.le_refl _, by rw [TocError.position]; omega⟩
  | case4 position s hs hlong =>
    cases h
    rw [recordHeaderLength] at hlong
    exact ⟨Nat.le_refl _, by rw [TocError.position]; omega⟩
  | case5 position s hs hlong length hfits name hname cause hrest =>
    rename_i ih
    cases h
    have := ih hrest
    rw [List.length_drop] at this
    omega
  | case6 => cases h

theorem position_lt_of_parse_error {s : Bytes} {e : TocError} (h : Toc.parse s = .error e) :
    e.position < s.length := by
  have := (position_lt_of_parseFrom_error h).2
  rwa [Nat.zero_add] at this

/-- Every record takes at least 18 bytes, so the loop ends after so many. -/
theorem IsTable.length_le {s : Bytes} {entries : List Entry} (h : IsTable s entries) :
    recordHeaderLength * entries.length ≤ s.length := by
  induction h with
  | nil => exact Nat.le_refl 0
  | cons hr _ ih =>
    have := hr.length_le
    rw [List.length_cons, List.length_append, Nat.mul_succ]
    omega

theorem IsRecord.zero_not_mem_name {record : Bytes} {e : Entry} (h : IsRecord record e) : 0 ∉ ofString e.name := by
  obtain ⟨-, -, -, hname⟩ := h
  rw [hname]
  exact zero_not_mem_cutAtNul _

/-- A record with a name takes at least one byte more than one without. -/
theorem IsRecord.lt_length {record : Bytes} {e : Entry} (h : IsRecord record e) (hname : e.name ≠ "") :
    recordHeaderLength < record.length := by
  obtain ⟨-, -, -, hfield⟩ := h
  rename_i field
  have hnonempty : field ≠ [] := by
    rintro rfl
    exact hname (ofString_eq_nil hfield)
  have := List.length_pos_iff.2 hnonempty
  simp only [List.length_append, length_ofUInt32, List.length_cons, List.length_nil, recordHeaderLength]
  omega

theorem IsTable.zero_not_mem_name {s : Bytes} {entries : List Entry} (h : IsTable s entries) :
    ∀ e ∈ entries, 0 ∉ ofString e.name := by
  induction h with
  | nil => exact List.forall_mem_nil _
  | cons hr _ ih => exact List.forall_mem_cons.2 ⟨hr.zero_not_mem_name, ih⟩

theorem IsTable.countP_name_le {s : Bytes} {entries : List Entry} (h : IsTable s entries) :
    (recordHeaderLength + 1) * entries.countP (·.name ≠ "") ≤ s.length := by
  induction h with
  | nil => exact Nat.le_refl 0
  | @cons record rest e entries hr _ ih =>
    rw [List.countP_cons, List.length_append]
    split
    next hname =>
      have := hr.lt_length (by simpa using hname)
      rw [Nat.mul_succ]
      omega
    · exact Nat.le_add_left_of_le ih

/-! ## The end of the file -/

/-- The table of contents lies ahead of the end of the cookie. -/
theorem HoldsPackage.toc_le {content : Bytes} {position : Nat} {a : Archive} (h : HoldsPackage content position a) :
    a.packageOffset + a.cookie.tocOffset.toNat + a.cookie.tocLength.toNat ≤ content.length := by
  have := h.cookie_fits
  have := h.package
  have := h.toc_fits
  omega

/-- The file does not end within the table of contents. -/
theorem parse_ne_shortToc (path : Path) (content : Bytes) : Archive.parse path content ≠ .error .shortToc := by
  rw [Archive.parse]
  split
  · simp
  · dsimp only
    split
    · simp
    split
    · simp
    split
    · simp
    split
    · simp
    -- the table ends ahead of the cookie, which lies in the file
    rw [if_neg (by omega)]
    split <;> simp

/-! ## Words of 64 bits -/

theorem parseWords_eq_parse (path : Path) {content : Bytes} (h : content.length < 2 ^ 63) :
    Archive.parseWords path content = Archive.parse path content := by
  rw [Archive.parseWords, Archive.parse]
  cases hposition : content.findLast? cookieMagic with
  | none => rfl
  | some position =>
    have hle := ((findLast?_eq_some_iff (by decide) (by decide) _ _).1 hposition).1.le_length (by decide)
    have hend : (UInt64.ofNat position + UInt64.ofNat cookieLength).toNat = position + cookieLength := by
      simp only [UInt64.toNat_add, UInt64.toNat_ofNat', cookieLength]
      omega
    dsimp only
    rw [hend]
    cases Cookie.parse (content.slice position cookieLength) with
    | error fault => rfl
    | ok cookie =>
      have hpackage := cookie.packageLength.toNat_lt
      have hoffset := cookie.tocOffset.toNat_lt
      have hlength := cookie.tocLength.toNat_lt
      have hsum : (cookie.tocOffset.toUInt64 + cookie.tocLength.toUInt64).toNat =
          cookie.tocOffset.toNat + cookie.tocLength.toNat := by
        simp only [UInt64.toNat_add, UInt32.toNat_toUInt64]
        omega
      simp only [UInt64.lt_iff_toNat_lt, hend, hsum, UInt32.toNat_toUInt64]
      by_cases hshort : content.length < position + cookieLength
      · rw [if_pos hshort, if_pos hshort]
      by_cases hover : position + cookieLength < cookie.packageLength.toNat
      · rw [if_neg hshort, if_neg hshort, if_pos hover, if_pos hover]
      by_cases htoc : cookie.packageLength.toNat < cookie.tocOffset.toNat + cookie.tocLength.toNat
      · simp only [if_neg hshort, if_neg hover, if_pos htoc]
      have hstart : (UInt64.ofNat position + UInt64.ofNat cookieLength - cookie.packageLength.toUInt64).toNat =
          position + cookieLength - cookie.packageLength.toNat := by
        rw [UInt64.toNat_sub_of_le, hend, UInt32.toNat_toUInt64]
        rw [UInt64.le_iff_toNat_le, hend, UInt32.toNat_toUInt64]
        exact Nat.not_lt.1 hover
      have htocStart : (UInt64.ofNat position + UInt64.ofNat cookieLength - cookie.packageLength.toUInt64 +
          cookie.tocOffset.toUInt64).toNat =
            position + cookieLength - cookie.packageLength.toNat + cookie.tocOffset.toNat := by
        rw [UInt64.toNat_add, hstart, UInt32.toNat_toUInt64]
        omega
      have htocEnd : (UInt64.ofNat position + UInt64.ofNat cookieLength - cookie.packageLength.toUInt64 +
          cookie.tocOffset.toUInt64 + cookie.tocLength.toUInt64).toNat =
            position + cookieLength - cookie.packageLength.toNat + cookie.tocOffset.toNat + cookie.tocLength.toNat := by
        rw [UInt64.toNat_add, htocStart, UInt32.toNat_toUInt64]
        omega
      rw [hstart, htocStart]
      exact htocEnd ▸ rfl

/-! ## Files -/

theorem read_file {files : FileTree} {path : Path} {content : Bytes} (h : files.lookup path = .ok (.file content)) :
    Archive.read files path = Archive.parse path content := by
  rw [Archive.read, h]

theorem exists_file_of_read {files : FileTree} {path : Path} {a : Archive} (h : Archive.read files path = .ok a) :
    ∃ content, files.lookup path = .ok (.file content) := by
  rw [Archive.read] at h
  split at h
  · cases h
  · cases h
  next content hfile => exact ⟨content, hfile⟩

theorem path_of_read {files : FileTree} {path : Path} {a : Archive} (h : Archive.read files path = .ok a) : a.path = path := by
  rw [Archive.read] at h
  split at h
  · cases h
  · cases h
  · exact ((parse_eq_ok_iff ..).1 h).1

/-- The table that an archive was read from. -/
theorem exists_isTable_of_read {files : FileTree} {path : Path} {a : Archive} (h : Archive.read files path = .ok a) :
    ∃ s, IsTable s a.entries ∧ s.length ≤ a.cookie.tocLength.toNat := by
  obtain ⟨content, hfile⟩ := exists_file_of_read h
  rw [read_file hfile] at h
  obtain ⟨-, position, hpackage⟩ := (parse_eq_ok_iff ..).1 h
  refine ⟨_, hpackage.toc, ?_⟩
  rw [slice, List.length_take]
  exact Nat.min_le_left _ _

theorem position_lt_of_parse_badToc {path : Path} {content : Bytes} {e : TocError}
    (h : Archive.parse path content = .error (.badToc e)) : e.position < content.length := by
  rw [Archive.parse] at h
  split at h
  · cases h
  dsimp only at h
  split at h
  · cases h
  split at h
  · cases h
  next cookie _ =>
  split at h
  · cases h
  split at h
  · cases h
  split at h
  · cases h
  split at h
  · next cause hcause =>
    cases h
    have := position_lt_of_parse_error hcause
    rw [slice, List.length_take] at this
    omega
  · cases h

/-- A file is opened as an archive exactly if it holds a package, which then is
what its bytes say. No sum wraps that is computed on the way, nothing is read behind the end
of the file, and the loop over the records stops in time. -/
theorem read_package_iff (files : FileTree) (path : Path) (content : Bytes)
    (h : files.lookup path = .ok (.file content)) :
    (∀ a, Archive.read files path = .ok a ↔ a.path = path ∧ ∃ position, HoldsPackage content position a) ∧
      (content.length < 2 ^ 63 → Archive.parseWords path content = Archive.read files path) ∧
      Archive.read files path ≠ .error .shortToc ∧
      (∀ e, Archive.read files path = .error (.badToc e) → e.position < content.length) ∧
      ∀ a, Archive.read files path = .ok a →
        a.packageOffset + a.cookie.tocOffset.toNat + a.cookie.tocLength.toNat ≤ content.length ∧
          recordHeaderLength * a.entries.length ≤ a.cookie.tocLength.toNat := by
  rw [read_file h]
  refine ⟨parse_eq_ok_iff path content, parseWords_eq_parse path, parse_ne_shortToc path content,
    fun e he => position_lt_of_parse_badToc he, fun a ha => ?_⟩
  obtain ⟨-, position, ha⟩ := (parse_eq_ok_iff path content a).1 ha
  refine ⟨ha.toc_le, Nat.le_trans ha.toc.length_le ?_⟩
  rw [slice, List.length_take]
  exact Nat.min_le_left _ _

/-- Two records, the first with a name that fills its field, the second with a NUL behind its name. -/
def twoRecords : Bytes :=
  (ofUInt32 20 ++ (ofUInt32 0 ++ (ofUInt32 2 ++ (ofUInt32 2 ++ ([0, 0x78] ++ [0x61, 0x62]))))) ++
    (ofUInt32 20 ++ (ofUInt32 2 ++ (ofUInt32 1 ++ (ofUInt32 9 ++ ([1, 0x73] ++ [0x63, 0])))))

/-- A file that starts with a byte of its own: three bytes, a table of contents of two records, and the cookie. -/
def listedPackage : Bytes :=
  [0x7F] ++ ([1, 2, 3] ++ (twoRecords ++ (cookieMagic ++ (ofUInt32 131 ++ (ofUInt32 3 ++ (ofUInt32 40 ++ (ofUInt32 310 ++
    ([0x6C, 0x69, 0x62] ++ List.replicate 61 0))))))))

theorem isTable_twoRecords : IsTable twoRecords [⟨0, 2, 2, false, .data, "ab"⟩, ⟨2, 1, 9, true, .script, "c"⟩] := by
  have hplain : IsRecord _ ⟨0, 2, 2, false, .data, "ab"⟩ :=
    @IsRecord.fields ⟨0, 2, 2, false, .data, "ab"⟩ 20 0 0x78 [0x61, 0x62] rfl (by decide) rfl rfl
  have hcompressed : IsRecord _ ⟨2, 1, 9, true, .script, "c"⟩ :=
    @IsRecord.fields ⟨2, 1, 9, true, .script, "c"⟩ 20 1 0x73 [0x63, 0] rfl (by decide) rfl rfl
  have htable := IsTable.cons hplain (.cons hcompressed .nil)
  rwa [List.append_nil] at htable

theorem holdsPackage_listedPackage : HoldsPackage listedPackage 44 ⟨[97], 1, ⟨131, 3, 40, 310, "lib"⟩,
    [⟨0, 2, 2, false, .data, "ab"⟩, ⟨2, 1, 9, true, .script, "c"⟩]⟩ := by
  have hlength : listedPackage.length = 132 := by decide +kernel
  refine ⟨by decide +kernel, fun j hj => ?_, ?_, ?_, rfl, by decide, isTable_twoRecords⟩
  · have hle := hj.le_length (by decide)
    have hnone : ∀ k < 80, ¬ OccursAt cookieMagic listedPackage (45 + k) := by decide +kernel
    have hmagic : cookieMagic.length = 8 := rfl
    by_contra hpos
    exact hnone (j - 45) (by omega) (by rwa [Nat.add_sub_cancel' (by omega)])
  · rw [hlength]
    decide
  · exact .fields (c := ⟨131, 3, 40, 310, "lib"⟩) rfl rfl

theorem read_package_iff_listed :
    (FileTree.mk fun _ => some (.file listedPackage)).lookup [97] = .ok (.file listedPackage) ∧
      Archive.read ⟨fun _ => some (.file listedPackage)⟩ [97] = .ok ⟨[97], 1, ⟨131, 3, 40, 310, "lib"⟩,
        [⟨0, 2, 2, false, .data, "ab"⟩, ⟨2, 1, 9, true, .script, "c"⟩]⟩ :=
  ⟨rfl, ((read_package_iff _ _ listedPackage rfl).1 _).2 ⟨rfl, 44, holdsPackage_listedPackage⟩⟩

end FrozenApp.Package
