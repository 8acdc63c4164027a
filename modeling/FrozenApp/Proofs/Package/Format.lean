import FrozenApp.Package.Archive
import FrozenApp.Proofs.Search
import FrozenApp.Proofs.Utf8
/-!
# The format of a package

`IsRecord`, `IsTable` and `IsCookie` say by what bytes a record, a table of
contents and a cookie are spelled, and `HoldsPackage` what a file has to look
like around them. The table of contents is read exactly if it is spelled so
(`parse_toc_eq_ok_iff`), and `parse_eq_ok_iff` says the same of whole files: the
archive that is read is the one whose package the file holds.
-/

namespace FrozenApp.Package

open Bytes

/-- The bytes of a record: its length, the numbers of the entry, the flag and the
code, and a field that holds the name up to its first NUL. -/
inductive IsRecord : Bytes → Entry → Prop
  | fields {e : Entry} {length : UInt32} {flag code : UInt8} {field : Bytes}
      (length_eq : length.toNat = recordHeaderLength + field.length)
      (compressed_iff : e.compressed = true ↔ flag = 1) (kind_eq : e.kind = .ofCode code)
      (name_eq : ofString e.name = field.cutAtNul) :
      IsRecord (ofUInt32 length ++ (ofUInt32 e.offset ++ (ofUInt32 e.length ++
        (ofUInt32 e.uncompressedLength ++ ([flag, code] ++ field))))) e

/-- The bytes of a table of contents: its records, one behind the other. -/
inductive IsTable : Bytes → List Entry → Prop
  | nil : IsTable [] []
  | cons {record rest : Bytes} {e : Entry} {entries : List Entry} :
      IsRecord record e → IsTable rest entries → IsTable (record ++ rest) (e :: entries)

/-- The bytes of a cookie: the magic, its numbers, and a field that holds the
library's name up to its first NUL. -/
inductive IsCookie : Bytes → Cookie → Prop
  | fields {c : Cookie} {field : Bytes} (length_eq : field.length = libraryNameLength)
      (name_eq : ofString c.libraryName = field.cutAtNul) :
      IsCookie (cookieMagic ++ (ofUInt32 c.packageLength ++ (ofUInt32 c.tocOffset ++
        (ofUInt32 c.tocLength ++ (ofUInt32 c.version ++ field))))) c

/-- The content of a file holds the package of an archive, with the cookie at
`position`. -/
structure HoldsPackage (content : Bytes) (position : Nat) (a : Archive) : Prop where
  /-- The magic starts there, and nowhere behind. -/
  magic : OccursAt cookieMagic content position
  last : ∀ j, OccursAt cookieMagic content j → j ≤ position
  cookie_fits : position + cookieLength ≤ content.length
  cookie : IsCookie (content.slice position cookieLength) a.cookie
  /-- The package ends with the cookie, and starts within the file. -/
  package : a.packageOffset + a.cookie.packageLength.toNat = position + cookieLength
  toc_fits : a.cookie.tocOffset.toNat + a.cookie.tocLength.toNat ≤ a.cookie.packageLength.toNat
  toc : IsTable (content.slice (a.packageOffset + a.cookie.tocOffset.toNat) a.cookie.tocLength.toNat) a.entries

/-! ## Texts of fields -/

theorem fieldText_eq_ok_iff (field : Bytes) (text : String) :
    fieldText field = .ok text ↔ ofString text = field.cutAtNul :=
  Utf8.decode_eq_ok_iff _ _

/-! ## Records -/

theorem IsRecord.length_le {record : Bytes} {e : Entry} (h : IsRecord record e) :
    recordHeaderLength ≤ record.length := by
  cases h
  simp only [List.length_append, length_ofUInt32, List.length_cons, List.length_nil, recordHeaderLength]
  omega

/-- What is read ahead of any further bytes is what the record spells. -/
theorem IsRecord.read {record : Bytes} {e : Entry} (h : IsRecord record e) (rest : Bytes) :
    Toc.statedLength (record ++ rest) = record.length ∧
      fieldText (((record ++ rest).take record.length).drop recordHeaderLength) = .ok e.name ∧
      Toc.entryOf (record ++ rest) e.name = e := by
  obtain ⟨hlength, hflag, hkind, hname⟩ := h
  rename_i length flag code field
  have hcompressed : (flag == 1) = e.compressed := by
    rw [Bool.eq_iff_iff, beq_iff_eq]; exact hflag.symm
  refine ⟨?_, ?_, ?_⟩
  · rw [Toc.statedLength, List.append_assoc, uint32At_eq_of_drop (n := length) rfl, hlength]
    simp only [List.length_append, length_ofUInt32, List.length_cons, List.length_nil, recordHeaderLength]
    omega
  · rw [List.take_left, fieldText_eq_ok_iff]
    exact hname
  · rw [Toc.entryOf, uint32At_eq_of_drop (n := e.offset) rfl, uint32At_eq_of_drop (n := e.length) rfl,
      uint32At_eq_of_drop (n := e.uncompressedLength) rfl]
    show Entry.mk _ _ _ (flag == 1) (Kind.ofCode code) _ = e
    rw [hcompressed, ← hkind]

/-- A record whose length fits and whose name is text spells the entry that is read. -/
theorem isRecord_take {s : Bytes} {name : String} (hlow : recordHeaderLength ≤ Toc.statedLength s)
    (hhigh : Toc.statedLength s ≤ s.length)
    (hname : fieldText ((s.take (Toc.statedLength s)).drop recordHeaderLength) = .ok name) :
    IsRecord (s.take (Toc.statedLength s)) (Toc.entryOf s name) := by
  unfold recordHeaderLength at hlow
  rw [fieldText_eq_ok_iff, List.drop_take] at hname
  have hfield : (slice 18 (Toc.statedLength s - 18) s).length = Toc.statedLength s - 18 := length_slice (by omega)
  have hsplit : s.take (Toc.statedLength s) = ofUInt32 (s.uint32At 0) ++ (ofUInt32 (s.uint32At 4) ++
      (ofUInt32 (s.uint32At 8) ++ (ofUInt32 (s.uint32At 12) ++ ([s.getD 16 0, s.getD 17 0] ++
        slice 18 (Toc.statedLength s - 18) s)))) := by
    rw [ofUInt32_uint32At (by omega), ofUInt32_uint32At (by omega), ofUInt32_uint32At (by omega),
      ofUInt32_uint32At (by omega), ← slice_two (by omega), ← slice_add, ← slice_add s 12, ← slice_add s 8,
      ← slice_add s 4, ← slice_add s 0]
    rw [slice, List.drop_zero]
    congr 1; omega
  rw [hsplit]
  refine .fields (e := Toc.entryOf s name) ?_ ?_ rfl hname
  · rw [hfield, recordHeaderLength]
    show Toc.statedLength s = _
    omega
  · exact beq_iff_eq

/-! ## Tables of contents -/

/-- Reading a record ahead of any bytes passes the checks of its length. -/
theorem IsRecord.passes {record : Bytes} {e : Entry} (h : IsRecord record e) (rest : Bytes) :
    ¬ (record ++ rest).isEmpty ∧ ¬ (record ++ rest).length < recordHeaderLength ∧
      ¬ (record.length < recordHeaderLength ∨ (record ++ rest).length < record.length) := by
  have hle := h.length_le
  rw [List.isEmpty_iff, ← List.length_eq_zero_iff, List.length_append]
  rw [recordHeaderLength] at hle ⊢
  omega

theorem parseFrom_cons {record : Bytes} {e : Entry} (h : IsRecord record e) (position : Nat) (rest : Bytes) :
    Toc.parseFrom position (record ++ rest) = (Toc.parseFrom (position + record.length) rest).map (e :: ·) := by
  obtain ⟨hlength, hname, hentry⟩ := h.read rest
  obtain ⟨hnonempty, hlong, hfits⟩ := h.passes rest
  rw [Toc.parseFrom, if_neg hnonempty, if_neg hlong]
  simp only [hlength]
  rw [dif_neg hfits]
  simp only [hname, hentry, List.drop_left]
  cases Toc.parseFrom (position + record.length) rest <;> rfl

/-- A table is read to its end, whatever follows, and then what follows is read. -/
theorem parseFrom_append {s : Bytes} {entries : List Entry} (h : IsTable s entries) (position : Nat) (behind : Bytes) :
    Toc.parseFrom position (s ++ behind) = (Toc.parseFrom (position + s.length) behind).map (entries ++ ·) := by
  induction h generalizing position with
  | nil =>
    rw [List.nil_append, List.length_nil, Nat.add_zero]
    cases Toc.parseFrom position behind <;> rfl
  | @cons record rest e entries hr _ ih =>
    rw [List.append_assoc, parseFrom_cons hr, ih, List.length_append, Nat.add_assoc]
    cases Toc.parseFrom (position + (record.length + rest.length)) behind <;> rfl

theorem parseFrom_of_isTable {s : Bytes} {entries : List Entry} (h : IsTable s entries) (position : Nat) :
    Toc.parseFrom position s = .ok entries := by
  have happend := parseFrom_append h position []
  have hnil : Toc.parseFrom (position + s.length) [] = .ok [] := by rw [Toc.parseFrom]; rfl
  rw [List.append_nil, hnil] at happend
  rw [happend]
  exact congrArg Except.ok (List.append_nil entries)

theorem isTable_of_parseFrom {position : Nat} {s : Bytes} {entries : List Entry}
    (h : Toc.parseFrom position s = .ok entries) : IsTable s entries := by
  fun_induction Toc.parseFrom position s generalizing entries with
  | case1 position s hs =>
    rw [List.isEmpty_iff.1 hs]; cases h; exact .nil
  -- the other cases are errors
  | case6 position s hs hlong length hfits name hname entries hrest =>
    rename_i ih
    cases h
    rw [not_or, Nat.not_lt, Nat.not_lt] at hfits
    have := IsTable.cons (isRecord_take hfits.1 hfits.2 hname) (ih hrest)
    rwa [List.take_append_drop] at this
  | _ => cases h

/-- A table of contents is read exactly if it splits into records, and then into
these entries. -/
theorem parse_toc_eq_ok_iff (s : Bytes) (entries : List Entry) : Toc.parse s = .ok entries ↔ IsTable s entries :=
  ⟨isTable_of_parseFrom, fun h => parseFrom_of_isTable h 0⟩

/-! ## Cookies -/

/-- Of 88 bytes that start with the magic, those are a cookie whose library name is text. -/
theorem cookie_parse_eq_ok_iff {raw : Bytes} (hlength : raw.length = cookieLength) (hmagic : cookieMagic <+: raw)
    (c : Cookie) : Cookie.parse raw = .ok c ↔ IsCookie raw c := by
  constructor
  · intro h
    have hfield : (raw.slice 24 64).length = 64 := length_slice (by rw [hlength, cookieLength])
    have hsplit : raw = cookieMagic ++ (ofUInt32 (raw.uint32At 8) ++ (ofUInt32 (raw.uint32At 12) ++
        (ofUInt32 (raw.uint32At 16) ++ (ofUInt32 (raw.uint32At 20) ++ raw.slice 24 64)))) := by
      have hle : ∀ n, n ≤ 20 → n + 4 ≤ raw.length := fun n hn => by rw [hlength, cookieLength]; omega
      rw [ofUInt32_uint32At (hle 8 (by omega)), ofUInt32_uint32At (hle 12 (by omega)),
        ofUInt32_uint32At (hle 16 (by omega)), ofUInt32_uint32At (hle 20 (by omega)), ← slice_add, ← slice_add raw 16,
        ← slice_add raw 12, ← slice_add raw 8]
      have htake : raw.take 8 = cookieMagic := (List.prefix_iff_eq_take.1 hmagic).symm
      rw [slice, List.take_of_length_le (by rw [List.length_drop, hlength, cookieLength]), ← htake, List.take_append_drop]
    rw [Cookie.parse] at h
    cases hname : fieldText (raw.slice 24 libraryNameLength) with
    | error fault => rw [hname] at h; cases h
    | ok name =>
      rw [hname] at h
      cases h
      rw [fieldText_eq_ok_iff] at hname
      have := IsCookie.fields (c := ⟨raw.uint32At 8, raw.uint32At 12, raw.uint32At 16, raw.uint32At 20, name⟩) hfield hname
      rwa [← hsplit] at this
  · rintro ⟨hfield, hname⟩
    rename_i field
    have hslice : slice 24 libraryNameLength (cookieMagic ++ (ofUInt32 c.packageLength ++ (ofUInt32 c.tocOffset ++
        (ofUInt32 c.tocLength ++ (ofUInt32 c.version ++ field))))) = field := by
      rw [← hfield]; exact List.take_length
    rw [Cookie.parse, hslice, (fieldText_eq_ok_iff _ _).2 hname, uint32At_eq_of_drop (n := c.packageLength) rfl,
      uint32At_eq_of_drop (n := c.tocOffset) rfl, uint32At_eq_of_drop (n := c.tocLength) rfl,
      uint32At_eq_of_drop (n := c.version) rfl]
    rfl

/-! ## Files -/

theorem magic_starts_slice {content : Bytes} {position : Nat} (h : OccursAt cookieMagic content position) :
    cookieMagic <+: content.slice position cookieLength :=
  List.prefix_take_iff.2 ⟨h, by decide⟩

/-- An archive is read from a file exactly if the file holds its package. -/
theorem parse_eq_ok_iff (path : Path) (content : Bytes) (a : Archive) :
    Archive.parse path content = .ok a ↔ a.path = path ∧ ∃ position, HoldsPackage content position a := by
  have hfind : ∀ i, content.findLast? cookieMagic = some i ↔
      OccursAt cookieMagic content i ∧ ∀ j, OccursAt cookieMagic content j → j ≤ i :=
    findLast?_eq_some_iff (by decide) (by decide) content
  constructor
  · intro h
    -- the checks in their order: where one fails there is no archive
    rw [Archive.parse] at h
    split at h
    · cases h
    · next position hposition =>
      obtain ⟨hmagic, hlast⟩ := (hfind position).1 hposition
      dsimp only at h
      split at h
      · cases h
      next hfits =>
      have hraw := length_slice (s := content) (Nat.not_lt.1 hfits)
      split at h
      · cases h
      next cookie hcookie =>
      rw [cookie_parse_eq_ok_iff hraw (magic_starts_slice hmagic)] at hcookie
      split at h
      · cases h
      next hpackage =>
      split at h
      · cases h
      next htoc =>
      split at h
      · cases h
      split at h
      · cases h
      next entries hentries =>
      cases h
      exact ⟨rfl, position, hmagic, hlast, Nat.not_lt.1 hfits, hcookie,
        Nat.sub_add_cancel (Nat.not_lt.1 hpackage), Nat.not_lt.1 htoc, (parse_toc_eq_ok_iff _ _).1 hentries⟩
  · rintro ⟨rfl, position, hmagic, hlast, hfits, hcookie, hpackage, htoc, hentries⟩
    have hraw := length_slice (s := content) hfits
    have hoffset : position + cookieLength - a.cookie.packageLength.toNat = a.packageOffset := by omega
    rw [Archive.parse, (hfind position).2 ⟨hmagic, hlast⟩]
    dsimp only
    rw [if_neg (Nat.not_lt.2 hfits), (cookie_parse_eq_ok_iff hraw (magic_starts_slice hmagic) _).2 hcookie]
    dsimp only
    rw [if_neg (by omega), if_neg (by omega), hoffset, if_neg (by omega), (parse_toc_eq_ok_iff _ _).2 hentries]

end FrozenApp.Package
