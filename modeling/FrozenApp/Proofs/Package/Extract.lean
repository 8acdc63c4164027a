import FrozenApp.Proofs.Package.Open
/-!
# Extracting a payload

An entry is anything that gives an offset, a length and a size; it need not come
from the table of contents. What is read for it is a `Zlib.Reading`: what the
decoder hands over, or the stored bytes themselves. `Settled` says what becomes of
any reading, and `extract_exact` puts this together with the bounds that hold of an
archive that was opened.
-/

namespace FrozenApp.Zlib

/-! ## What the decoder hands over -/

theorem read_of_fault?_eq_none {size : Nat} {compressed : Bytes} (h : (decode compressed).fault? = none) :
    read size compressed = decode compressed := by
  rw [read, h]
  rfl

theorem read_fault? (size : Nat) (compressed : Bytes) : (read size compressed).fault? = (decode compressed).fault? := by
  rw [read]
  split <;> rfl

/-- No bytes are handed over but those that are decoded, from the first one on. -/
theorem read_content_prefix (size : Nat) (compressed : Bytes) :
    (read size compressed).content.toList <+: (decode compressed).content.toList := by
  rw [read]
  split
  · rw [Array.take_eq_extract, Array.toList_extract, List.extract_eq_take_drop, List.drop_zero]
    exact List.take_prefix _ _
  · exact List.prefix_rfl

/-- No more is collected than was asked for. -/
theorem Reading.length_le_of_collect {r : Reading} {limit : Nat} {data : Bytes} (h : r.collect limit = .ok data) :
    data.length ≤ limit := by
  rw [collect] at h
  split at h
  · cases h
    rw [Array.length_toList, Array.take_eq_extract, Array.size_extract]
    omega
  next hless =>
  split at h
  · cases h
  · cases h
    rw [Array.length_toList]
    omega

end FrozenApp.Zlib

namespace FrozenApp.Package

open Bytes

/-! ## What becomes of a reading -/

/-- What is read for an entry. Bytes that are stored as they are end properly. -/
def Entry.reading (e : Entry) (stored : Bytes) : Zlib.Reading :=
  if e.compressed then Zlib.read e.uncompressedLength.toNat stored else ⟨stored.toArray, none, false⟩

theorem unpack_eq_collect (e : Entry) (stored : Bytes) :
    Archive.unpack e stored = (e.reading stored).collect (e.uncompressedLength.toNat + 1) := by
  rw [Archive.unpack, Entry.reading]
  cases e.compressed with
  | true => rfl
  | false =>
    by_cases h : e.uncompressedLength.toNat + 1 ≤ stored.length
    · simp [Zlib.Reading.collect, h]
    · simp [Zlib.Reading.collect, h, List.take_of_length_le (Nat.le_of_not_le h)]

/-- What becomes of a reading, by how much it brings and how it ends. -/
inductive Settled (e : Entry) (reading : Zlib.Reading) : Except ExtractError Bytes → Prop
  /-- There is more than the entry gives; how it ends is not looked at. -/
  | excess (hsize : e.uncompressedLength.toNat < reading.content.size) :
      Settled e reading (.error (.wrongLength e.name e.uncompressedLength (e.uncompressedLength.toNat + 1)))
  | damaged {fault : Zlib.Fault} (hsize : reading.content.size ≤ e.uncompressedLength.toNat)
      (hfault : reading.fault? = some fault) : Settled e reading (.error (.damaged e.name fault))
  | short (hsize : reading.content.size < e.uncompressedLength.toNat) (hfault : reading.fault? = none) :
      Settled e reading (.error (.wrongLength e.name e.uncompressedLength reading.content.size))
  | whole (hsize : reading.content.size = e.uncompressedLength.toNat) (hfault : reading.fault? = none) :
      Settled e reading (.ok reading.content.toList)

theorem extractFrom_settled (a : Archive) (e : Entry) (content : Bytes) :
    Settled e (e.reading (content.slice (a.absoluteOffset e) e.length.toNat)) (a.extractFrom e content) := by
  rw [Archive.extractFrom, unpack_eq_collect]
  generalize e.reading _ = reading
  rw [Zlib.Reading.collect]
  by_cases hexcess : e.uncompressedLength.toNat < reading.content.size
  · rw [if_pos (Nat.succ_le_of_lt hexcess)]
    have hlength : (reading.content.take (e.uncompressedLength.toNat + 1)).toList.length =
        e.uncompressedLength.toNat + 1 := by
      rw [Array.length_toList, Array.take_eq_extract, Array.size_extract]
      omega
    simp only [hlength]
    rw [if_neg (Nat.succ_ne_self _)]
    exact .excess hexcess
  · rw [if_neg (Nat.not_le.2 (Nat.lt_succ_of_le (Nat.le_of_not_lt hexcess)))]
    cases hfault : reading.fault? with
    | some fault => exact .damaged (Nat.le_of_not_lt hexcess) hfault
    | none =>
      simp only [Array.length_toList]
      by_cases hwhole : reading.content.size = e.uncompressedLength.toNat
      · rw [if_pos hwhole]
        exact .whole hwhole hfault
      · rw [if_neg hwhole]
        exact .short (Nat.lt_of_le_of_ne (Nat.le_of_not_lt hexcess) hwhole) hfault

namespace Settled

variable {e : Entry} {reading : Zlib.Reading} {r : Except ExtractError Bytes}

theorem eq_ok_iff (h : Settled e reading r) (data : Bytes) : r = .ok data ↔
    reading.fault? = none ∧ reading.content.toList = data ∧ data.length = e.uncompressedLength.toNat := by
  constructor
  · rintro rfl
    cases h with
    | whole hsize hfault => exact ⟨hfault, rfl, hsize⟩
  · rintro ⟨hfault, rfl, hlength⟩
    rw [Array.length_toList] at hlength
    cases h with
    | excess hsize | short hsize => omega
    | damaged _ hdamaged => cases hdamaged.symm.trans hfault
    | whole => rfl

theorem eq_ok_iff_of_plain {stored : Bytes} (h : Settled e (e.reading stored) r) (hplain : e.compressed = false)
    (data : Bytes) : r = .ok data ↔ e.uncompressedLength.toNat = stored.length ∧ stored = data := by
  rw [Entry.reading, hplain, if_neg Bool.false_ne_true] at h
  rw [h.eq_ok_iff, and_iff_right rfl]
  constructor
  · rintro ⟨rfl, hsize⟩
    exact ⟨hsize.symm, rfl⟩
  · rintro ⟨hsize, rfl⟩
    exact ⟨rfl, hsize.symm⟩

theorem eq_of_excess (h : Settled e reading r) (hsize : e.uncompressedLength.toNat < reading.content.size) :
    r = .error (.wrongLength e.name e.uncompressedLength (e.uncompressedLength.toNat + 1)) := by
  cases h with
  | excess => rfl
  | damaged h | short h | whole h => omega

end Settled

/-! ## What is read -/

/-- The bytes that are stored for an entry. -/
def Archive.storedBytes (a : Archive) (e : Entry) (content : Bytes) : Bytes :=
  content.slice (a.absoluteOffset e) e.length.toNat

/-- The bytes of a file ahead of the table of contents of its package. -/
def Archive.payloads (a : Archive) (content : Bytes) : Bytes :=
  content.slice a.packageOffset a.cookie.tocOffset.toNat

section Extract

variable {files : FileTree} {a : Archive} {e : Entry} {content : Bytes}
  (hinside : e.offset.toNat + e.length.toNat ≤ a.cookie.tocOffset.toNat)

include hinside

theorem storedBytes_eq_slice (content : Bytes) :
    a.storedBytes e content = (a.payloads content).slice e.offset.toNat e.length.toNat := by
  rw [Archive.storedBytes, Archive.payloads, Archive.absoluteOffset, slice, slice, slice, List.drop_take, List.drop_drop,
    List.take_take, Nat.min_eq_left (Nat.le_sub_of_add_le' hinside)]

theorem length_storedBytes (h : a.packageOffset + a.cookie.tocOffset.toNat ≤ content.length) :
    (a.storedBytes e content).length = e.length.toNat :=
  length_slice (by rw [Archive.absoluteOffset]; omega)

variable (hfile : files.lookup a.path = .ok (.file content))

include hfile

theorem extract_settled : Settled e (e.reading (a.storedBytes e content)) (a.extract files e) := by
  rw [Archive.extract, if_neg (Nat.not_lt.2 hinside), hfile]
  exact extractFrom_settled a e content

/-- Only the bytes among the payloads matter. -/
theorem extract_congr {files' : FileTree} {content' : Bytes} (hfile' : files'.lookup a.path = .ok (.file content'))
    (hsame : a.payloads content' = a.payloads content) : a.extract files' e = a.extract files e := by
  have hstored : a.storedBytes e content' = a.storedBytes e content := by
    rw [storedBytes_eq_slice hinside, storedBytes_eq_slice hinside, hsame]
  unfold Archive.storedBytes at hstored
  rw [Archive.extract, Archive.extract, hfile, hfile']
  simp only [Archive.extractFrom, hstored]

end Extract

/-- A payload has the size that the entry gives, which is a number of 32 bits. -/
theorem length_of_extract {files : FileTree} {a : Archive} {e : Entry} {data : Bytes}
    (h : a.extract files e = .ok data) : data.length = e.uncompressedLength.toNat := by
  rw [Archive.extract] at h
  split at h
  · cases h
  split at h
  · cases h
  · cases h
  · exact (((extractFrom_settled a e _).eq_ok_iff data).1 h).2.2

theorem length_lt_of_extract {files : FileTree} {a : Archive} {e : Entry} {data : Bytes}
    (h : a.extract files e = .ok data) : data.length < 2 ^ 32 := by
  rw [length_of_extract h]
  exact e.uncompressedLength.toNat_lt

/-! ## Any entry -/

/-- The payload that the stored bytes of an entry hold. -/
structure Unpacked (e : Entry) (stored : Bytes) (r : Except ExtractError Bytes) : Prop where
  /-- What is stored as it is has to have the size that the entry gives. -/
  plain : e.compressed = false → ∀ data, r = .ok data ↔ e.length = e.uncompressedLength ∧ data = stored
  /-- What is compressed has to end properly, and to have that size. -/
  inflated : e.compressed = true → ∀ data, r = .ok data ↔ (Zlib.decode stored).fault? = none ∧
    (Zlib.decode stored).content.toList = data ∧ data.length = e.uncompressedLength.toNat
  /-- A decoder that hands over more is not asked how the stream ends. -/
  excess : e.compressed = true →
    e.uncompressedLength.toNat < (Zlib.read e.uncompressedLength.toNat stored).content.size →
      r = .error (.wrongLength e.name e.uncompressedLength (e.uncompressedLength.toNat + 1))
  /-- It hands over what it decodes, and all of that where the stream ends properly. -/
  handed : (Zlib.read e.uncompressedLength.toNat stored).content.toList <+: (Zlib.decode stored).content.toList ∧
    (Zlib.read e.uncompressedLength.toNat stored).fault? = (Zlib.decode stored).fault? ∧
      ((Zlib.decode stored).fault? = none → Zlib.read e.uncompressedLength.toNat stored = Zlib.decode stored)
  /-- No more than one byte beyond the size is collected. -/
  collected : ∀ data, Archive.unpack e stored = .ok data → data.length ≤ e.uncompressedLength.toNat + 1

theorem Settled.unpacked {e : Entry} {stored : Bytes} {r : Except ExtractError Bytes}
    (h : Settled e (e.reading stored) r) (hlength : stored.length = e.length.toNat) : Unpacked e stored r where
  plain hplain data := by
    rw [h.eq_ok_iff_of_plain hplain, ← UInt32.toNat_inj, hlength, eq_comm (a := stored)]
    exact and_congr_left' eq_comm
  inflated hcompressed data := by
    rw [Entry.reading, if_pos hcompressed] at h
    rw [h.eq_ok_iff, Zlib.read_fault?]
    refine and_congr_right fun hfault => ?_
    rw [Zlib.read_of_fault?_eq_none hfault]
  excess hcompressed hsize := by
    rw [Entry.reading, if_pos hcompressed] at h
    exact h.eq_of_excess hsize
  handed := ⟨Zlib.read_content_prefix .., Zlib.read_fault? .., Zlib.read_of_fault?_eq_none⟩
  collected data hdata := by
    rw [unpack_eq_collect] at hdata
    exact Zlib.Reading.length_le_of_collect hdata

/-- What extracting an entry from a file comes to. -/
structure Extraction (files : FileTree) (content : Bytes) (a : Archive) (e : Entry) : Prop where
  /-- The payloads lie in the file. -/
  payloads_fit : a.packageOffset + a.cookie.tocOffset.toNat ≤ content.length
  /-- Words of 64 bits are wide enough for the sum that is compared. -/
  sum : (e.offset.toUInt64 + e.length.toUInt64).toNat = e.offset.toNat + e.length.toNat
  outside : a.cookie.tocOffset.toNat < e.offset.toNat + e.length.toNat →
    a.extract files e = .error (.outside e.name e.length e.offset)
  /-- What is read lies among the payloads, and all of it is there. -/
  stored : e.offset.toNat + e.length.toNat ≤ a.cookie.tocOffset.toNat →
    a.packageOffset ≤ a.absoluteOffset e ∧
      a.absoluteOffset e + e.length.toNat ≤ a.packageOffset + a.cookie.tocOffset.toNat ∧
      (a.storedBytes e content).length = e.length.toNat
  unpacked : e.offset.toNat + e.length.toNat ≤ a.cookie.tocOffset.toNat →
    Unpacked e (a.storedBytes e content) (a.extract files e)
  /-- The rest of the file makes no difference. -/
  elsewhere : ∀ files' content', files'.lookup a.path = .ok (.file content') →
    a.payloads content' = a.payloads content → a.extract files' e = a.extract files e

/-- Any entry of an archive whose file is as it was when the archive was opened is
extracted from its stored bytes, or refused where these would not lie ahead of the
table of contents. -/
theorem extract_exact {before files : FileTree} {path : Path} {a : Archive}
    (hopened : Archive.read before path = .ok a) (hunchanged : files.lookup path = before.lookup path) (e : Entry) :
    ∃ content, files.lookup path = .ok (.file content) ∧ Extraction files content a e := by
  obtain ⟨content, hfile⟩ := exists_file_of_read hopened
  rw [read_file hfile] at hopened
  obtain ⟨rfl, position, hpackage⟩ := (parse_eq_ok_iff ..).1 hopened
  rw [← hunchanged] at hfile
  have hfit : a.packageOffset + a.cookie.tocOffset.toNat ≤ content.length := by
    have := hpackage.toc_le
    omega
  refine ⟨content, hfile, hfit, ?_, fun houtside => if_pos houtside, fun hinside => ?_, fun hinside => ?_, ?_⟩
  · have hoffset := e.offset.toNat_lt
    have hlength := e.length.toNat_lt
    rw [UInt64.toNat_add, UInt32.toNat_toUInt64, UInt32.toNat_toUInt64]
    omega
  · refine ⟨Nat.le_add_right _ _, ?_, length_storedBytes hinside hfit⟩
    rw [Archive.absoluteOffset]
    omega
  · exact (extract_settled hinside hfile).unpacked (length_storedBytes hinside hfit)
  · intro files' content' hfile' hsame
    by_cases hinside : e.offset.toNat + e.length.toNat ≤ a.cookie.tocOffset.toNat
    · exact extract_congr hinside hfile hfile' hsame
    · have houtside := Nat.lt_of_not_le hinside
      rw [Archive.extract, Archive.extract, if_pos houtside, if_pos houtside]

/-- A package with three bytes ahead of a table of contents without entries. -/
def payloadPackage : Bytes :=
  [1, 2, 3] ++ (cookieMagic ++ (ofUInt32 91 ++ (ofUInt32 3 ++ (ofUInt32 0 ++ (ofUInt32 310 ++ List.replicate 64 0)))))

/-- The package in a file `a`, and nothing else. -/
def payloadFiles : FileTree :=
  FileTree.empty.put ⟨.working 0, [[97]]⟩ (.file payloadPackage)

/-- An archive that was opened where every file holds the package. The entry is none of its own. -/
theorem extract_exact_unlisted :
    Archive.read ⟨fun _ => some (.file payloadPackage)⟩ [97] = .ok ⟨[97], 0, ⟨91, 3, 0, 310, ""⟩, []⟩ ∧
      payloadFiles.lookup [97] = (FileTree.mk fun _ => some (.file payloadPackage)).lookup [97] ∧
      ∃ content, payloadFiles.lookup [97] = .ok (.file content) ∧
        Extraction payloadFiles content ⟨[97], 0, ⟨91, 3, 0, 310, ""⟩, []⟩ ⟨1, 2, 2, false, .data, "unlisted"⟩ := by
  have hopened : Archive.read ⟨fun _ => some (.file payloadPackage)⟩ [97] = .ok ⟨[97], 0, ⟨91, 3, 0, 310, ""⟩, []⟩ := by
    cbv
  have hunchanged : payloadFiles.lookup [97] = (FileTree.mk fun _ => some (.file payloadPackage)).lookup [97] := rfl
  exact ⟨hopened, hunchanged, extract_exact hopened hunchanged _⟩

end FrozenApp.Package
