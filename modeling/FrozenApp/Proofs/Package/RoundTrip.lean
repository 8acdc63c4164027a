import FrozenApp.Proofs.Package.Build
import FrozenApp.Proofs.Package.Extract
import FrozenApp.Proofs.Zlib.Store
import Mathlib.Data.List.Forall2
/-!
# A package that was built is read back

Whatever lies around a package in a file, it is found where it was put, with an
entry for each step of the build, and what went in is extracted
(`read_build`). The magic must not occur behind the start of the cookie: the
numbers of the cookie and the library's name can spell it.
-/

namespace FrozenApp.Package

open Bytes

/-! ## Payloads -/

/-- The stored bytes of an entry lie in the content, ahead of `limit` in the package that starts at `base`. -/
structure Pending.Located (content : Bytes) (base limit : Nat) (p : Pending) (e : Entry) : Prop where
  entry : ∃ offset, e = p.entry offset
  bytes : content.slice (base + e.offset.toNat) e.length.toNat = p.stored
  inside : e.offset.toNat + e.length.toNat ≤ limit

theorem located_entriesFrom {content rest : Bytes} {base limit offset : Nat} {ps : List Pending}
    (hlimit : limit < UInt32.size)
    (hdrop : content.drop (base + offset) = ps.flatMap (·.stored) ++ rest)
    (hfits : offset + (ps.flatMap (·.stored)).length ≤ limit) :
    List.Forall₂ (Pending.Located content base limit) ps (entriesFrom offset ps) := by
  induction ps generalizing offset with
  | nil => exact .nil
  | cons p ps ih =>
    rw [List.flatMap_cons, List.append_assoc] at hdrop
    rw [List.flatMap_cons, List.length_append] at hfits
    have hoffset : (p.entry offset).offset.toNat = offset := UInt32.toNat_ofNat_of_lt' (show _ < UInt32.size by omega)
    have hlength : (p.entry offset).length.toNat = p.stored.length :=
      UInt32.toNat_ofNat_of_lt' (show _ < UInt32.size by omega)
    refine .cons ⟨⟨offset, rfl⟩, ?_, by omega⟩ (ih ?_ (by omega))
    · rw [hoffset, hlength]
      exact slice_of_drop hdrop
    · rw [← Nat.add_assoc]
      exact drop_add_of_drop hdrop

theorem located_toBytes {b : Builder} {bytes : Bytes} (h : b.toBytes = .ok bytes) (before behind : Bytes) :
    List.Forall₂ (Pending.Located (before ++ bytes ++ behind) before.length b.cookieData.tocOffset.toNat) b.entries
      (entriesFrom 0 b.entries) := by
  obtain ⟨-, htotal, rfl⟩ := (toBytes_eq_ok_iff b bytes).1 h
  have hoffset : b.cookieData.tocOffset.toNat = b.payloads.length :=
    UInt32.toNat_ofNat_of_lt' (show _ < UInt32.size by omega)
  have hdrop : (before ++ (b.payloads ++ b.toc ++ b.cookie b.payloads.length b.toc.length) ++ behind).drop
      (before.length + 0) = b.payloads ++ (b.toc ++ (b.cookie b.payloads.length b.toc.length ++ behind)) := by
    rw [Nat.add_zero, List.append_assoc, List.drop_left, List.append_assoc, List.append_assoc]
  refine located_entriesFrom (UInt32.toNat_lt _) hdrop ?_
  rw [hoffset, Nat.zero_add]
  exact Nat.le_refl _

section Extract

variable {files : FileTree} {a : Archive} {e : Entry} {content stored : Bytes}
  (hfile : files.lookup a.path = .ok (.file content)) (hinside : e.offset.toNat + e.length.toNat ≤ a.cookie.tocOffset.toNat)
  (hstored : content.slice (a.packageOffset + e.offset.toNat) e.length.toNat = stored)

include hfile hinside hstored

/-- What is stored as it is is extracted if it has the length that the entry gives. -/
theorem extract_plain (hplain : e.compressed = false) (data : Bytes) :
    a.extract files e = .ok data ↔ e.uncompressedLength.toNat = stored.length ∧ stored = data := by
  have hsettled := extract_settled hinside hfile
  rw [show a.storedBytes e content = stored from hstored] at hsettled
  exact hsettled.eq_ok_iff_of_plain hplain data

theorem extract_inflated (hcompressed : e.compressed = true) {data : Bytes} (hsize : e.uncompressedLength.toNat = data.length)
    (hdata : Zlib.inflate data.length stored = .ok data) : a.extract files e = .ok data := by
  rw [Archive.extract, if_neg (Nat.not_lt.2 hinside), hfile]
  simp [Archive.extractFrom, Archive.absoluteOffset, hstored, Archive.unpack, hcompressed, hsize, hdata]

end Extract

/-! ## The round trip -/

/-- A package that was built is read where nothing behind it looks like one. -/
theorem read_toBytes {files : FileTree} {path : Path} {b : Builder} {bytes before behind : Bytes}
    (hnames : ∀ p ∈ b.entries, '\x00' ∉ p.name.toList) (hbytes : b.toBytes = .ok bytes)
    (hfile : files.lookup path = .ok (.file (before ++ bytes ++ behind)))
    (hlast : ∀ j, OccursAt cookieMagic (before ++ bytes ++ behind) j → j + cookieLength ≤ before.length + bytes.length) :
    Archive.read files path = .ok (b.archiveAt path before.length) := by
  rw [read_file hfile]
  exact (parse_eq_ok_iff ..).2 ⟨rfl, _, holdsPackage_of_toBytes hnames hbytes path hlast⟩

/-- The magic has to be looked for within the content only. -/
theorem magic_bounded {content : Bytes} {limit : Nat}
    (h : ∀ j < content.length, OccursAt cookieMagic content j → j + cookieLength ≤ limit) (j : Nat)
    (hj : OccursAt cookieMagic content j) : j + cookieLength ≤ limit := by
  have hle : j + cookieMagic.length ≤ content.length := hj.le_length (by decide)
  exact h j (Nat.lt_of_lt_of_le (Nat.lt_add_of_pos_right (by decide)) hle) hj

/-- A file that holds the bytes of a builder and nothing else. -/
theorem read_toBytes_alone {files : FileTree} {path : Path} {b : Builder} {bytes : Bytes}
    (hnames : ∀ p ∈ b.entries, '\x00' ∉ p.name.toList) (hbytes : b.toBytes = .ok bytes)
    (hfile : files.lookup path = .ok (.file bytes))
    (hlast : ∀ j < bytes.length, OccursAt cookieMagic bytes j → j + cookieLength ≤ bytes.length) :
    Archive.read files path = .ok (b.archiveAt path 0) := by
  have hcontent : [] ++ bytes ++ [] = bytes := by rw [List.nil_append, List.append_nil]
  refine @read_toBytes _ _ _ _ [] [] hnames hbytes (by rw [hcontent, hfile]) ?_
  rw [hcontent, List.length_nil, Nat.zero_add]
  exact magic_bounded hlast

/-- What extracting the entry of a step gives: the payload, and for stored bytes
with a length of their own an error unless the length is theirs. -/
def Step.Extracts (r : Except ExtractError Bytes) : Step → Prop
  | add _ _ payload | compressed _ _ payload => r = .ok payload
  | option _ => r = .ok []
  | raw _ _ stored size false => ((∃ data, r = .ok data) ↔ size = stored.length) ∧ ∀ data, r = .ok data → data = stored
  | raw _ _ _ _ true => True

/-- The entry of an archive is what a step added. -/
structure Step.ReadAs (files : FileTree) (a : Archive) (s : Step) (e : Entry) : Prop where
  name : e.name = s.name
  kind : e.kind = .ofCode s.kind.code
  size : e.uncompressedLength.toNat = s.size
  compressed : e.compressed = s.isCompressed
  extracts : s.Extracts (a.extract files e)

theorem Step.readAs {files : FileTree} {a : Archive} {content : Bytes} {compress : Bytes → Bytes}
    (hcompress : ∀ d, Zlib.inflate d.length (compress d) = .ok d) (hfile : files.lookup a.path = .ok (.file content))
    {s : Step} (hs : s.Allowed) {e : Entry}
    (he : (s.pending compress).Located content a.packageOffset a.cookie.tocOffset.toNat e) : s.ReadAs files a e := by
  obtain ⟨⟨offset, rfl⟩, hstored, hinside⟩ := he
  have hsize : ((s.pending compress).entry offset).uncompressedLength.toNat = s.size := UInt32.toNat_ofNat_of_lt' hs.2
  refine ⟨rfl, rfl, hsize, rfl, ?_⟩
  match s with
  | .add kind name payload => exact (extract_plain hfile hinside hstored rfl payload).2 ⟨hsize, rfl⟩
  | .compressed kind name payload =>
    exact extract_inflated hfile hinside hstored rfl hsize (hcompress payload)
  | .option text => exact (extract_plain hfile hinside hstored rfl []).2 ⟨hsize, rfl⟩
  | .raw kind name stored size true => trivial
  | .raw kind name stored size false =>
    have h := extract_plain hfile hinside hstored rfl
    rw [hsize] at h
    exact ⟨⟨fun ⟨data, hdata⟩ => ((h data).1 hdata).1, fun hlength => ⟨stored, (h stored).2 ⟨hlength, rfl⟩⟩⟩,
      fun data hdata => ((h data).1 hdata).2.symm⟩

/-- Every step of a build is read back from the package, wherever it lies in a
file. Where nothing follows the package, a magic behind the start of the cookie
makes reading fail. -/
theorem read_build (files : FileTree) (path : Path) (compress : Bytes → Bytes)
    (hcompress : ∀ d, Zlib.inflate d.length (compress d) = .ok d) (version : UInt32) (libraryName : String)
    (steps : List Step) (b : Builder) (hb : build compress (.new version libraryName) steps = .ok b) (bytes : Bytes)
    (hbytes : b.toBytes = .ok bytes) (before behind : Bytes)
    (hfile : files.lookup path = .ok (.file (before ++ bytes ++ behind))) :
    ((∀ j, OccursAt cookieMagic (before ++ bytes ++ behind) j → j + cookieLength ≤ before.length + bytes.length) →
      ∃ a, Archive.read files path = .ok a ∧ a.packageOffset = before.length ∧ a.cookie.version = version ∧
        a.cookie.libraryName = String.ofList (libraryName.toList.takeWhile (· ≠ '\x00')) ∧
        List.Forall₂ (Step.ReadAs files a) steps a.entries) ∧
    (behind = [] →
      (∃ j, OccursAt cookieMagic (before ++ bytes) j ∧ before.length + bytes.length < j + cookieLength) →
      ∃ position, Archive.read files path = .error (.shortCookie position)) := by
  obtain ⟨hallowed, rfl⟩ := (build_eq_ok_iff compress _ b steps).1 hb
  rw [read_file hfile]
  constructor
  · intro hlast
    -- the steps enter by what they have added to the builder only
    generalize hbuilder : Builder.mk _ _ _ = b at *
    have hentries : b.entries = steps.map (·.pending compress) := by rw [← hbuilder]; rfl
    have hnames : ∀ p ∈ b.entries, '\x00' ∉ p.name.toList := by
      rw [hentries]
      intro p hp
      obtain ⟨s, hs, rfl⟩ := List.mem_map.1 hp
      exact (hallowed s hs).1
    refine ⟨b.archiveAt path before.length, ?_, rfl, by rw [← hbuilder]; rfl, by rw [← hbuilder]; rfl, ?_⟩
    · exact (parse_eq_ok_iff ..).2 ⟨rfl, _, holdsPackage_of_toBytes hnames hbytes path hlast⟩
    have hlocated := located_toBytes hbytes before behind
    simp only [hentries, List.forall₂_map_left_iff] at hlocated
    show List.Forall₂ _ steps (entriesFrom 0 b.entries)
    rw [hentries]
    exact ((List.forall₂_and_left _ _).2 ⟨hallowed, hlocated⟩).imp fun s e ⟨hs, he⟩ => Step.readAs hcompress hfile hs he
  · rintro rfl ⟨j, hj, hlt⟩
    rw [List.append_nil]
    have hlast : IsLast (OccursAt cookieMagic (before ++ bytes)) _ := findLast?_isLast (by decide) (by decide) _
    rw [Archive.parse]
    cases hfind : (before ++ bytes).findLast? cookieMagic with
    | none => rw [hfind] at hlast; exact absurd hj (hlast j)
    | some k =>
      rw [hfind] at hlast
      have := hlast.2 j hj
      exact ⟨k, if_pos (by rw [List.length_append]; omega)⟩

/-- A build with a step of each kind; the last gives a length that is not that of its bytes. -/
def sampleSteps : List Step :=
  [.add .data "a" [1, 2, 3], .compressed .script "s" [7], .option "u", .raw .data "r" [9] 2 false]

/-- What `sampleSteps` build. -/
def sampleBuilder : Builder where
  version := 310
  libraryName := "lib"
  entries :=
    [⟨.data, "a", [1, 2, 3], 3, false⟩,
      ⟨.script, "s", [0x78, 0x01, 0x01, 0x01, 0x00, 0xFE, 0xFF, 0x07, 0x00, 0x08, 0x00, 0x08], 1, true⟩,
      ⟨.option, "u", [], 0, false⟩, ⟨.data, "r", [9], 2, false⟩]

/-- The bytes of `sampleBuilder`. -/
def sampleBytes : Bytes :=
  sampleBuilder.payloads ++ sampleBuilder.toc ++ sampleBuilder.cookie sampleBuilder.payloads.length sampleBuilder.toc.length

theorem build_sampleSteps : build Zlib.store (.new 310 "lib") sampleSteps = .ok sampleBuilder := by
  refine (build_eq_ok_iff ..).2 ⟨by decide, ?_⟩
  rw [sampleSteps]
  simp only [List.map_cons, Step.pending, Step.stored, Zlib.store]
  rw [Zlib.storedBlocks, if_pos (by decide)]
  rfl

theorem toBytes_sampleBuilder : sampleBuilder.toBytes = .ok sampleBytes :=
  (toBytes_eq_ok_iff ..).2 ⟨by decide, by decide +kernel, rfl⟩

theorem sampleBytes_magic (j : Nat) (h : OccursAt cookieMagic (cookieMagic ++ sampleBytes ++ [0]) j) :
    j + cookieLength ≤ cookieMagic.length + sampleBytes.length := by
  have hle := h.le_length (by decide)
  have hlength : sampleBytes.length = 232 := by decide +kernel
  have hnone : ∀ k < 81, ¬ OccursAt cookieMagic (cookieMagic ++ sampleBytes ++ [0]) (153 + k) := by decide +kernel
  have hmagic : cookieMagic.length = 8 := rfl
  simp only [List.length_append, hlength, hmagic, List.length_singleton, cookieLength] at hle ⊢
  by_contra hpos
  exact hnone (j - 153) (by omega) (by rwa [Nat.add_sub_cancel' (by omega)])

/-- What is built of `sampleSteps` is read from a file that starts with another magic. -/
theorem read_build_sample : ∃ a, Archive.read ⟨fun _ => some (.file (cookieMagic ++ sampleBytes ++ [0]))⟩ [97] = .ok a ∧
    a.packageOffset = 8 ∧ a.cookie.version = 310 ∧ a.cookie.libraryName = "lib" ∧
      List.Forall₂ (Step.ReadAs ⟨fun _ => some (.file (cookieMagic ++ sampleBytes ++ [0]))⟩ a) sampleSteps a.entries :=
  (read_build _ [97] Zlib.store Zlib.inflate_store 310 "lib" sampleSteps sampleBuilder build_sampleSteps sampleBytes
    toBytes_sampleBuilder cookieMagic [0] rfl).1 sampleBytes_magic

end FrozenApp.Package
