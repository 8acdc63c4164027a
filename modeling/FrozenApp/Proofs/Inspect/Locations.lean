import FrozenApp.Inspect.Report
import FrozenApp.Proofs.Interpreter.Load
import FrozenApp.Proofs.Package.RoundTrip
import FrozenApp.Proofs.Program.Plan
/-!
# Where collections are

Reports give a collection's location as text, and an interpreter is given it as
bytes. The importer reads the collection at the place that it names.
`collections_located`: the locations in the reports on an archive are those that are
added to the search path, and in a file that ends with a package they name the
places where the bytes of its collections lie.
-/

namespace FrozenApp.Inspect

open Interpreter Package Program
open Bytes (OccursAt)

/-! ## Locations as text and as bytes -/

theorem display_ofString (s : String) : (Path.ofString s).display = s :=
  Utf8.lossy_ofString s

/-! ## Locations that are added to the search path -/

/-- What the strings were made from that are appended to lists, where `made` says it of the objects at hand. -/
def appendedFrom (made : ObjectId → Option Bytes) : List Exchange → List (Option Bytes)
  | [] => []
  | ⟨.decodeFsDefault value, some object⟩ :: l => appendedFrom (Function.update made object (some value)) l
  | ⟨.listAppend _ item, _⟩ :: l => made item :: appendedFrom made l
  | _ :: l => appendedFrom made l

/-- What the strings were made from that calls append to lists. -/
def appended (l : List Exchange) : List (Option Bytes) :=
  appendedFrom (fun _ => none) l

theorem appendedFrom_collections {files : FileTree} {a : Archive} {home : Path} {scope? scope?' : Option Scope}
    {entries : List Entry} {l : List Exchange}
    (h : Followed files a home scope? (entries.map .collection) (.go scope?') l) (made : ObjectId → Option Bytes) :
    appendedFrom made l = entries.map fun e => some (a.location e) := by
  induction entries generalizing scope? l made with
  | nil => cases h; rfl
  | cons e entries ih =>
    cases h with
    | cons hstep hrest =>
      cases hstep with
      | @collection _ _ _ item =>
        simp only [List.cons_append, List.nil_append, appendedFrom, Function.update_self, List.map_cons]
        rw [ih hrest]

/-! ## Reports on collections -/

variable {a : Archive} {path : String}

theorem entryReport_location (hpath : a.path = .ofString path) (e : Entry) : (entryReport a e).location =
    if e.kind = .collection then some (locationText path (a.absoluteOffset e)) else none := by
  rw [entryReport, hpath, display_ofString]

theorem isSome_location_iff (e : Entry) : (entryReport a e).location.isSome ↔ e.kind = .collection := by
  rw [entryReport]
  split <;> simp [*]

theorem locations_eq (hpath : a.path = .ofString path) : (entryReports a).filterMap (·.location) =
    (a.entriesOf .collection).map fun e => locationText path (a.absoluteOffset e) := by
  rw [entryReports, List.filterMap_map, Archive.entriesOf]
  induction a.entries with
  | nil => rfl
  | cons e entries ih =>
    have hlocation : ((fun r => r.location) ∘ entryReport a) e = _ := entryReport_location hpath e
    by_cases hkind : e.kind = .collection
    · rw [if_pos hkind] at hlocation
      rw [List.filterMap_cons_some hlocation, List.filter_cons_of_pos (by simpa using hkind), ih, List.map_cons]
    · rw [if_neg hkind] at hlocation
      rw [List.filterMap_cons_none hlocation, List.filter_cons_of_neg (by simpa using hkind), ih]

/-- What is added to the search path is what the reports say. -/
theorem installCollections_appended (hpath : a.path = .ofString path) (lib : Library) :
    Goes (installCollections lib a) fun r l => ∀ n, r = .ok n →
      appended l = ((entryReports a).filterMap (·.location)).map fun text => some (.ofString text) := by
  refine (installCollections_goes ⟨fun _ => none⟩ lib a []).mono fun r l ⟨_, h⟩ n hn => ?_
  rw [hn] at h
  rw [appended, appendedFrom_collections h, locations_eq hpath, List.map_map]
  refine List.map_congr_left fun e _ => ?_
  rw [Function.comp, ofString_locationText, ← hpath]
  rfl

/-! ## Places in a file -/

/-- The code of collections has no other meaning. -/
theorem ofCode_eq_collection_iff (code : UInt8) : Kind.ofCode code = .collection ↔ code = 'z'.toUInt8 := by
  constructor
  · intro h
    have hcodes : ∀ p ∈ Kind.codes, p.1 = .collection → p.2 = 'z' := by decide
    rw [Kind.ofCode] at h
    split at h
    · next kind c hfind =>
      have hcode := List.find?_some hfind
      have hchar : c = 'z' := hcodes _ (List.mem_of_find?_eq_some hfind) h
      subst hchar
      exact (beq_iff_eq.1 hcode).symm
    · cases h
  · rintro rfl
    decide

/-- A report gives a location where the payload of a pending entry lies in the content. -/
def PointsAt (content : Bytes) (path : String) (r : EntryReport) (p : Pending) : Prop :=
  ∃ offset : Nat, r.location = some (path ++ "?" ++ toString offset) ∧
    content.slice offset r.entry.length.toNat = p.stored

theorem pointsAt_of_located {content : Bytes} {limit : Nat} {p : Pending} {e : Entry} (hpath : a.path = .ofString path)
    (hkind : e.kind = .collection) (h : p.Located content a.packageOffset limit e) :
    PointsAt content path (entryReport a e) p := by
  refine ⟨a.absoluteOffset e, ?_, h.bytes⟩
  rw [entryReport_location hpath, if_pos hkind]
  rfl

theorem collections_pointAt {content : Bytes} {limit : Nat} {ps : List Pending} (hpath : a.path = .ofString path)
    (h : List.Forall₂ (Pending.Located content a.packageOffset limit) ps a.entries) :
    List.Forall₂ (PointsAt content path) ((entryReports a).filter (·.location.isSome))
      (ps.filter (·.kind.code = 'z'.toUInt8)) := by
  -- a report gives a location exactly where the code is that of collections
  have hrelated : List.Forall₂ (fun r p => (r.location.isSome ↔ p.kind.code = 'z'.toUInt8) ∧
      (r.location.isSome → PointsAt content path r p)) (entryReports a) ps := by
    rw [entryReports, List.forall₂_map_left_iff]
    refine h.flip.imp fun e p hp => ?_
    have hkind : e.kind = .ofCode p.kind.code := by obtain ⟨_, rfl⟩ := hp.entry; rfl
    rw [isSome_location_iff]
    refine ⟨?_, fun hcollection => pointsAt_of_located hpath hcollection hp⟩
    rw [hkind, ofCode_eq_collection_iff]
  have hfiltered := List.rel_filter (p := (·.location.isSome)) (q := (·.kind.code = 'z'.toUInt8))
    (fun r p hrp => by simpa using hrp.1) hrelated
  have hsome : ∀ r ∈ (entryReports a).filter (·.location.isSome), r.location.isSome := fun r hr => (List.mem_filter.1 hr).2
  exact ((List.forall₂_and_left _ _).2 ⟨hsome, hfiltered⟩).imp fun r p ⟨hr, hrp⟩ => hrp.2 hr

/-- The locations in the reports on an archive are those that are added to the
search path, one for each collection. In a file that ends with a package they name
the places where the bytes of its collections lie. -/
theorem collections_located (files : FileTree) (path : String) :
    (∀ a, Archive.read files (.ofString path) = .ok a →
      (entryReports a).map (·.location) = a.entries.map (fun e =>
        if e.kind = .collection then some (path ++ "?" ++ toString (a.packageOffset + e.offset.toNat)) else none) ∧
      ∀ lib, Goes (installCollections lib a) fun r l => ∀ n, r = .ok n →
        appended l = ((entryReports a).filterMap (·.location)).map fun text => some (.ofString text)) ∧
    ∀ (compress : Bytes → Bytes) (version : UInt32) (libraryName : String) (steps : List Step) (b : Builder)
      (before bytes : Bytes), build compress (.new version libraryName) steps = .ok b → b.toBytes = .ok bytes →
      files.lookup (.ofString path) = .ok (.file (before ++ bytes)) →
      (∀ j, OccursAt cookieMagic (before ++ bytes) j → j + cookieLength ≤ before.length + bytes.length) →
      ∃ a, Archive.read files (.ofString path) = .ok a ∧
        List.Forall₂ (PointsAt (before ++ bytes) path) ((entryReports a).filter (·.location.isSome))
          (b.entries.filter (·.kind.code = 'z'.toUInt8)) := by
  constructor
  · intro a hread
    have hpath : a.path = .ofString path := path_of_read hread
    refine ⟨?_, installCollections_appended hpath⟩
    rw [entryReports, List.map_map]
    exact List.map_congr_left fun e _ => entryReport_location hpath e
  · intro compress version libraryName steps b before bytes hb hbytes hfile hlast
    rw [← List.append_nil (before ++ bytes)] at hfile hlast
    refine ⟨_, read_toBytes (nul_not_mem_of_build hb) hbytes hfile hlast, ?_⟩
    have hlocated := located_toBytes hbytes before []
    rw [List.append_nil] at hlocated
    exact collections_pointAt rfl hlocated

/-- A build with two collections, one of them under its bare code. -/
def collectionSteps : List Step :=
  [.add .data "d" [1], .add .collection "p" [2, 3], .add (.other 122) "q" [4]]

/-- What `collectionSteps` build. -/
def collectionBuilder : Builder where
  version := 311
  libraryName := "lib"
  entries := [⟨.data, "d", [1], 1, false⟩, ⟨.collection, "p", [2, 3], 2, false⟩, ⟨.other 122, "q", [4], 1, false⟩]

theorem build_collectionSteps : build Zlib.store (.new 311 "lib") collectionSteps = .ok collectionBuilder :=
  (build_eq_ok_iff ..).2 ⟨by decide, rfl⟩

theorem toBytes_collectionBuilder : collectionBuilder.toBytes = .ok collectionBuilder.bytes :=
  toBytes_eq_bytes (by decide) (by decide)

/-- Both collections lie where the reports say, behind the 8 bytes that the file starts with. -/
theorem collections_located_two :
    ∃ a, Archive.read ⟨fun _ => some (.file (cookieMagic ++ collectionBuilder.bytes))⟩ (.ofString "app") = .ok a ∧
      (entryReports a).map (·.location) = a.entries.map (fun e =>
        if e.kind = .collection then some ("app" ++ "?" ++ toString (a.packageOffset + e.offset.toNat)) else none) ∧
      List.Forall₂ (PointsAt (cookieMagic ++ collectionBuilder.bytes) "app") ((entryReports a).filter (·.location.isSome))
        [⟨.collection, "p", [2, 3], 2, false⟩, ⟨.other 122, "q", [4], 1, false⟩] := by
  obtain ⟨hreports, hbuilt⟩ := collections_located ⟨fun _ => some (.file (cookieMagic ++ collectionBuilder.bytes))⟩ "app"
  obtain ⟨a, hread, hplaces⟩ := hbuilt Zlib.store 311 "lib" collectionSteps collectionBuilder cookieMagic collectionBuilder.bytes
    build_collectionSteps toBytes_collectionBuilder rfl (magic_bounded (by decide +kernel))
  exact ⟨a, hread, (hreports a hread).1, hplaces⟩

end FrozenApp.Inspect
