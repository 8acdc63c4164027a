import FrozenApp.Proofs.Package.RoundTrip
import Mathlib.Algebra.GroupWithZero.Nat
import Mathlib.Order.Bounds.Defs
/-!
# Where the parts of a package lie

A package is written from its start on, and what is written says where its parts are:
a record gives the place and the length of a payload, the cookie those of the table and of the
whole. `toBytes_tiled`: payloads, records and cookie cover the package without a gap or an overlap
(`Tiles`), and every number that is written is the one meant. Numbers are cut to
words of 32 bits along the way, some of them unchecked; `toBytesWords_eq_toBytes`: the checks
ahead of those and behind them are enough.
-/

namespace FrozenApp.Package

open Bytes

/-! ## Regions that tile -/

/-- So many bytes from a place on. -/
structure Region where
  start : Nat
  length : Nat
  deriving Repr, DecidableEq

/-- The byte at `n` lies in the region. -/
def Region.Covers (r : Region) (n : Nat) : Prop :=
  r.start ≤ n ∧ n < r.start + r.length

/-- The regions lie one behind the other: the first begins at `start`, each of the others where
the one ahead of it ends, and the last ends at `stop`. -/
inductive Tiles : Nat → List Region → Nat → Prop
  | nil (start : Nat) : Tiles start [] start
  | cons {start length stop : Nat} {rs : List Region} (h : Tiles (start + length) rs stop) :
      Tiles start (⟨start, length⟩ :: rs) stop

namespace Tiles

variable {start middle stop n : Nat} {rs rs' : List Region}

theorem append (h : Tiles start rs middle) (h' : Tiles middle rs' stop) : Tiles start (rs ++ rs') stop := by
  induction h with
  | nil => exact h'
  | cons _ ih => exact .cons (ih h')

theorem start_le (h : Tiles start rs stop) : ∀ r ∈ rs, start ≤ r.start := by
  induction h with
  | nil => exact List.forall_mem_nil _
  | @cons start length stop rs _ ih =>
    refine List.forall_mem_cons.2 ⟨Nat.le_refl _, fun r hr => ?_⟩
    exact Nat.le_trans (Nat.le_add_right _ _) (ih r hr)

/-- No gap and no overlap: each place within the limits lies in one of the regions only. -/
theorem existsUnique_covers (h : Tiles start rs stop) (hlow : start ≤ n) (hhigh : n < stop) :
    ∃! r, r ∈ rs ∧ r.Covers n := by
  induction h with
  | nil => omega
  | @cons start length stop rs htail ih =>
    by_cases hn : n < start + length
    · -- the others begin behind the first
      refine ⟨⟨start, length⟩, ⟨List.mem_cons_self .., hlow, hn⟩, ?_⟩
      rintro r ⟨hr, hcovers⟩
      rcases List.mem_cons.1 hr with rfl | hr
      · rfl
      · exact absurd (Nat.le_trans (htail.start_le r hr) hcovers.1) (Nat.not_le.2 hn)
    · obtain ⟨r, ⟨hr, hcovers⟩, hunique⟩ := ih (Nat.not_lt.1 hn) hhigh
      refine ⟨r, ⟨List.mem_cons_of_mem _ hr, hcovers⟩, ?_⟩
      rintro r' ⟨hr', hcovers'⟩
      rcases List.mem_cons.1 hr' with rfl | hr'
      · exact absurd hcovers'.2 hn
      · exact hunique r' ⟨hr', hcovers'⟩

end Tiles

/-! ## Payloads and records -/

/-- Where the two parts of an entry lie. -/
structure Place where
  payload : Region
  record : Region
  deriving Repr, DecidableEq

/-- The places of entries whose payloads and records lie one behind the other. -/
def placesFrom (payload record : Nat) : List Pending → List Place
  | [] => []
  | p :: ps =>
    ⟨⟨payload, p.stored.length⟩, ⟨record, recordLength (ofString p.name).length⟩⟩ ::
      placesFrom (payload + p.stored.length) (record + recordLength (ofString p.name).length) ps

/-- The payload of an entry lies at its place, and in the place of its record there is one that says so. -/
structure Pending.LiesAt (bytes : Bytes) (p : Pending) (place : Place) : Prop where
  payload : bytes.slice place.payload.start place.payload.length = p.stored
  payload_length : place.payload.length = p.stored.length
  /-- The first three numbers of the record. -/
  record_length : (bytes.uint32At place.record.start).toNat = place.record.length
  offset : (bytes.uint32At (place.record.start + 4)).toNat = place.payload.start
  length : (bytes.uint32At (place.record.start + 8)).toNat = place.payload.length
  /-- What is behind the header: the name and at least one NUL. -/
  name : ∃ nuls, 0 < nuls ∧ (bytes.slice place.record.start place.record.length).drop recordHeaderLength =
    ofString p.name ++ List.replicate nuls 0
  /-- No shorter record has room for them. -/
  least : IsLeast {n | 16 ∣ n ∧ recordHeaderLength + (ofString p.name).length < n} place.record.length

theorem isLeast_recordLength (n : Nat) : IsLeast {m | 16 ∣ m ∧ recordHeaderLength + n < m} (recordLength n) := by
  refine ⟨⟨Nat.dvd_mul_left _ _, lt_recordLength n⟩, ?_⟩
  rintro m ⟨hdvd, hlt⟩
  rw [recordLength]
  omega

/-- From a place on, numbers are read as in what lies there. -/
theorem uint32At_add_of_drop {s piece : Bytes} {start : Nat} (h : s.drop start = piece) (offset : Nat) :
    s.uint32At (start + offset) = piece.uint32At offset := by
  rw [uint32At, uint32At, ← h, List.drop_drop]

/-- Behind the header of a record stand the name and the NULs that fill it up. -/
theorem drop_record (offset : Nat) (p : Pending) : ∃ nuls, 0 < nuls ∧
    (Builder.record offset p).drop recordHeaderLength = ofString p.name ++ List.replicate nuls 0 := by
  have hlt := lt_recordLength (ofString p.name).length
  refine ⟨recordLength (ofString p.name).length - recordHeaderLength - (ofString p.name).length, by omega, ?_⟩
  rw [record_eq]
  rfl

theorem liesAt_of_drop {bytes rest rest' : Bytes} {payload record : Nat} {p : Pending}
    (hpayload : bytes.drop payload = p.stored ++ rest) (hrecord : bytes.drop record = Builder.record payload p ++ rest')
    (hoffset : payload < UInt32.size) (hlength : p.stored.length < UInt32.size)
    (hsize : recordLength (ofString p.name).length < UInt32.size) :
    p.LiesAt bytes ⟨⟨payload, p.stored.length⟩, ⟨record, recordLength (ofString p.name).length⟩⟩ := by
  have hslice := slice_of_drop hrecord
  rw [length_record] at hslice
  -- what is read in the record is what `record_eq` says was written there
  have hword := uint32At_add_of_drop hrecord
  rw [record_eq] at hword
  refine ⟨slice_of_drop hpayload, rfl, ?_, ?_, ?_, ?_, isLeast_recordLength _⟩
  · have hread := (hword 0).trans (uint32At_eq_of_drop rfl)
    exact (congrArg UInt32.toNat hread).trans (UInt32.toNat_ofNat_of_lt' hsize)
  · rw [hword, uint32At_eq_of_drop (n := UInt32.ofNat payload) rfl, UInt32.toNat_ofNat_of_lt' hoffset]
  · rw [hword, uint32At_eq_of_drop (n := UInt32.ofNat p.stored.length) rfl, UInt32.toNat_ofNat_of_lt' hlength]
  · rw [hslice]
    exact drop_record payload p

theorem forall₂_placesFrom {bytes rest rest' : Bytes} {payload record : Nat} {ps : List Pending}
    (hpayloads : bytes.drop payload = ps.flatMap (·.stored) ++ rest)
    (hrecords : bytes.drop record = Builder.records payload ps ++ rest')
    (hsize : payload + (ps.flatMap (·.stored)).length < UInt32.size)
    (htoc : (Builder.records payload ps).length < UInt32.size) :
    List.Forall₂ (Pending.LiesAt bytes) ps (placesFrom payload record ps) := by
  induction ps generalizing payload record with
  | nil => exact .nil
  | cons p ps ih =>
    rw [List.flatMap_cons, List.append_assoc] at hpayloads
    rw [Builder.records, List.append_assoc] at hrecords
    rw [List.flatMap_cons, List.length_append] at hsize
    rw [Builder.records, List.length_append, length_record] at htoc
    have hbehind := drop_add_of_drop hrecords
    rw [length_record] at hbehind
    refine .cons (liesAt_of_drop hpayloads hrecords (by omega) (by omega) (by omega)) ?_
    exact ih (drop_add_of_drop hpayloads) hbehind (by omega) (by omega)

theorem tiles_payloads (payload record : Nat) (ps : List Pending) :
    Tiles payload ((placesFrom payload record ps).map (·.payload)) (payload + (ps.flatMap (·.stored)).length) := by
  induction ps generalizing payload record with
  | nil => exact .nil payload
  | cons p ps ih =>
    rw [List.flatMap_cons, List.length_append, ← Nat.add_assoc]
    exact .cons (ih _ _)

theorem tiles_records (payload record : Nat) (ps : List Pending) :
    Tiles record ((placesFrom payload record ps).map (·.record)) (record + (Builder.records payload ps).length) := by
  induction ps generalizing payload record with
  | nil => exact .nil record
  | cons p ps ih =>
    rw [Builder.records, List.length_append, length_record, ← Nat.add_assoc]
    exact .cons (ih _ _)

theorem length_le_of_mem {p : Pending} {ps : List Pending} (hp : p ∈ ps) (offset : Nat) :
    p.stored.length ≤ (ps.flatMap (·.stored)).length ∧
      recordLength (ofString p.name).length ≤ (Builder.records offset ps).length := by
  induction ps generalizing offset with
  | nil => cases hp
  | cons q ps ih =>
    rw [List.flatMap_cons, List.length_append, Builder.records, List.length_append, length_record]
    rcases List.mem_cons.1 hp with rfl | hp
    · omega
    · have := ih hp (offset + q.stored.length)
      omega

/-- A payload lies behind those of the entries ahead of it. -/
theorem payload_start_eq {payload record i : Nat} {ps : List Pending} {place : Place}
    (h : (placesFrom payload record ps)[i]? = some place) :
    place.payload.start = payload + ((ps.take i).map (·.stored.length)).sum := by
  induction ps generalizing payload record i with
  | nil => cases h
  | cons p ps ih =>
    cases i with
    | zero =>
      cases h
      rfl
    | succ i =>
      rw [List.take_succ_cons, List.map_cons, List.sum_cons, ← Nat.add_assoc]
      exact ih h

example : placesFrom 0 16 sampleBuilder.entries =
    [⟨⟨0, 3⟩, ⟨16, 32⟩⟩, ⟨⟨3, 12⟩, ⟨48, 32⟩⟩, ⟨⟨15, 0⟩, ⟨80, 32⟩⟩, ⟨⟨15, 1⟩, ⟨112, 32⟩⟩] := by decide

/-! ## Writing in words of 32 bits -/

theorem checkedWord_eq_ok {n : Nat} (h : n < UInt32.size) : checkedWord n = .ok (UInt32.ofNat n) :=
  if_pos h

theorem checkedWord_eq_error {n : Nat} (h : UInt32.size ≤ n) : checkedWord n = .error .packageTooLarge :=
  if_neg (Nat.not_lt.2 h)

theorem writePayloads_eq_ok {out : Bytes} {ps : List Pending}
    (h : out.length + (ps.flatMap (·.stored)).length < UInt32.size) :
    writePayloads out ps = .ok ((entriesFrom out.length ps).map (·.offset), out ++ ps.flatMap (·.stored)) := by
  induction ps generalizing out with
  | nil => simp [writePayloads, entriesFrom]
  | cons p ps ih =>
    rw [List.flatMap_cons, List.length_append] at h
    have hrest := @ih (out ++ p.stored) (by rw [List.length_append]; omega)
    rw [writePayloads, checkedWord_eq_ok (by omega), hrest, List.length_append, List.append_assoc]
    rfl

theorem writePayloads_cases (out : Bytes) (ps : List Pending) : writePayloads out ps = .error .packageTooLarge ∨
    ∃ offsets, writePayloads out ps = .ok (offsets, out ++ ps.flatMap (·.stored)) := by
  induction ps generalizing out with
  | nil => exact .inr ⟨[], by rw [List.flatMap_nil, List.append_nil]; rfl⟩
  | cons p ps ih =>
    rw [writePayloads]
    rcases Nat.lt_or_ge out.length UInt32.size with hfits | hlarge
    · rw [checkedWord_eq_ok hfits]
      obtain herror | ⟨offsets, hoffsets⟩ := ih (out ++ p.stored)
      · rw [herror]
        exact .inl rfl
      · rw [hoffsets, List.append_assoc]
        exact .inr ⟨_, rfl⟩
    · rw [checkedWord_eq_error hlarge]
      exact .inl rfl

/-- Nothing is cut where there is room. -/
theorem resize_append {s : Bytes} {length : Nat} (h : s.length ≤ length) (out : Bytes) :
    resize (out.length + length) (out ++ s) = out ++ s.padTo length := by
  rw [resize, List.take_of_length_le (by rw [List.length_append]; omega), padTo, padTo, List.length_append,
    List.append_assoc, Nat.add_sub_add_left]

theorem writeRecord_eq (out : Bytes) (p : Pending) (offset : Nat) :
    writeRecord out p (UInt32.ofNat offset) = out ++ Builder.record offset p := by
  have hlt := lt_recordLength (ofString p.name).length
  rw [recordHeaderLength] at hlt
  rw [Builder.record, ← resize_append]
  · simp only [writeRecord, List.append_assoc]
  · simp only [List.length_append, length_ofUInt32, List.length_cons, List.length_nil]
    omega

theorem writeRecords_eq (out : Bytes) (ps : List Pending) (offset : Nat) :
    writeRecords out (ps.zip ((entriesFrom offset ps).map (·.offset))) = out ++ Builder.records offset ps := by
  induction ps generalizing out offset with
  | nil => exact (List.append_nil out).symm
  | cons p ps ih =>
    rw [entriesFrom, List.map_cons, List.zip_cons_cons, writeRecords, Pending.entry, writeRecord_eq, ih,
      Builder.records, List.append_assoc]

theorem finish_eq_error {out : Bytes} (h : UInt32.size ≤ out.length) (b : Builder) (offsets : List UInt32) :
    b.finish offsets out = .error .packageTooLarge := by
  rw [Builder.finish, checkedWord_eq_error h]
  rfl

/-- Behind payloads that are not too large, the table and the cookie are written where they are not
too large with them. -/
theorem finish_payloads {b : Builder} (h : b.payloads.length < UInt32.size) :
    b.finish ((entriesFrom 0 b.entries).map (·.offset)) b.payloads =
      if UInt32.size ≤ b.payloads.length + b.toc.length + cookieLength then .error .packageTooLarge
      else .ok (b.payloads ++ b.toc ++ b.cookie b.payloads.length b.toc.length) := by
  have htoc : writeRecords b.payloads (b.entries.zip ((entriesFrom 0 b.entries).map (·.offset))) =
      b.payloads ++ b.toc := writeRecords_eq b.payloads b.entries 0
  have htocLength : UInt32.ofNat (b.payloads.length + b.toc.length) - UInt32.ofNat b.payloads.length =
      UInt32.ofNat b.toc.length := by
    rw [UInt32.ofNat_add, UInt32.add_comm, UInt32.add_sub_cancel]
  rw [Builder.finish]
  simp only [bind, Except.bind, checkedWord_eq_ok h, htoc, List.length_append]
  rcases Nat.lt_or_ge (b.payloads.length + b.toc.length + cookieLength) UInt32.size with hfits | hlarge
  · rw [if_neg (Nat.not_le.2 hfits), checkedWord_eq_ok hfits, checkedWord_eq_ok (by omega)]
    simp only [htocLength, Builder.cookie, List.append_assoc]
  · rw [if_pos hlarge, checkedWord_eq_error hlarge]
    rcases Nat.lt_or_ge (b.payloads.length + b.toc.length) UInt32.size with hend | hend
    · rw [checkedWord_eq_ok hend]
    · rw [checkedWord_eq_error hend]

/-- The checks along the way refuse what is too large as a whole, and where they refuse nothing no
number is cut. -/
theorem toBytesWords_eq_toBytes (b : Builder) : b.toBytesWords = b.toBytes := by
  rw [Builder.toBytesWords, Builder.toBytes]
  split
  · rfl
  rcases Nat.lt_or_ge b.payloads.length UInt32.size with hpayloads | hlarge
  · have hwritten : writePayloads [] b.entries = .ok ((entriesFrom 0 b.entries).map (·.offset), b.payloads) :=
      @writePayloads_eq_ok [] b.entries (by rwa [List.length_nil, Nat.zero_add])
    rw [hwritten]
    exact finish_payloads hpayloads
  · -- refused behind the last of the payloads, if not ahead of it
    have htotal : UInt32.size ≤ b.payloads.length + b.toc.length + cookieLength := by omega
    simp only [if_pos htotal]
    obtain herror | ⟨offsets, hoffsets⟩ := writePayloads_cases [] b.entries
    · rw [herror]
      rfl
    · rw [hoffsets]
      exact finish_eq_error hlarge b offsets

/-! ## The package -/

/-- The parts of a package lie where its cookie and its records say. -/
structure Builder.Tiled (b : Builder) (bytes : Bytes) (c : Cookie) (places : List Place) : Prop where
  /-- One place for each entry, in order. -/
  entries : List.Forall₂ (Pending.LiesAt bytes) b.entries places
  payloads : Tiles 0 (places.map (·.payload)) c.tocOffset.toNat
  records : Tiles c.tocOffset.toNat (places.map (·.record)) (c.tocOffset.toNat + c.tocLength.toNat)
  /-- The cookie is the rest, and the last 88 bytes. -/
  cookie : IsCookie (bytes.drop (c.tocOffset.toNat + c.tocLength.toNat)) c
  cookie_last : c.tocOffset.toNat + c.tocLength.toNat + cookieLength = bytes.length
  package : c.packageLength.toNat = bytes.length

/-- All parts of a package in order. -/
def regionsOf (c : Cookie) (places : List Place) : List Region :=
  places.map (·.payload) ++ (places.map (·.record) ++ [⟨c.tocOffset.toNat + c.tocLength.toNat, cookieLength⟩])

theorem Builder.Tiled.tiles {b : Builder} {bytes : Bytes} {c : Cookie} {places : List Place}
    (h : b.Tiled bytes c places) : Tiles 0 (regionsOf c places) bytes.length := by
  refine h.payloads.append (h.records.append (.cons ?_))
  rw [h.cookie_last]
  exact .nil _

theorem tiled_toBytes {b : Builder} {bytes : Bytes} (h : b.toBytes = .ok bytes) :
    b.Tiled bytes b.cookieData (placesFrom 0 b.payloads.length b.entries) := by
  have htotal := length_toBytes h
  obtain ⟨hname, hsize, rfl⟩ := (toBytes_eq_ok_iff b bytes).1 h
  have hoffset : b.cookieData.tocOffset.toNat = b.payloads.length := UInt32.toNat_ofNat_of_lt' (by omega)
  have hlength : b.cookieData.tocLength.toNat = b.toc.length := UInt32.toNat_ofNat_of_lt' (by omega)
  have hpackage : b.cookieData.packageLength.toNat = b.payloads.length + b.toc.length + cookieLength :=
    UInt32.toNat_ofNat_of_lt' hsize
  refine ⟨?_, ?_, ?_, ?_, ?_, ?_⟩
  · have hpayloads : (b.payloads ++ b.toc ++ b.cookie b.payloads.length b.toc.length).drop 0 =
        b.payloads ++ (b.toc ++ b.cookie b.payloads.length b.toc.length) := by
      rw [List.drop_zero, List.append_assoc]
    have hrecords : (b.payloads ++ b.toc ++ b.cookie b.payloads.length b.toc.length).drop b.payloads.length =
        b.toc ++ b.cookie b.payloads.length b.toc.length := by
      rw [List.append_assoc, List.drop_left]
    refine forall₂_placesFrom hpayloads hrecords ?_ ?_
    · show 0 + b.payloads.length < UInt32.size
      omega
    · show b.toc.length < UInt32.size
      omega
  · rw [hoffset, ← Nat.zero_add b.payloads.length]
    exact tiles_payloads 0 _ b.entries
  · rw [hoffset, hlength]
    exact tiles_records 0 b.payloads.length b.entries
  · rw [hoffset, hlength, ← List.length_append, List.drop_left]
    exact isCookie_cookie hname
  · rw [hoffset, hlength, htotal]
  · rw [hpackage, htotal]

/-- The parts of a package cover it from its first byte to its last without a gap or an overlap: the
payloads and then the records in the order of the entries, and the cookie. A payload lies behind those
of the entries ahead of it. The words that are written unchecked are the numbers they are made of all
the same, and the length of the table is the difference of a word and a smaller one. -/
theorem toBytes_tiled (b : Builder) (bytes : Bytes) (h : b.toBytes = .ok bytes) :
    (∃ c places, b.Tiled bytes c places ∧
      (∀ (i : Nat) (place : Place), places[i]? = some place →
        place.payload.start = ((b.entries.take i).map (·.stored.length)).sum) ∧
      ∀ n < bytes.length, ∃! r, r ∈ regionsOf c places ∧ r.Covers n) ∧
    b.toBytesWords = .ok bytes ∧
    (∀ p ∈ b.entries,
      (UInt32.ofNat (recordLength (ofString p.name).length)).toNat = recordLength (ofString p.name).length ∧
      (UInt32.ofNat p.stored.length).toNat = p.stored.length) ∧
    UInt32.ofNat b.payloads.length ≤ UInt32.ofNat (b.payloads.length + b.toc.length) := by
  have htiled := tiled_toBytes h
  obtain ⟨-, hsize, -⟩ := (toBytes_eq_ok_iff b bytes).1 h
  refine ⟨⟨_, _, htiled, fun i place hplace => ?_, fun n hn => ?_⟩, ?_, ?_, ?_⟩
  · rw [payload_start_eq hplace, Nat.zero_add]
  · exact htiled.tiles.existsUnique_covers (Nat.zero_le n) hn
  · rw [toBytesWords_eq_toBytes, h]
  · intro p hp
    obtain ⟨hstored, hrecord⟩ := length_le_of_mem hp 0
    rw [← Builder.payloads] at hstored
    rw [← Builder.toc] at hrecord
    exact ⟨UInt32.toNat_ofNat_of_lt' (by omega), UInt32.toNat_ofNat_of_lt' (by omega)⟩
  · rw [UInt32.le_iff_toNat_le, UInt32.toNat_ofNat_of_lt' (by omega), UInt32.toNat_ofNat_of_lt' (by omega)]
    exact Nat.le_add_right _ _

/-- The package of `sampleBuilder` has four entries, one of them without a payload. -/
theorem toBytes_tiled_sample : sampleBuilder.toBytes = .ok sampleBytes ∧
    (∃ c places, sampleBuilder.Tiled sampleBytes c places ∧
      ∀ n < sampleBytes.length, ∃! r, r ∈ regionsOf c places ∧ r.Covers n) ∧
    sampleBuilder.toBytesWords = .ok sampleBytes := by
  obtain ⟨⟨c, places, htiled, -, hcovers⟩, hwords, -, -⟩ :=
    toBytes_tiled sampleBuilder sampleBytes toBytes_sampleBuilder
  exact ⟨toBytes_sampleBuilder, ⟨c, places, htiled, hcovers⟩, hwords⟩

end FrozenApp.Package
