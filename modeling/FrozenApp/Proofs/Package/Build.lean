import FrozenApp.Package.Builder
import FrozenApp.Proofs.Package.Format
/-!
# What is built is a package

A run of steps fails, or it adds one entry for each step, in order
(`build_eq_ok_iff`). The bytes of a builder are its payloads, a table with an
entry for each payload (`isTable_records`), and a cookie, so that they make a package
in any surroundings that hide the cookie's magic nowhere behind it
(`holdsPackage_of_toBytes`).
-/

namespace FrozenApp.Package

open Bytes

/-! ## Steps -/

namespace Step

/-- What the step adds. -/
def pending (compress : Bytes → Bytes) (s : Step) : Pending :=
  ⟨s.kind, s.name, s.stored compress, UInt32.ofNat s.size, s.isCompressed⟩

/-- The step can be taken. -/
def Allowed (s : Step) : Prop :=
  '\x00' ∉ s.name.toList ∧ s.size < UInt32.size

instance (s : Step) : Decidable s.Allowed :=
  inferInstanceAs (Decidable (_ ∧ _))

theorem run_eq_addRaw (compress : Bytes → Bytes) (b : Builder) (s : Step) :
    s.run compress b = b.addRaw s.kind s.name (s.stored compress) s.size s.isCompressed := by
  cases s <;> rfl

theorem run_eq_ok_iff (compress : Bytes → Bytes) (b b' : Builder) (s : Step) :
    s.run compress b = .ok b' ↔ s.Allowed ∧ { b with entries := b.entries ++ [s.pending compress] } = b' := by
  rw [run_eq_addRaw, Builder.addRaw, Allowed, String.contains_char_eq]
  by_cases hname : '\x00' ∈ s.name.toList
  · simp [hname]
  by_cases hsize : s.size < UInt32.size
  · rw [if_neg (by simpa using hname), if_neg (Nat.not_le.2 hsize), Except.ok.injEq]
    exact ⟨fun h => ⟨⟨hname, hsize⟩, h⟩, And.right⟩
  · rw [if_neg (by simpa using hname), if_pos (Nat.not_lt.1 hsize)]
    exact iff_of_false nofun fun h => hsize h.1.2

end Step

theorem build_eq_ok_iff (compress : Bytes → Bytes) (b b' : Builder) (steps : List Step) :
    build compress b steps = .ok b' ↔ (∀ s ∈ steps, s.Allowed) ∧
      { b with entries := b.entries ++ steps.map (·.pending compress) } = b' := by
  induction steps generalizing b with
  | nil => simp [build, pure, Except.pure]
  | cons s steps ih =>
    rw [build, List.foldlM_cons]
    cases h : s.run compress b with
    | error e =>
      refine ⟨nofun, fun ⟨hallowed, _⟩ => ?_⟩
      rw [(s.run_eq_ok_iff compress b _).2 ⟨hallowed s (List.mem_cons_self ..), rfl⟩] at h
      cases h
    | ok c =>
      obtain ⟨hs, rfl⟩ := (s.run_eq_ok_iff compress b c).1 h
      refine (ih _).trans ?_
      simp [hs, List.append_assoc]

/-- A name in a build holds no NUL. -/
theorem nul_not_mem_of_build {compress : Bytes → Bytes} {version : UInt32} {libraryName : String} {steps : List Step}
    {b : Builder} (h : build compress (.new version libraryName) steps = .ok b) :
    ∀ p ∈ b.entries, '\x00' ∉ p.name.toList := by
  obtain ⟨hallowed, rfl⟩ := (build_eq_ok_iff ..).1 h
  intro p hp
  obtain ⟨s, hs, rfl⟩ := List.mem_map.1 hp
  exact (hallowed s hs).1

/-! ## The table of contents -/

/-- The entry for a payload that starts at `offset`. -/
def Pending.entry (offset : Nat) (p : Pending) : Entry where
  offset := UInt32.ofNat offset
  length := UInt32.ofNat p.stored.length
  uncompressedLength := p.uncompressedLength
  compressed := p.compressed
  kind := .ofCode p.kind.code
  name := p.name

/-- The entries for payloads that lie one behind the other from `offset` on. -/
def entriesFrom (offset : Nat) : List Pending → List Entry
  | [] => []
  | p :: ps => p.entry offset :: entriesFrom (offset + p.stored.length) ps

theorem lt_recordLength (n : Nat) : recordHeaderLength + n < recordLength n := by
  rw [recordLength]; omega

theorem record_eq (offset : Nat) (p : Pending) : Builder.record offset p =
    ofUInt32 (UInt32.ofNat (recordLength (ofString p.name).length)) ++ (ofUInt32 (p.entry offset).offset ++
      (ofUInt32 (p.entry offset).length ++ (ofUInt32 (p.entry offset).uncompressedLength ++
        ([if p.compressed then 1 else 0, p.kind.code] ++
          (ofString p.name).padTo (recordLength (ofString p.name).length - recordHeaderLength))))) := by
  simp only [Builder.record, Pending.entry, padTo, List.append_assoc, List.length_append, length_ofUInt32,
    List.length_cons, List.length_nil, recordHeaderLength]
  rw [show ∀ n m, n - 18 - m = n - (4 + (4 + (4 + (4 + (0 + 1 + 1 + m))))) from fun n m => by omega]

theorem isRecord_record {offset : Nat} {p : Pending} (hname : '\x00' ∉ p.name.toList)
    (hlength : recordLength (ofString p.name).length < UInt32.size) : IsRecord (Builder.record offset p) (p.entry offset) := by
  have hlt := lt_recordLength (ofString p.name).length
  rw [record_eq]
  refine .fields ?_ ?_ rfl ?_
  · rw [UInt32.toNat_ofNat_of_lt' hlength, length_padTo (by omega)]
    omega
  · cases hc : p.compressed <;> simp [Pending.entry, hc]
  · rw [cutAtNul_padTo, cutAtNul_eq_self (zero_not_mem_ofString hname)]
    rfl

theorem length_record (offset : Nat) (p : Pending) :
    (Builder.record offset p).length = recordLength (ofString p.name).length := by
  have hlt := lt_recordLength (ofString p.name).length
  rw [recordHeaderLength] at hlt
  rw [record_eq]
  simp only [List.length_append, length_ofUInt32, List.length_cons, List.length_nil, recordHeaderLength]
  rw [length_padTo (by omega)]
  omega

/-- The table that is written is the table of these entries. -/
theorem isTable_records {ps : List Pending} (hnames : ∀ p ∈ ps, '\x00' ∉ p.name.toList) (offset : Nat)
    (hlength : (Builder.records offset ps).length < UInt32.size) :
    IsTable (Builder.records offset ps) (entriesFrom offset ps) := by
  induction ps generalizing offset with
  | nil => exact .nil
  | cons p ps ih =>
    rw [Builder.records, List.length_append, length_record] at hlength
    refine .cons (isRecord_record (hnames p (List.mem_cons_self ..)) (by omega)) ?_
    exact ih (fun q hq => hnames q (List.mem_cons_of_mem _ hq)) _ (by omega)

/-! ## The package -/

/-- The cookie of the package that is built. -/
def Builder.cookieData (b : Builder) : Cookie where
  packageLength := UInt32.ofNat (b.payloads.length + b.toc.length + cookieLength)
  tocOffset := UInt32.ofNat b.payloads.length
  tocLength := UInt32.ofNat b.toc.length
  version := b.version
  libraryName := String.ofList (b.libraryName.toList.takeWhile (· ≠ '\x00'))

/-- The archive that is read where the package starts at `offset`. -/
def Builder.archiveAt (b : Builder) (path : Path) (offset : Nat) : Archive where
  path := path
  packageOffset := offset
  cookie := b.cookieData
  entries := entriesFrom 0 b.entries

theorem isCookie_cookie {b : Builder} (h : (ofString b.libraryName).length < libraryNameLength) :
    IsCookie (b.cookie b.payloads.length b.toc.length) b.cookieData := by
  simp only [Builder.cookie, List.append_assoc]
  refine .fields (c := b.cookieData) (length_padTo (Nat.le_of_lt h)) ?_
  rw [cutAtNul_padTo, cutAtNul_ofString]
  rfl

theorem toBytes_eq_ok_iff (b : Builder) (bytes : Bytes) :
    b.toBytes = .ok bytes ↔ (ofString b.libraryName).length < libraryNameLength ∧
      b.payloads.length + b.toc.length + cookieLength < UInt32.size ∧
      b.payloads ++ b.toc ++ b.cookie b.payloads.length b.toc.length = bytes := by
  rw [Builder.toBytes]
  by_cases hname : (ofString b.libraryName).length < libraryNameLength
  · rw [if_neg (Nat.not_le.2 hname)]
    by_cases htotal : b.payloads.length + b.toc.length + cookieLength < UInt32.size
    · simp only [if_neg (Nat.not_le.2 htotal), Except.ok.injEq]
      exact ⟨fun h => ⟨hname, htotal, h⟩, fun h => h.2.2⟩
    · simp only [if_pos (Nat.not_lt.1 htotal)]
      exact ⟨nofun, fun h => absurd h.2.1 htotal⟩
  · rw [if_pos (Nat.not_lt.1 hname)]
    exact ⟨nofun, fun h => absurd h.1 hname⟩

/-- The bytes of a package that is not too large. -/
def Builder.bytes (b : Builder) : Bytes :=
  b.payloads ++ b.toc ++ b.cookie b.payloads.length b.toc.length

theorem toBytes_eq_bytes {b : Builder} (hname : (ofString b.libraryName).length < libraryNameLength)
    (htotal : b.payloads.length + b.toc.length + cookieLength < UInt32.size) : b.toBytes = .ok b.bytes :=
  (toBytes_eq_ok_iff ..).2 ⟨hname, htotal, rfl⟩

theorem IsCookie.length_eq {raw : Bytes} {c : Cookie} (h : IsCookie raw c) : raw.length = cookieLength := by
  obtain ⟨hlength, -⟩ := h
  simp only [List.length_append, length_ofUInt32, hlength]
  rfl

theorem IsCookie.magic_starts {raw : Bytes} {c : Cookie} (h : IsCookie raw c) : cookieMagic <+: raw := by
  cases h
  exact List.prefix_append _ _

/-- The cookie stands at the end of the package. -/
theorem length_toBytes {b : Builder} {bytes : Bytes} (h : b.toBytes = .ok bytes) :
    bytes.length = b.payloads.length + b.toc.length + cookieLength := by
  obtain ⟨hname, -, rfl⟩ := (toBytes_eq_ok_iff b bytes).1 h
  rw [List.length_append, List.length_append, (isCookie_cookie hname).length_eq]

/-- In any surroundings, what is built is a package where its magic is the last. -/
theorem holdsPackage_of_toBytes {b : Builder} {bytes : Bytes} (hnames : ∀ p ∈ b.entries, '\x00' ∉ p.name.toList)
    (h : b.toBytes = .ok bytes) (path : Path) {before behind : Bytes}
    (hlast : ∀ j, OccursAt cookieMagic (before ++ bytes ++ behind) j → j + cookieLength ≤ before.length + bytes.length) :
    HoldsPackage (before ++ bytes ++ behind) (before.length + (b.payloads.length + b.toc.length))
      (b.archiveAt path before.length) := by
  rw [length_toBytes h] at hlast
  obtain ⟨hname, htotal, rfl⟩ := (toBytes_eq_ok_iff b bytes).1 h
  have hcookie := isCookie_cookie hname
  have hlength : ∀ n, n < b.payloads.length + b.toc.length + cookieLength → (UInt32.ofNat n).toNat = n := fun n hn =>
    UInt32.toNat_ofNat_of_lt' (Nat.lt_trans hn htotal)
  rw [cookieLength] at hlast htotal
  generalize hraw : b.cookie b.payloads.length b.toc.length = raw at *
  have hpackage : b.cookieData.packageLength.toNat = b.payloads.length + b.toc.length + cookieLength :=
    UInt32.toNat_ofNat_of_lt' htotal
  have htocOffset : b.cookieData.tocOffset.toNat = b.payloads.length := hlength _ (by rw [cookieLength]; omega)
  have htocLength : b.cookieData.tocLength.toNat = b.toc.length := hlength _ (by rw [cookieLength]; omega)
  have hdrop : (before ++ (b.payloads ++ b.toc ++ raw) ++ behind).drop
      (before.length + (b.payloads.length + b.toc.length)) = raw ++ behind := by
    rw [← List.length_append, ← List.length_append]
    simp only [← List.append_assoc]
    rw [List.append_assoc _ raw, List.drop_left]
  refine ⟨?_, fun j hj => ?_, ?_, ?_, ?_, ?_, ?_⟩
  · rw [OccursAt, hdrop]
    exact hcookie.magic_starts.trans (List.prefix_append _ _)
  · have := hlast j hj
    omega
  · simp only [List.length_append, hcookie.length_eq]
    omega
  · rw [← hcookie.length_eq, slice_of_drop hdrop]
    exact hcookie
  · show before.length + b.cookieData.packageLength.toNat = _
    rw [hpackage]
    omega
  · show b.cookieData.tocOffset.toNat + b.cookieData.tocLength.toNat ≤ b.cookieData.packageLength.toNat
    omega
  · show IsTable (slice (before.length + b.cookieData.tocOffset.toNat) b.cookieData.tocLength.toNat _) _
    have hslice : slice (before.length + b.payloads.length) b.toc.length
        (before ++ (b.payloads ++ b.toc ++ raw) ++ behind) = b.toc := by
      rw [List.append_assoc, slice_append_right, List.append_assoc, List.append_assoc]
      exact (slice_append_right b.payloads _ 0 _).trans (slice_left _ _)
    rw [htocOffset, htocLength, hslice]
    exact isTable_records hnames 0 (by rw [Builder.toc] at htotal; omega)

end FrozenApp.Package
