import FrozenApp.Proofs.Package.Open
import Mathlib.Algebra.GroupWithZero.Nat
import Mathlib.Data.List.Forall2
/-!
# Tables of contents, one behind the other

What follows a table of contents has no say in how the table is read: its records are
found as before, and behind them reading goes on as if it started there, with places
that count from further on. `toc_parse_append` says so, and that the records
of a table make up its length, so that reading it takes no more rounds than
records fit into it.
-/

namespace FrozenApp.Package

open Bytes

/-! ## Places that count from further on -/

/-- The error for a record that starts `distance` bytes further on. -/
def TocError.shift (distance : Nat) : TocError → TocError
  | .truncated position => .truncated (distance + position)
  | .malformed position length => .malformed (distance + position) length
  | .badName position fault => .badName (distance + position) fault

/-- Where a table starts is seen in the errors only. -/
theorem parseFrom_add (distance position : Nat) (s : Bytes) :
    Toc.parseFrom (distance + position) s = (Toc.parseFrom position s).mapError (·.shift distance) := by
  fun_induction Toc.parseFrom position s with
  | case1 position s hs =>
    rw [Toc.parseFrom, if_pos hs]
    rfl
  | case2 position s hs hshort =>
    rw [Toc.parseFrom, if_neg hs, if_pos hshort]
    rfl
  | case3 position s hs hlong length hmalformed =>
    rw [Toc.parseFrom, if_neg hs, if_neg hlong]
    exact dif_pos hmalformed
  | case4 position s hs hlong length hfits fault hname =>
    rw [Toc.parseFrom, if_neg hs, if_neg hlong]
    dsimp only [length] at hfits hname ⊢
    rw [dif_neg hfits, hname]
    rfl
  | case5 position s hs hlong length hfits name hname e hrest ih =>
    rw [Toc.parseFrom, if_neg hs, if_neg hlong]
    dsimp only [length] at hfits hname hrest ih ⊢
    rw [dif_neg hfits, hname, Nat.add_assoc, ih, hrest]
    rfl
  | case6 position s hs hlong length hfits name hname entries hrest ih =>
    rw [Toc.parseFrom, if_neg hs, if_neg hlong]
    dsimp only [length] at hfits hname hrest ih ⊢
    rw [dif_neg hfits, hname, Nat.add_assoc, ih, hrest]
    rfl

/-- Behind a table, reading goes on as if it started there. -/
theorem IsTable.parse_append {s : Bytes} {entries : List Entry} (h : IsTable s entries) (behind : Bytes) :
    Toc.parse (s ++ behind) = ((Toc.parse behind).mapError (·.shift s.length)).map (entries ++ ·) := by
  have hbehind := parseFrom_add s.length 0 behind
  rw [Nat.add_zero] at hbehind
  rw [Toc.parse, parseFrom_append h, Nat.zero_add, hbehind]
  rfl

/-! ## The records of a table -/

theorem IsRecord.statedLength_eq {record : Bytes} {e : Entry} (h : IsRecord record e) :
    Toc.statedLength record = record.length := by
  have hread := (h.read []).1
  rwa [List.append_nil] at hread

theorem IsTable.exists_records {s : Bytes} {entries : List Entry} (h : IsTable s entries) :
    ∃ records : List Bytes, records.flatten = s ∧ List.Forall₂ IsRecord records entries := by
  induction h with
  | nil => exact ⟨[], rfl, .nil⟩
  | @cons record rest e entries hr _ ih =>
    obtain ⟨records, rfl, hrecords⟩ := ih
    exact ⟨record :: records, rfl, .cons hr hrecords⟩

/-- Every record gives its own length, which is that of the header at least. -/
theorem statedLength_of_records {records : List Bytes} {entries : List Entry}
    (h : List.Forall₂ IsRecord records entries) : ∀ record ∈ records,
      Toc.statedLength record = record.length ∧ recordHeaderLength ≤ Toc.statedLength record := by
  induction h with
  | nil => exact List.forall_mem_nil _
  | cons hr _ ih =>
    refine List.forall_mem_cons.2 ⟨⟨hr.statedLength_eq, ?_⟩, ih⟩
    rw [hr.statedLength_eq]
    exact hr.length_le

theorem sum_statedLength {records : List Bytes}
    (h : ∀ record ∈ records, Toc.statedLength record = record.length) :
    (records.map Toc.statedLength).sum = records.flatten.length := by
  rw [List.length_flatten, List.map_congr_left h]

/-! ## How many rounds -/

/-- A table is read in as many rounds as it has entries. -/
theorem parseWithin_of_isTable {s : Bytes} {entries : List Entry} (h : IsTable s entries) (rounds position : Nat) :
    Toc.parseWithin rounds position s = if entries.length ≤ rounds then some (.ok entries) else none := by
  induction h generalizing rounds position with
  | nil =>
    rw [List.length_nil, if_pos (Nat.zero_le rounds)]
    cases rounds <;> rfl
  | @cons record rest e entries hr _ ih =>
    obtain ⟨hlength, hname, hentry⟩ := hr.read rest
    obtain ⟨hnonempty, hlong, hfits⟩ := hr.passes rest
    cases rounds with
    | zero => rw [Toc.parseWithin, if_neg hnonempty, if_neg (by simp)]
    | succ rounds =>
      rw [Toc.parseWithin, if_neg hnonempty, if_neg hlong]
      simp only [hlength]
      rw [if_neg hfits]
      simp only [hname, hentry, List.drop_left, ih, List.length_cons, Nat.add_le_add_iff_right]
      split <;> rfl

theorem parseWithin_eq_some_iff {s : Bytes} {entries : List Entry} (h : IsTable s entries) (rounds position : Nat) :
    Toc.parseWithin rounds position s = some (.ok entries) ↔ entries.length ≤ rounds := by
  rw [parseWithin_of_isTable h]
  split <;> simp [*]

/-! ## Reading what follows a table -/

/-- A table of contents is read as it is read alone, whatever follows. What follows is read as
if it stood alone, but that an error is reported at a place further on by the length
of the table. The records of a table make up its length and take 18 bytes each or more. It is read in
one round for each, so not in more than a table of its length has room for. -/
theorem toc_parse_append (s : Bytes) (entries : List Entry) (h : Toc.parse s = .ok entries) :
    (∀ behind more, Toc.parse behind = .ok more → Toc.parse (s ++ behind) = .ok (entries ++ more)) ∧
    (∀ behind e, Toc.parse behind = .error e → Toc.parse (s ++ behind) = .error (e.shift s.length)) ∧
    (∃ records : List Bytes, records.flatten = s ∧ List.Forall₂ IsRecord records entries ∧
      (∀ record ∈ records, Toc.statedLength record = record.length ∧ 18 ≤ Toc.statedLength record) ∧
      (records.map Toc.statedLength).sum = s.length) ∧
    (∀ rounds, Toc.parseWithin rounds 0 s = some (.ok entries) ↔ entries.length ≤ rounds) ∧
    entries.length ≤ s.length / 18 := by
  have htable := (parse_toc_eq_ok_iff s entries).1 h
  refine ⟨fun behind more hmore => ?_, fun behind e he => ?_, ?_,
    fun rounds => parseWithin_eq_some_iff htable rounds 0, ?_⟩
  · rw [htable.parse_append, hmore]
    rfl
  · rw [htable.parse_append, he]
    rfl
  · obtain ⟨records, rfl, hrecords⟩ := htable.exists_records
    have hstated := statedLength_of_records hrecords
    exact ⟨records, rfl, hrecords, hstated, sum_statedLength fun record hr => (hstated record hr).1⟩
  · rw [Nat.le_div_iff_mul_le (by decide), Nat.mul_comm]
    exact htable.length_le

/-- A table with one record. Its name takes up the whole field, so that no NUL parts it from what follows. -/
def tightTable : Bytes :=
  ofUInt32 20 ++ (ofUInt32 7 ++ (ofUInt32 3 ++ (ofUInt32 3 ++ ([0, 0x78] ++ [0x61, 0x62]))))

theorem parse_tightTable : Toc.parse tightTable = .ok [⟨7, 3, 3, false, .data, "ab"⟩] := by
  have hrecord : IsRecord tightTable ⟨7, 3, 3, false, .data, "ab"⟩ :=
    @IsRecord.fields ⟨7, 3, 3, false, .data, "ab"⟩ 20 0 0x78 [0x61, 0x62] rfl (by decide) rfl rfl
  have htable : IsTable (tightTable ++ []) _ := .cons hrecord .nil
  rw [List.append_nil] at htable
  exact (parse_toc_eq_ok_iff ..).2 htable

/-- Behind 20 bytes of a table, the fault of a record that gives its length as 17 is one at place 20. -/
theorem toc_parse_append_tight : Toc.parse tightTable = .ok [⟨7, 3, 3, false, .data, "ab"⟩] ∧
    Toc.parse (ofUInt32 17 ++ List.replicate 14 0) = .error (.malformed 0 17) ∧
    Toc.parse (tightTable ++ (ofUInt32 17 ++ List.replicate 14 0)) = .error (.malformed 20 17) := by
  have hbehind : Toc.parse (ofUInt32 17 ++ List.replicate 14 0) = .error (.malformed 0 17) := by
    rw [Toc.parse, Toc.parseFrom]
    rfl
  exact ⟨parse_tightTable, hbehind, (toc_parse_append _ _ parse_tightTable).2.1 _ _ hbehind⟩

end FrozenApp.Package
