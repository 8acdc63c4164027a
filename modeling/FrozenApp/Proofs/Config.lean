import FrozenApp.Config.Block
import FrozenApp.Config.Layout
import FrozenApp.Proofs.Bytes
import Mathlib.Algebra.Group.Nat.Defs
import Mathlib.Data.List.Pairwise
/-!
# Blocks and layouts

What is written into a block is read back from there (`Block.slice_write`,
`Block.int_eq`, `Block.unsignedLong_eq`), and every other byte stays
(`Block.getElem?_write`). A layout places each of its members within the record, at a
multiple of its alignment and apart from all other members (`Layout.places`).
-/

namespace FrozenApp

namespace Bytes

@[simp]
theorem length_littleEndian (width n : Nat) : (littleEndian width n).length = width := by
  induction width generalizing n with
  | zero => rfl
  | succ width ih => rw [littleEndian, List.length_cons, ih]

theorem toNatLittleEndian_littleEndian (width n : Nat) : toNatLittleEndian (littleEndian width n) = n % 256 ^ width := by
  induction width generalizing n with
  | zero => rw [littleEndian, toNatLittleEndian, pow_zero, Nat.mod_one]
  | succ width ih =>
    have hsplit : n % 256 ^ (width + 1) = n % 256 + 256 * (n / 256 % 256 ^ width) := by
      rw [pow_succ', Nat.mod_mul]
    rw [littleEndian, toNatLittleEndian, ih, UInt8.toNat_ofNat', hsplit]

theorem getElem?_slice (s : Bytes) (offset length i : Nat) :
    (slice offset length s)[i]? = if i < length then s[offset + i]? else none := by
  rw [slice, List.getElem?_take, List.getElem?_drop]

/-- A slice is made of the bytes that lie in it. -/
theorem slice_congr {s t : Bytes} {offset length : Nat}
    (h : ∀ i, offset ≤ i → i < offset + length → s[i]? = t[i]?) : slice offset length s = slice offset length t := by
  apply List.ext_getElem?
  intro i
  rw [getElem?_slice, getElem?_slice]
  split
  · exact h (offset + i) (by omega) (by omega)
  · rfl

end Bytes

namespace Config

open Bytes

namespace Block

variable {size : Nat}

/-- Read an `unsigned long`. -/
def unsignedLong (b : Block size) (offset : Nat) : UInt64 :=
  UInt64.ofNat (toNatLittleEndian (slice offset 8 b.toList))

theorem getElem?_write (b : Block size) (offset : Nat) (bytes : Bytes) (i : Nat) :
    (b.write offset bytes).toList[i]? =
      if offset ≤ i ∧ i < offset + bytes.length ∧ i < size then some (bytes.getD (i - offset) 0) else b.toList[i]? := by
  by_cases hi : i < size
  · rw [Vector.getElem?_toList, Vector.getElem?_toList, Vector.getElem?_eq_getElem hi, Vector.getElem?_eq_getElem hi,
      write, Vector.getElem_ofFn]
    split_ifs with h h' h'
    · rfl
    · exact absurd ⟨h.1, h.2, hi⟩ h'
    · exact absurd ⟨h'.1, h'.2.1⟩ h
    · rfl
  · rw [if_neg fun h => hi h.2.2, List.getElem?_eq_none (by simpa using hi), List.getElem?_eq_none (by simpa using hi)]

/-- What is written within the block is there behind it. -/
theorem slice_write {b : Block size} {offset : Nat} {bytes : Bytes} (h : offset + bytes.length ≤ size) :
    slice offset bytes.length (b.write offset bytes).toList = bytes := by
  apply List.ext_getElem?
  intro i
  rw [getElem?_slice]
  split
  · next hi =>
    rw [getElem?_write, if_pos ⟨by omega, by omega, by omega⟩, Nat.add_sub_cancel_left, List.getElem?_eq_getElem hi,
      List.getD_eq_getElem?_getD, List.getElem?_eq_getElem hi, Option.getD_some]
  · next hi => rw [List.getElem?_eq_none (by omega)]

theorem getElem?_write_of_outside {b : Block size} {offset : Nat} {bytes : Bytes} {i : Nat}
    (h : ¬ (offset ≤ i ∧ i < offset + bytes.length)) : (b.write offset bytes).toList[i]? = b.toList[i]? := by
  rw [getElem?_write, if_neg fun h' => h ⟨h'.1, h'.2.1⟩]

/-- A write leaves what lies apart from it. -/
theorem slice_write_of_apart {b : Block size} {offset offset' length : Nat} {bytes : Bytes}
    (h : offset + bytes.length ≤ offset' ∨ offset' + length ≤ offset) :
    slice offset' length (b.write offset bytes).toList = slice offset' length b.toList :=
  slice_congr fun _ _ _ => getElem?_write_of_outside (by omega)

theorem int_eq {b : Block size} {offset : Nat} {value : Int32}
    (h : slice offset 4 b.toList = littleEndian 4 value.toUInt32.toNat) : b.int offset = value := by
  rw [int, h, toNatLittleEndian_littleEndian, Nat.mod_eq_of_lt (by simpa using value.toUInt32.toNat_lt), UInt32.ofNat_toNat,
    Int32.toInt32_toUInt32]

theorem unsignedLong_eq {b : Block size} {offset : Nat} {value : UInt64}
    (h : slice offset 8 b.toList = littleEndian 8 value.toNat) : b.unsignedLong offset = value := by
  rw [unsignedLong, h, toNatLittleEndian_littleEndian, Nat.mod_eq_of_lt (by simpa using value.toNat_lt), UInt64.ofNat_toNat]

end Block

/-! ## Members one behind the other -/

theorem MemberType.align_pos (t : MemberType) : 0 < t.align := by
  cases t <;> decide

theorem le_alignUp (n : Nat) {a : Nat} (h : 0 < a) : n ≤ alignUp n a := by
  have hdiv : a * ((n + a - 1) / a) + (n + a - 1) % a = n + a - 1 := Nat.div_add_mod _ _
  have hmod : (n + a - 1) % a < a := Nat.mod_lt _ h
  rw [alignUp, Nat.mul_comm]
  omega

theorem dvd_alignUp (n a : Nat) : a ∣ alignUp n a :=
  Nat.dvd_mul_left a _

theorem endFrom_cons (start : Nat) (m : Member) (ms : List Member) :
    endFrom start (m :: ms) = endFrom (alignUp start m.type.align + m.type.size) ms := rfl

theorem le_endFrom (start : Nat) (ms : List Member) : start ≤ endFrom start ms := by
  induction ms generalizing start with
  | nil => exact Nat.le_refl _
  | cons m ms ih =>
    have hstart : start ≤ alignUp start m.type.align := le_alignUp start m.type.align_pos
    rw [endFrom_cons]
    exact Nat.le_trans (Nat.le_trans hstart (Nat.le_add_right _ _)) (ih _)

theorem map_fst_offsetsFrom (start : Nat) (ms : List Member) : (offsetsFrom start ms).map Prod.fst = ms := by
  induction ms generalizing start with
  | nil => rfl
  | cons m ms ih =>
    rw [offsetsFrom, List.map_cons]
    exact congrArg _ (ih _)

/-- Each member lies behind what is taken already and ahead of the end. -/
theorem mem_offsetsFrom {start : Nat} {ms : List Member} {m : Member} {offset : Nat} (h : (m, offset) ∈ offsetsFrom start ms) :
    start ≤ offset ∧ m.type.align ∣ offset ∧ offset + m.type.size ≤ endFrom start ms := by
  induction ms generalizing start with
  | nil => cases h
  | cons m' ms ih =>
    have hstart : start ≤ alignUp start m'.type.align := le_alignUp start m'.type.align_pos
    rw [endFrom_cons]
    rcases List.mem_cons.1 h with heq | h
    · cases heq
      exact ⟨hstart, dvd_alignUp _ _, le_endFrom _ _⟩
    · obtain ⟨hlow, haligned, hhigh⟩ := ih h
      exact ⟨by omega, haligned, hhigh⟩

theorem pairwise_offsetsFrom (start : Nat) (ms : List Member) :
    (offsetsFrom start ms).Pairwise fun p q => p.2 + p.1.type.size ≤ q.2 := by
  induction ms generalizing start with
  | nil => exact .nil
  | cons m ms ih =>
    rw [offsetsFrom]
    exact .cons (fun q hq => (mem_offsetsFrom hq).1) (ih _)

namespace Layout

/-- A member lies within the record, at a multiple of its alignment and apart from all
other members. -/
structure Places (l : Layout) (m : Member) : Prop where
  has : l.offset? m = some (l.offset m)
  within : l.offset m + m.type.size ≤ l.size
  aligned : m.type.align ∣ l.offset m
  /-- The record itself is at a multiple of the member's alignment. -/
  record_aligned : m.type.align ∣ l.align
  apart : ∀ m' offset', l.offset? m' = some offset' → m' ≠ m →
    l.offset m + m.type.size ≤ offset' ∨ offset' + m'.type.size ≤ l.offset m

/-- A byte of the record belongs to a member. -/
def Covers (l : Layout) (m : Member) (i : Nat) : Prop :=
  l.offset m ≤ i ∧ i < l.offset m + m.type.size

theorem mem_of_lookup {α β : Type} [BEq α] [LawfulBEq α] {l : List (α × β)} {a : α} {b : β} (h : l.lookup a = some b) :
    (a, b) ∈ l := by
  obtain ⟨l₁, l₂, rfl, -⟩ := List.lookup_eq_some_iff.1 h
  simp

theorem align_eq (l : Layout) : l.align = 8 := by
  cases l <;> decide +kernel

theorem align_dvd (t : MemberType) : t.align ∣ 8 := by
  cases t <;> decide

theorem exists_offset?_eq_some {l : Layout} {m : Member} (h : m ∈ l.members) : ∃ offset, l.offset? m = some offset := by
  rw [← map_fst_offsetsFrom 0 l.members] at h
  obtain ⟨p, hp, rfl⟩ := List.mem_map.1 h
  exact Option.isSome_iff_exists.1 (List.lookup_isSome_iff.2 ⟨p, hp, beq_self_eq_true _⟩)

/-- Every layout places all of its members. -/
theorem places {l : Layout} {m : Member} (h : m ∈ l.members) : l.Places m := by
  obtain ⟨offset, hoffset⟩ := exists_offset?_eq_some h
  have heq : l.offset m = offset := by rw [Layout.offset, hoffset, Option.getD_some]
  obtain ⟨-, haligned, hend⟩ := mem_offsetsFrom (mem_of_lookup hoffset)
  have hsize : endFrom 0 l.members ≤ l.size := le_alignUp _ (by rw [align_eq]; decide)
  refine ⟨by rw [heq, hoffset], ?_, ?_, ?_, fun m' offset' hoffset' hne => ?_⟩
  · rw [heq]
    exact hend.trans hsize
  · rwa [heq]
  · rw [align_eq]
    exact align_dvd m.type
  · rw [heq]
    -- of two members, the one or the other is laid out first
    have : Std.Symm fun p q : Member × Nat => p.2 + p.1.type.size ≤ q.2 ∨ q.2 + q.1.type.size ≤ p.2 :=
      ⟨fun _ _ => Or.symm⟩
    have hordered := (pairwise_offsetsFrom 0 l.members).imp (S := fun p q : Member × Nat =>
      p.2 + p.1.type.size ≤ q.2 ∨ q.2 + q.1.type.size ≤ p.2) .inl
    exact hordered.forall (mem_of_lookup hoffset) (mem_of_lookup hoffset') fun hpair =>
      hne (congrArg Prod.fst hpair).symm

end Layout

end Config

end FrozenApp
