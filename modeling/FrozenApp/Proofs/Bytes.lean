import FrozenApp.Bytes
import Mathlib.Data.List.TakeWhile
/-!
# Numbers and fields in byte strings

A 32-bit number is read back where it was written (`uint32At_eq_of_drop`), and
what is read anywhere is what would be written there (`ofUInt32_uint32At`). A
field that is filled up with NULs ends, as text, where it ended before.
-/

namespace FrozenApp.Bytes

/-! ## Slices -/

theorem slice_append_right (s t : Bytes) (offset length : Nat) :
    slice (s.length + offset) length (s ++ t) = slice offset length t := by
  rw [slice, slice, ← List.drop_drop, List.drop_left]

/-- What a string goes on with from a place on is the slice there. -/
theorem slice_of_drop {s piece rest : Bytes} {offset : Nat} (h : s.drop offset = piece ++ rest) :
    s.slice offset piece.length = piece := by
  rw [slice, h, List.take_left]

theorem drop_add_of_drop {s piece rest : Bytes} {offset : Nat} (h : s.drop offset = piece ++ rest) :
    s.drop (offset + piece.length) = rest := by
  rw [← List.drop_drop, h, List.drop_left]

theorem slice_left (s t : Bytes) : slice 0 s.length (s ++ t) = s := by
  simp [slice]

theorem length_slice {s : Bytes} {offset length : Nat} (h : offset + length ≤ s.length) :
    (slice offset length s).length = length := by
  rw [slice, List.length_take, List.length_drop]; omega

theorem slice_add (s : Bytes) (offset m n : Nat) :
    slice offset (m + n) s = slice offset m s ++ slice (offset + m) n s := by
  rw [slice, slice, slice, List.take_add, List.drop_drop]

theorem slice_two {s : Bytes} {offset : Nat} (h : offset + 2 ≤ s.length) :
    slice offset 2 s = [s.getD offset 0, s.getD (offset + 1) 0] := by
  rw [slice, List.drop_eq_getElem_cons (by omega), List.drop_eq_getElem_cons (by omega)]
  rw [List.getD, List.getD, List.getElem?_eq_getElem (by omega), List.getElem?_eq_getElem (by omega)]
  rfl

/-! ## Numbers of 32 bits -/

@[simp]
theorem length_ofUInt32 (n : UInt32) : (ofUInt32 n).length = 4 := rfl

/-- A number is read back where it was written. -/
theorem uint32At_eq_of_drop {s rest : Bytes} {offset : Nat} {n : UInt32} (h : s.drop offset = ofUInt32 n ++ rest) :
    s.uint32At offset = n := by
  have hn := n.toNat_lt
  rw [uint32At, h]
  apply UInt32.toNat_inj.1
  simp only [ofUInt32, List.cons_append, List.nil_append, List.take_succ_cons, List.take_zero, List.foldl_cons,
    List.foldl_nil, UInt8.toNat_ofNat', UInt32.toNat_ofNat']
  omega

/-- What is read is what would be written there. -/
theorem ofUInt32_uint32At {s : Bytes} {offset : Nat} (h : offset + 4 ≤ s.length) :
    ofUInt32 (s.uint32At offset) = s.slice offset 4 := by
  have hl := length_slice h
  rw [uint32At]
  change ofUInt32 (UInt32.ofNat ((s.slice offset 4).foldl _ 0)) = _
  generalize s.slice offset 4 = t at hl
  match t, hl with
  | [a, b, c, d], _ =>
    have ha := a.toNat_lt; have hb := b.toNat_lt; have hc := c.toNat_lt; have hd := d.toNat_lt
    simp only [ofUInt32, List.foldl_cons, List.foldl_nil, UInt32.toNat_ofNat', List.cons.injEq, and_true]
    refine ⟨?_, ?_, ?_, ?_⟩ <;> apply UInt8.toNat_inj.1 <;> rw [UInt8.toNat_ofNat'] <;> omega

/-! ## Fields that end at a NUL -/

theorem cutAtNul_eq_self {s : Bytes} (h : 0 ∉ s) : s.cutAtNul = s := by
  rw [cutAtNul, List.takeWhile_eq_self_iff]
  intro b hb
  simpa using fun h0 : b = 0 => h (h0 ▸ hb)

theorem zero_not_mem_cutAtNul (s : Bytes) : 0 ∉ s.cutAtNul := by
  intro h
  simpa using List.mem_takeWhile_imp h

theorem length_padTo {s : Bytes} {length : Nat} (h : s.length ≤ length) : (s.padTo length).length = length := by
  rw [padTo, List.length_append, List.length_replicate]; omega

/-- Filling a field up does not change where it ends. -/
theorem cutAtNul_padTo (s : Bytes) (length : Nat) : (s.padTo length).cutAtNul = s.cutAtNul := by
  rw [padTo, cutAtNul, cutAtNul, List.takeWhile_append]
  split
  · next h =>
    rw [List.takeWhile_replicate]
    simp only [ne_eq, not_true_eq_false, decide_false, Bool.false_eq_true, if_false, List.append_nil]
    exact (List.takeWhile_prefix _).eq_of_length h |>.symm
  · rfl

end FrozenApp.Bytes
