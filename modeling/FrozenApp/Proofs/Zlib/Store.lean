import FrozenApp.Zlib.Inflate
import FrozenApp.Zlib.Store
import Mathlib.Algebra.Group.Nat.Defs
import Mathlib.Data.List.Basic
/-!
# Inflating a stream of stored blocks

`inflate_store`: what `store` makes of a content inflates to that content. The
stages of the decoder are run one by one: a number is read off the bytes that
spell it, a stored block brings its bytes, and all blocks bring the content,
whatever has come out ahead of them.
-/

namespace FrozenApp.Zlib

/-! ## Numbers -/

theorem number_testBits (width n : Nat) (rest : Bits) :
    Bits.number width ((List.range width).map n.testBit ++ rest) = .ok (n % 2 ^ width, rest) := by
  induction width generalizing n with
  | zero => rw [Nat.pow_zero, Nat.mod_one]; rfl
  | succ width ih =>
    have htail : (List.range width).map (n.testBit ∘ Nat.succ) = (List.range width).map (n / 2).testBit := by
      simp [Nat.testBit_succ, Function.comp_def]
    rw [List.range_succ_eq_map, List.map_cons, List.map_map, htail, List.cons_append, Bits.number, ih]
    simp only [Except.ok.injEq, Prod.mk.injEq, and_true]
    rw [Nat.testBit_zero, Nat.pow_succ', Nat.mod_mul]
    cases Nat.mod_two_eq_zero_or_one n with
    | inl h => simp [h]
    | inr h => simp [h]

theorem number_byte (b : UInt8) (rest : Bits) : Bits.number 8 (Bits.ofByte b ++ rest) = .ok (b.toNat, rest) := by
  rw [Bits.ofByte, number_testBits, Nat.mod_eq_of_lt b.toNat_lt]

/-- Two numbers, one behind the other, make a longer one. -/
theorem number_add {m k n : Nat} {low high : Nat} {bits between rest : Bits}
    (hlow : Bits.number m bits = .ok (low, between)) (hhigh : Bits.number k between = .ok (high, rest)) (hn : n = m + k) :
    Bits.number n bits = .ok (low + 2 ^ m * high, rest) := by
  subst hn
  induction m generalizing bits low with
  | zero => cases hlow; simpa using hhigh
  | succ m ih =>
    rw [Nat.add_right_comm]
    cases bits with
    | nil => cases hlow
    | cons b bits =>
      rw [Bits.number] at hlow ⊢
      split at hlow
      · next h =>
        cases hlow
        rw [ih h]
        simp only [Nat.pow_succ']
        rw [Nat.mul_add, Nat.mul_assoc, Nat.add_assoc]
      · cases hlow

theorem ofBytes_cons (b : UInt8) (s : Bytes) : Bits.ofBytes (b :: s) = Bits.ofByte b ++ Bits.ofBytes s := rfl

theorem ofBytes_append (s t : Bytes) : Bits.ofBytes (s ++ t) = Bits.ofBytes s ++ Bits.ofBytes t :=
  List.flatMap_append

theorem length_ofBytes (s : Bytes) : (Bits.ofBytes s).length = 8 * s.length := by
  induction s with
  | nil => rfl
  | cons b s ih => rw [ofBytes_cons, List.length_append, ih, Bits.ofByte]; simp; omega

/-- A number of 16 bits is read where it was written. -/
theorem number_littleEndian {n : Nat} (hn : n < 65536) (rest : Bits) :
    Bits.number 16 (Bits.ofBytes (Bytes.littleEndian 2 n) ++ rest) = .ok (n, rest) := by
  have hlow := number_byte (UInt8.ofNat n) (Bits.ofByte (UInt8.ofNat (n / 256)) ++ rest)
  have hhigh := number_byte (UInt8.ofNat (n / 256)) rest
  have := number_add hlow hhigh (n := 16) rfl
  simp only [UInt8.toNat_ofNat'] at this
  rw [show n % 2 ^ 8 + 2 ^ 8 * (n / 256 % 2 ^ 8) = n by omega] at this
  simpa [Bytes.littleEndian, Bits.ofBytes] using this

/-! ## Runs of the decoder -/

/-- The decoder goes from one progress to another, with a result. -/
def Runs {α : Type} (m : Decoder α) (p : Progress) (a : α) (q : Progress) : Prop :=
  m.run p = (.ok a, q)

namespace Runs

variable {α β : Type} {m : Decoder α} {p q r : Progress} {a : α} {b : β}

theorem pure : Runs (pure a : Decoder α) p a p := rfl

theorem bind {f : α → Decoder β} (h : Runs m p a q) (hf : Runs (f a) q b r) : Runs (m >>= f) p b r := by
  rw [Runs] at *
  rw [ExceptT.run_bind]
  change (StateT.bind m.run _) p = _
  rw [StateT.bind, h]
  exact hf

theorem modify (f : Progress → Progress) : Runs (modify f : Decoder Unit) p () (f p) := rfl

theorem get : Runs (get : Decoder Progress) p p p := rfl

theorem take {read : Bits → Except Fault (α × Bits)} {bits : Bits} (h : read p.bits = .ok (a, bits)) :
    Runs (Decoder.take read) p a { p with bits } := by
  rw [Decoder.take]
  refine get.bind ?_
  rw [h]
  exact (modify _).bind pure

theorem number {width n : Nat} {bits : Bits} (h : Bits.number width p.bits = .ok (n, bits)) :
    Runs (Decoder.number width) p n { p with bits } :=
  take h

end Runs

/-! ## A stored block -/

theorem copyStored_runs (s : Bytes) (rest : Bits) (out : Array UInt8) (copying : Bool) :
    Runs (copyStored s.length) ⟨Bits.ofBytes s ++ rest, out, copying⟩ () ⟨rest, out ++ s.toArray, copying⟩ := by
  induction s generalizing out with
  | nil => simpa [Bits.ofBytes] using! Runs.pure
  | cons b s ih =>
    rw [List.length_cons, copyStored, ofBytes_cons, List.append_assoc]
    refine (Runs.number (number_byte b _)).bind ?_
    refine (Runs.modify _).bind ?_
    have := ih (out.push b)
    simpa using this

/-- A stored block is copied, from five bits ahead of the byte that it starts at. -/
theorem storedBlock_runs {pad : Bits} (hpad : pad.length = 5) {content : Bytes} (h : content.length ≤ storedMax)
    (rest : Bytes) (out : Array UInt8) :
    Runs storedBlock ⟨pad ++ Bits.ofBytes (Bytes.littleEndian 2 content.length ++
        Bytes.littleEndian 2 (65535 - content.length) ++ content ++ rest), out, false⟩ ()
      ⟨Bits.ofBytes rest, out ++ content.toArray, false⟩ := by
  rw [storedMax] at h
  rw [storedBlock]
  have halign : ∀ s : Bytes, Bits.align (pad ++ Bits.ofBytes s) = Bits.ofBytes s := by
    intro s
    rw [Bits.align, List.length_append, hpad, length_ofBytes, Nat.add_mul_mod_self_left]
    exact List.drop_left' hpad
  refine (Runs.modify _).bind ?_
  rw [halign, ofBytes_append, ofBytes_append, ofBytes_append, List.append_assoc, List.append_assoc]
  refine (Runs.number (number_littleEndian (by omega) _)).bind ?_
  refine (Runs.number (number_littleEndian (by omega) _)).bind ?_
  rw [if_neg (by omega)]
  refine (Runs.modify _).bind ?_
  exact (copyStored_runs content _ out true).bind (Runs.modify _)

/-! ## All blocks -/

theorem ofBytes_storedBytes (last : Bool) (content rest : Bytes) :
    Bits.ofBytes (storedBytes last content ++ rest) = last :: false :: false :: (List.replicate 5 false ++
      Bits.ofBytes (Bytes.littleEndian 2 content.length ++ Bytes.littleEndian 2 (65535 - content.length) ++ content ++
        rest)) := by
  cases last <;> rfl

/-- One block is read, and the others follow unless it is the last. -/
theorem blocks_succ_runs {last : Bool} {content : Bytes} (h : content.length ≤ storedMax) {rest : Bytes}
    {out : Array UInt8} {rounds : Nat} {q : Progress}
    (hrest : Runs (if last then pure () else blocks rounds) ⟨Bits.ofBytes rest, out ++ content.toArray, false⟩ () q) :
    Runs (blocks (rounds + 1)) ⟨Bits.ofBytes (storedBytes last content ++ rest), out, false⟩ () q := by
  rw [blocks, ofBytes_storedBytes]
  refine (Runs.number (n := last.toNat) rfl).bind ?_
  refine (Runs.number (n := 0) rfl).bind ?_
  refine (storedBlock_runs (List.length_replicate ..) h rest out).bind ?_
  cases last with
  | true => exact hrest
  | false => exact hrest

theorem blocks_runs (content rest : Bytes) (out : Array UInt8) {rounds : Nat} (h : content.length < rounds) :
    Runs (blocks rounds) ⟨Bits.ofBytes (storedBlocks content ++ rest), out, false⟩ ()
      ⟨Bits.ofBytes rest, out ++ content.toArray, false⟩ := by
  -- there is a round for each block, since a block that is not the last holds a byte
  obtain ⟨rounds, rfl⟩ : ∃ n, rounds = n + 1 := ⟨rounds - 1, by omega⟩
  fun_induction storedBlocks content generalizing out rounds with
  | case1 content hlast => exact blocks_succ_runs hlast .pure
  | case2 content hlast ih =>
    rw [storedMax] at hlast
    obtain ⟨rounds, rfl⟩ : ∃ n, rounds = n + 1 := ⟨rounds - 1, by omega⟩
    rw [List.append_assoc]
    refine blocks_succ_runs (by rw [List.length_take]; exact Nat.min_le_left _ _) ?_
    have hout : out ++ content.toArray = out ++ (content.take storedMax).toArray ++ (content.drop storedMax).toArray := by
      rw [Array.append_assoc, List.append_toArray (content.take _), List.take_append_drop]
    rw [hout]
    exact ih _ rounds (by rw [List.length_drop, storedMax]; omega)

/-! ## The stream -/

theorem length_storedBlocks (content : Bytes) : content.length ≤ (storedBlocks content).length := by
  fun_induction storedBlocks content with
  | case1 content hlast => rw [storedBytes, List.length_append]; omega
  | case2 content hlast ih =>
    rw [storedBytes, List.length_append, List.length_append, List.length_take]
    rw [List.length_drop] at ih
    omega

theorem stream_runs (content : Bytes) :
    Runs stream ⟨Bits.ofBytes (store content), #[], false⟩ () ⟨[], content.toArray, false⟩ := by
  have hbyte : ∀ (b : UInt8) (s : Bytes) (out : Array UInt8),
      Runs (Decoder.number 8) ⟨Bits.ofBytes (b :: s), out, false⟩ b.toNat ⟨Bits.ofBytes s, out, false⟩ :=
    fun b s out => Runs.number (number_byte b _)
  rw [stream, store, List.append_assoc]
  refine (hbyte ..).bind ?_
  refine (hbyte ..).bind ?_
  rw [if_neg (by decide)]
  refine Runs.get.bind ?_
  refine (blocks_runs content _ _ ?_).bind ?_
  · have := length_storedBlocks content
    show _ < (Bits.ofBytes (storedBlocks content ++ _)).length + 1
    rw [length_ofBytes, List.length_append]
    omega
  refine (Runs.modify _).bind ?_
  have halign : ∀ s : Bytes, (Bits.ofBytes s).align = Bits.ofBytes s := by
    intro s
    rw [Bits.align, length_ofBytes, Nat.mul_mod_right, List.drop_zero]
  rw [halign]
  -- the checksum, behind the blocks
  refine (hbyte ..).bind ?_
  refine (hbyte ..).bind ?_
  refine (hbyte ..).bind ?_
  refine (hbyte ..).bind ?_
  refine Runs.get.bind ?_
  have hn := (adler32 content).toNat_lt
  rw [if_neg]
  · simpa [Bits.ofBytes] using! Runs.pure
  · rw [adler32] at hn
    simp [adler32]
    omega

/-- What is stored inflates to itself. -/
theorem inflate_store (content : Bytes) : inflate content.length (store content) = .ok content := by
  have hdecode : decode (store content) = ⟨content.toArray, none, false⟩ := by
    have := stream_runs content
    rw [Runs] at this
    rw [decode, this]
  rw [inflate, read, hdecode]
  show Reading.collect ⟨content.toArray, none, false⟩ _ = _
  rw [Reading.collect, if_neg (by simp)]

end FrozenApp.Zlib
