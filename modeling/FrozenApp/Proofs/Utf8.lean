import FrozenApp.Text.Utf8
import FrozenApp.Proofs.Bytes
import Mathlib.Tactic.Common
import Mathlib.Tactic.SplitIfs
/-!
# Decoding undoes the UTF-8 form of a text, and nothing else

`lead` finds a character where the UTF-8 form of one starts (`lead_encode`), and
nowhere else (`encode_of_lead`). So strict decoding succeeds on the UTF-8 forms of
texts and on no other byte string (`decode_eq_ok_iff`).
-/

namespace FrozenApp

namespace Utf8

/-! ## Bytes as numbers -/

theorem secondRange_fst (first : UInt8) : (secondRange first).1.toNat =
    if first.toNat = 0xE0 then 0xA0 else if first.toNat = 0xF0 then 0x90 else 0x80 := by
  simp only [secondRange, ← UInt8.toNat_inj]
  split_ifs <;> first | rfl | simp_all

theorem secondRange_snd (first : UInt8) : (secondRange first).2.toNat =
    if first.toNat = 0xED then 0x9F else if first.toNat = 0xF4 then 0x8F else 0xBF := by
  simp only [secondRange, ← UInt8.toNat_inj]
  split_ifs <;> first | rfl | simp_all

theorem isTail_iff (b : UInt8) : isTail b = true ↔ 0x80 ≤ b.toNat ∧ b.toNat ≤ 0xBF := by
  rw [isTail, Bool.and_eq_true, decide_eq_true_eq, decide_eq_true_eq]; exact Iff.rfl

theorem outside_iff (low high b : UInt8) :
    (decide (b < low) || decide (high < b)) = true ↔ b.toNat < low.toNat ∨ high.toNat < b.toNat := by
  rw [Bool.or_eq_true, decide_eq_true_eq, decide_eq_true_eq]; exact Iff.rfl

theorem ofNat_eq {b : UInt8} {n : Nat} (h : n = b.toNat) : UInt8.ofNat n = b := by
  rw [h, UInt8.ofNat_toNat]

theorem val_ofNat {n : Nat} (h : n < 0xD800 ∨ 0xDFFF < n ∧ n < 0x110000) : (Char.ofNat n).val.toNat = n := by
  have hv : n.isValidChar := h
  rw [Char.ofNat, dif_pos hv]
  rfl

theorem val_range (c : Char) : c.val.toNat < 0xD800 ∨ 0xDFFF < c.val.toNat ∧ c.val.toNat < 0x110000 := c.valid

/-! ## Characters of each length -/

/-- The bytes of a character of two bytes. -/
def Two (a b : UInt8) : Prop :=
  0xC2 ≤ a.toNat ∧ a.toNat < 0xE0 ∧ 0x80 ≤ b.toNat ∧ b.toNat ≤ 0xBF

/-- The bytes of a character of three bytes. -/
def Three (a b c : UInt8) : Prop :=
  0xE0 ≤ a.toNat ∧ a.toNat < 0xF0 ∧ (secondRange a).1.toNat ≤ b.toNat ∧ b.toNat ≤ (secondRange a).2.toNat ∧
    0x80 ≤ c.toNat ∧ c.toNat ≤ 0xBF

/-- The bytes of a character of four bytes. -/
def Four (a b c d : UInt8) : Prop :=
  0xF0 ≤ a.toNat ∧ a.toNat ≤ 0xF4 ∧ (secondRange a).1.toNat ≤ b.toNat ∧ b.toNat ≤ (secondRange a).2.toNat ∧
    0x80 ≤ c.toNat ∧ c.toNat ≤ 0xBF ∧ 0x80 ≤ d.toNat ∧ d.toNat ≤ 0xBF

theorem encode_one {a : UInt8} (h : a.toNat < 0x80) : String.utf8EncodeChar (Char.ofNat a.toNat) = [a] := by
  simp only [String.utf8EncodeChar, val_ofNat (n := a.toNat) (by omega)]
  rw [if_pos (by omega), UInt8.ofNat_toNat]

theorem encode_two {a b : UInt8} (h : Two a b) :
    String.utf8EncodeChar (Char.ofNat (a.toNat % 32 * 64 + tailBits b)) = [a, b] := by
  obtain ⟨h1, h2, h3, h4⟩ := h
  unfold tailBits
  simp only [String.utf8EncodeChar, val_ofNat (n := a.toNat % 32 * 64 + b.toNat % 64) (by omega)]
  rw [if_neg (by omega), if_pos (by omega)]
  simp only [List.cons.injEq, and_true]
  exact ⟨ofNat_eq (by omega), ofNat_eq (by omega)⟩

theorem encode_three {a b c : UInt8} (h : Three a b c) :
    String.utf8EncodeChar (Char.ofNat (a.toNat % 16 * 4096 + tailBits b * 64 + tailBits c)) = [a, b, c] := by
  obtain ⟨h1, h2, h3, h4, h5, h6⟩ := h
  rw [secondRange_fst] at h3
  rw [secondRange_snd] at h4
  -- the range of the second byte keeps out long forms and surrogates
  have hlong : 0x7ff < a.toNat % 16 * 4096 + b.toNat % 64 * 64 + c.toNat % 64 := by split_ifs at h3 h4 <;> omega
  have hvalid : a.toNat % 16 * 4096 + b.toNat % 64 * 64 + c.toNat % 64 < 0xD800 ∨
      0xDFFF < a.toNat % 16 * 4096 + b.toNat % 64 * 64 + c.toNat % 64 := by split_ifs at h3 h4 <;> omega
  have hb : 0x80 ≤ b.toNat ∧ b.toNat ≤ 0xBF := by split_ifs at h3 h4 <;> omega
  unfold tailBits
  simp only [String.utf8EncodeChar, val_ofNat (n := a.toNat % 16 * 4096 + b.toNat % 64 * 64 + c.toNat % 64) (by omega)]
  rw [if_neg (by omega), if_neg (by omega), if_pos (by omega)]
  simp only [List.cons.injEq, and_true]
  exact ⟨ofNat_eq (by omega), ofNat_eq (by omega), ofNat_eq (by omega)⟩

theorem encode_four {a b c d : UInt8} (h : Four a b c d) :
    String.utf8EncodeChar (Char.ofNat (a.toNat % 8 * 262144 + tailBits b * 4096 + tailBits c * 64 + tailBits d)) =
      [a, b, c, d] := by
  obtain ⟨h1, h2, h3, h4, h5, h6, h7, h8⟩ := h
  rw [secondRange_fst] at h3
  rw [secondRange_snd] at h4
  have hlong : 0xffff < a.toNat % 8 * 262144 + b.toNat % 64 * 4096 + c.toNat % 64 * 64 + d.toNat % 64 := by
    split_ifs at h3 h4 <;> omega
  have hvalid : a.toNat % 8 * 262144 + b.toNat % 64 * 4096 + c.toNat % 64 * 64 + d.toNat % 64 < 0x110000 := by
    split_ifs at h3 h4 <;> omega
  have hb : 0x80 ≤ b.toNat ∧ b.toNat ≤ 0xBF := by split_ifs at h3 h4 <;> omega
  unfold tailBits
  simp only [String.utf8EncodeChar,
    val_ofNat (n := a.toNat % 8 * 262144 + b.toNat % 64 * 4096 + c.toNat % 64 * 64 + d.toNat % 64) (by omega)]
  rw [if_neg (by omega), if_neg (by omega), if_neg (by omega)]
  simp only [List.cons.injEq, and_true]
  exact ⟨ofNat_eq (by omega), ofNat_eq (by omega), ofNat_eq (by omega), ofNat_eq (by omega)⟩

/-- Every character has the bytes of one of the four lengths. -/
theorem encode_cases (c : Char) :
    (∃ a : UInt8, a.toNat < 0x80 ∧ c = Char.ofNat a.toNat) ∨
    (∃ a b, Two a b ∧ c = Char.ofNat (a.toNat % 32 * 64 + tailBits b)) ∨
    (∃ a b d, Three a b d ∧ c = Char.ofNat (a.toNat % 16 * 4096 + tailBits b * 64 + tailBits d)) ∨
    (∃ a b d e, Four a b d e ∧
      c = Char.ofNat (a.toNat % 8 * 262144 + tailBits b * 4096 + tailBits d * 64 + tailBits e)) := by
  have hv := val_range c
  have hc : ∀ n, n = c.val.toNat → c = Char.ofNat n := fun n h => by rw [h]; exact (Char.ofNat_toNat c).symm
  have hm : ∀ n, n < 256 → (UInt8.ofNat n).toNat = n := fun n h => by rw [UInt8.toNat_ofNat']; omega
  generalize c.val.toNat = v at hv hc
  by_cases h1 : v < 0x80
  · exact .inl ⟨.ofNat v, by rw [hm v (by omega)]; exact h1, hc _ (hm v (by omega))⟩
  by_cases h2 : v < 0x800
  · refine .inr (.inl ⟨.ofNat (v / 64 + 0xC0), .ofNat (v % 64 + 0x80), ?_, hc _ ?_⟩)
    · unfold Two; rw [hm _ (by omega), hm _ (by omega)]; omega
    · unfold tailBits; rw [hm _ (by omega), hm _ (by omega)]; omega
  by_cases h3 : v < 0x10000
  · refine .inr (.inr (.inl ⟨.ofNat (v / 4096 + 0xE0), .ofNat (v / 64 % 64 + 0x80), .ofNat (v % 64 + 0x80), ?_, hc _ ?_⟩))
    · unfold Three
      rw [secondRange_fst, secondRange_snd, hm _ (by omega), hm _ (by omega), hm _ (by omega)]
      split_ifs <;> omega
    · unfold tailBits; rw [hm _ (by omega), hm _ (by omega), hm _ (by omega)]; omega
  · refine .inr (.inr (.inr ⟨.ofNat (v / 262144 + 0xF0), .ofNat (v / 4096 % 64 + 0x80), .ofNat (v / 64 % 64 + 0x80),
      .ofNat (v % 64 + 0x80), ?_, hc _ ?_⟩))
    · unfold Four
      rw [secondRange_fst, secondRange_snd, hm _ (by omega), hm _ (by omega), hm _ (by omega), hm _ (by omega)]
      split_ifs <;> omega
    · unfold tailBits; rw [hm _ (by omega), hm _ (by omega), hm _ (by omega), hm _ (by omega)]; omega

/-! ## What a byte string starts with -/

theorem lead_one {a : UInt8} (h : a.toNat < 0x80) (rest : Bytes) : lead a rest = .char (Char.ofNat a.toNat) 0 := by
  unfold lead
  simp only
  rw [if_pos (UInt8.lt_iff_toNat_lt.2 h)]

theorem lead_cons {a b : UInt8} (h : 0xC2 ≤ a.toNat) (h' : a.toNat ≤ 0xF4) (hl : (secondRange a).1.toNat ≤ b.toNat)
    (hh : b.toNat ≤ (secondRange a).2.toNat) (rest : Bytes) :
    lead a (b :: rest) =
      if a < 0xE0 then .char (Char.ofNat (a.toNat % 32 * 64 + tailBits b)) 1
      else
        match rest with
        | [] => .cut 1
        | c :: rest =>
          if !isTail c then .broken 1
          else if a < 0xF0 then .char (Char.ofNat (a.toNat % 16 * 4096 + tailBits b * 64 + tailBits c)) 2
          else
            match rest with
            | [] => .cut 2
            | d :: _ =>
              if !isTail d then .broken 2
              else .char (Char.ofNat (a.toNat % 8 * 262144 + tailBits b * 4096 + tailBits c * 64 + tailBits d)) 3 := by
  have h1 : ¬ a < 0x80 := fun h1 => absurd (show a.toNat < 0x80 from h1) (by omega)
  have h2 : ¬ (decide (a < 0xC2) || decide (0xF4 < a)) = true := by
    rw [outside_iff]; show ¬ (a.toNat < 0xC2 ∨ 0xF4 < a.toNat); omega
  have h3 : ¬ (decide (b < (secondRange a).1) || decide ((secondRange a).2 < b)) = true := by
    rw [outside_iff]; omega
  unfold lead
  simp only
  rw [if_neg h1, if_neg h2]
  exact if_neg h3

theorem lead_two {a b : UInt8} (h : Two a b) (rest : Bytes) :
    lead a (b :: rest) = .char (Char.ofNat (a.toNat % 32 * 64 + tailBits b)) 1 := by
  obtain ⟨h1, h2, h3, h4⟩ := h
  have hl := secondRange_fst a
  have hh := secondRange_snd a
  rw [if_neg (by omega), if_neg (by omega)] at hl hh
  rw [lead_cons h1 (by omega) (by omega) (by omega), if_pos (UInt8.lt_iff_toNat_lt.2 h2)]

theorem lead_three {a b c : UInt8} (h : Three a b c) (rest : Bytes) :
    lead a (b :: c :: rest) = .char (Char.ofNat (a.toNat % 16 * 4096 + tailBits b * 64 + tailBits c)) 2 := by
  obtain ⟨h1, h2, h3, h4, h5⟩ := h
  have ha : ¬ a < 0xE0 := fun ha => absurd (show a.toNat < 0xE0 from ha) (by omega)
  rw [lead_cons (by omega) (by omega) h3 h4, if_neg ha]
  simp only [(isTail_iff c).2 h5, Bool.not_true, Bool.false_eq_true, if_false]
  rw [if_pos (UInt8.lt_iff_toNat_lt.2 h2)]

theorem lead_four {a b c d : UInt8} (h : Four a b c d) (rest : Bytes) :
    lead a (b :: c :: d :: rest) =
      .char (Char.ofNat (a.toNat % 8 * 262144 + tailBits b * 4096 + tailBits c * 64 + tailBits d)) 3 := by
  obtain ⟨h1, h2, h3, h4, h5, h6, h7⟩ := h
  have ha : ¬ a < 0xE0 := fun ha => absurd (show a.toNat < 0xE0 from ha) (by omega)
  have ha' : ¬ a < 0xF0 := fun ha => absurd (show a.toNat < 0xF0 from ha) (by omega)
  rw [lead_cons (by omega) (by omega) h3 h4, if_neg ha]
  simp only [(isTail_iff c).2 ⟨h5, h6⟩, (isTail_iff d).2 h7, Bool.not_true, Bool.false_eq_true, if_false, ha']

/-- The UTF-8 form of a character is found where it stands. -/
theorem lead_encode {a : UInt8} {tail : Bytes} {c : Char} (h : String.utf8EncodeChar c = a :: tail) (rest : Bytes) :
    lead a (tail ++ rest) = .char c tail.length := by
  rcases encode_cases c with ⟨x, hx, rfl⟩ | ⟨x, y, hx, rfl⟩ | ⟨x, y, z, hx, rfl⟩ | ⟨x, y, z, w, hx, rfl⟩
  · rw [encode_one hx] at h; cases h; exact lead_one hx rest
  · rw [encode_two hx] at h; cases h; exact lead_two hx rest
  · rw [encode_three hx] at h; cases h; exact lead_three hx rest
  · rw [encode_four hx] at h; cases h; exact lead_four hx rest

/-- Only the UTF-8 form of a character is found as one. -/
theorem encode_of_lead {a : UInt8} {rest : Bytes} {c : Char} {more : Nat} (h : lead a rest = .char c more) :
    String.utf8EncodeChar c = a :: rest.take more ∧ more ≤ rest.length := by
  -- each check that fails ends in no character, and each that holds bounds one more byte
  unfold lead at h
  simp only at h
  split at h
  · next h1 => cases h; exact ⟨encode_one h1, Nat.zero_le _⟩
  next h1 =>
  replace h1 : ¬ a.toNat < 0x80 := h1
  split at h
  · cases h
  next h2 =>
  rw [outside_iff] at h2
  replace h2 : ¬ (a.toNat < 0xC2 ∨ 0xF4 < a.toNat) := h2
  rcases rest with _ | ⟨b, rest⟩
  · cases h
  simp only at h
  split at h
  · cases h
  next h3 =>
  rw [outside_iff] at h3
  split at h
  · next h4 =>
    cases h
    replace h4 : a.toNat < 0xE0 := h4
    have hl := secondRange_fst a
    have hh := secondRange_snd a
    rw [if_neg (by omega), if_neg (by omega)] at hl hh
    exact ⟨encode_two ⟨by omega, h4, by omega, by omega⟩, by simp⟩
  next h4 =>
  replace h4 : ¬ a.toNat < 0xE0 := h4
  rcases rest with _ | ⟨c, rest⟩
  · cases h
  simp only at h
  split at h
  · cases h
  next h5 =>
  rw [Bool.not_eq_true', Bool.not_eq_false, isTail_iff] at h5
  split at h
  · next h6 =>
    cases h
    exact ⟨encode_three ⟨by omega, h6, by omega, by omega, h5⟩, by simp⟩
  next h6 =>
  replace h6 : ¬ a.toNat < 0xF0 := h6
  rcases rest with _ | ⟨d, rest⟩
  · cases h
  simp only at h
  split at h
  · cases h
  next h7 =>
  rw [Bool.not_eq_true', Bool.not_eq_false, isTail_iff] at h7
  cases h
  exact ⟨encode_four ⟨by omega, by omega, by omega, by omega, h5.1, h5.2, h7⟩, by simp⟩

/-! ## Whole strings -/

/-- The UTF-8 form of characters. -/
def encode (cs : List Char) : Bytes := cs.flatMap String.utf8EncodeChar

theorem parts_encode (cs : List Char) : parts (encode cs) = cs.map .char := by
  induction cs with
  | nil => rw [encode, List.flatMap_nil, parts, List.map_nil]
  | cons c cs ih =>
    obtain ⟨a, tail, h⟩ := List.exists_cons_of_ne_nil (String.utf8EncodeChar_ne_nil (c := c))
    rw [encode, List.flatMap_cons, h, List.cons_append, parts, lead_encode h]
    simp only [List.drop_left, List.map_cons]
    exact congrArg _ ih

theorem charsOfParts_char (cs : List Char) (index : Nat) : charsOfParts index (cs.map .char) = .ok cs := by
  induction cs generalizing index with
  | nil => rfl
  | cons c cs ih => rw [List.map_cons, charsOfParts, ih]; rfl

/-- Parts that are all characters come from the UTF-8 form of these. -/
theorem encode_of_charsOfParts (s : Bytes) (index : Nat) (cs : List Char)
    (h : charsOfParts index (parts s) = .ok cs) : encode cs = s := by
  fun_induction parts s generalizing index cs with
  | case1 => cases h; rfl
  | case2 a rest c more hl ih =>
    obtain ⟨he, hle⟩ := encode_of_lead hl
    rw [charsOfParts] at h
    obtain ⟨cs', h', rfl⟩ : ∃ cs', charsOfParts (index + c.utf8Size) (parts (rest.drop more)) = .ok cs' ∧ c :: cs' = cs := by
      cases hc : charsOfParts (index + c.utf8Size) (parts (rest.drop more)) with
      | error e => rw [hc] at h; cases h
      | ok cs' => rw [hc] at h; cases h; exact ⟨cs', rfl, rfl⟩
    rw [encode, List.flatMap_cons, he]
    have := ih _ _ h'
    rw [encode] at this
    rw [this, List.cons_append, List.take_append_drop]
  | case3 a rest more hl ih => cases h
  | case4 a rest more hl ih => cases h

theorem decode_eq_ok_iff (s : Bytes) (text : String) : decode s = .ok text ↔ Bytes.ofString text = s := by
  constructor
  · intro h
    rw [decode] at h
    cases hc : charsOfParts 0 (parts s) with
    | error e => rw [hc] at h; cases h
    | ok cs =>
      rw [hc] at h
      cases h
      rw [Bytes.ofString, String.toList_ofList]
      exact encode_of_charsOfParts s 0 cs hc
  · rintro rfl
    have : charsOfParts 0 (parts (Bytes.ofString text)) = .ok text.toList := by
      rw [show Bytes.ofString text = encode text.toList from rfl, parts_encode, charsOfParts_char]
    rw [decode, this]
    exact congrArg Except.ok String.ofList_toList

theorem lossy_ofString (s : String) : lossy (Bytes.ofString s) = s := by
  rw [lossy, show Bytes.ofString s = encode s.toList from rfl, parts_encode, List.map_map]
  exact (congrArg String.ofList (List.map_id _)).trans String.ofList_toList

end Utf8

theorem ofString_append (s t : String) : Bytes.ofString (s ++ t) = Bytes.ofString s ++ Bytes.ofString t := by
  simp [Bytes.ofString]

theorem Bytes.ofString_eq_nil {s : String} (h : Bytes.ofString s = []) : s = "" := by
  rw [← Utf8.lossy_ofString s, h, Utf8.lossy, Utf8.parts]
  rfl

/-! ## NULs in texts -/

namespace Bytes

/-- The UTF-8 form of a character holds a NUL only if the character is one. -/
theorem zero_mem_utf8EncodeChar {c : Char} (h : 0 ∈ String.utf8EncodeChar c) : c = '\x00' := by
  rcases Utf8.encode_cases c with ⟨x, hx, rfl⟩ | ⟨x, y, hx, rfl⟩ | ⟨x, y, z, hx, rfl⟩ | ⟨x, y, z, w, hx, rfl⟩
  · rw [Utf8.encode_one hx, List.mem_singleton] at h
    rw [← h]; rfl
  -- every byte of a longer character has its highest bit set
  all_goals
    have hlow : 0x80 ≤ (Utf8.secondRange x).1.toNat := by rw [Utf8.secondRange_fst]; split_ifs <;> omega
    exfalso
  · rw [Utf8.encode_two hx] at h
    simp only [Utf8.Two] at hx
    simp only [List.mem_cons, List.not_mem_nil, or_false, ← UInt8.toNat_inj, UInt8.toNat_zero] at h
    omega
  · rw [Utf8.encode_three hx] at h
    simp only [Utf8.Three] at hx
    simp only [List.mem_cons, List.not_mem_nil, or_false, ← UInt8.toNat_inj, UInt8.toNat_zero] at h
    omega
  · rw [Utf8.encode_four hx] at h
    simp only [Utf8.Four] at hx
    simp only [List.mem_cons, List.not_mem_nil, or_false, ← UInt8.toNat_inj, UInt8.toNat_zero] at h
    omega

theorem zero_not_mem_ofString {s : String} (h : '\x00' ∉ s.toList) : 0 ∉ ofString s := by
  intro h0
  obtain ⟨c, hc, h0⟩ := List.mem_flatMap.1 h0
  exact h (zero_mem_utf8EncodeChar h0 ▸ hc)

/-- The character NUL is read where there is a NUL. -/
theorem zero_mem_of_parts {s : Bytes} (h : .char '\x00' ∈ Utf8.parts s) : 0 ∈ s := by
  fun_induction Utf8.parts s with
  | case1 => cases h
  | case2 b rest c more hlead ih =>
    rcases List.mem_cons.1 h with heq | hrest
    · cases heq
      have hencode := (Utf8.encode_of_lead hlead).1
      rw [show String.utf8EncodeChar '\x00' = [0] by decide] at hencode
      exact List.mem_cons.2 (.inl (List.cons.inj hencode).1)
    · exact List.mem_cons_of_mem _ (List.mem_of_mem_drop (ih hrest))
  | case3 b rest more hlead ih | case4 b rest more hlead ih =>
    rcases List.mem_cons.1 h with heq | hrest
    · cases heq
    · exact List.mem_cons_of_mem _ (List.mem_of_mem_drop (ih hrest))

/-- What replaces bytes that are not UTF-8 is no NUL. -/
theorem zero_mem_of_lossy {s : Bytes} (h : 0 ∈ ofString (Utf8.lossy s)) : 0 ∈ s := by
  by_contra hs
  refine zero_not_mem_ofString (fun hnul => ?_) h
  rw [Utf8.lossy, String.toList_ofList, List.mem_map] at hnul
  obtain ⟨part, hpart, heq⟩ := hnul
  cases part with
  | char c =>
    cases heq
    exact hs (zero_mem_of_parts hpart)
  | broken => exact absurd (show '\uFFFD' = '\x00' from heq) (by decide)

/-- Cut at a NUL, the UTF-8 form of a text is that of the text cut at its NUL. -/
theorem cutAtNul_ofString (s : String) :
    (ofString s).cutAtNul = ofString (String.ofList (s.toList.takeWhile (· ≠ '\x00'))) := by
  simp only [ofString, String.toList_ofList, cutAtNul]
  induction s.toList with
  | nil => rfl
  | cons c cs ih =>
    rw [List.flatMap_cons, List.takeWhile_cons]
    by_cases hc : c = '\x00'
    · subst hc; rfl
    · have h0 : ∀ b ∈ String.utf8EncodeChar c, decide (b ≠ 0) = true := fun b hb => by
        simpa using fun h : b = 0 => hc (zero_mem_utf8EncodeChar (h ▸ hb))
      rw [List.takeWhile_append_of_pos h0, ih]
      simp [hc]

end Bytes

end FrozenApp
