import FrozenApp.Program.Bootstrap
import FrozenApp.Proofs.Interpreter.Acts
import FrozenApp.Proofs.Utf8
/-!
# Reading locations back

The numeral that ends a location holds no question mark, so the last one there stands
behind the path, whatever bytes the path is made of. `collectionLocation_decodes`: path and
place can be told from a location, and locations as text are spelled the same.
-/

namespace FrozenApp.Bytes

/-! ## The last separator -/

/-- What stands ahead of the last `b` of a byte string, and what stands behind it. -/
def splitLast? (b : UInt8) : Bytes → Option (Bytes × Bytes)
  | [] => none
  | c :: rest =>
    match splitLast? b rest with
    | some (ahead, behind) => some (c :: ahead, behind)
    | none => if c = b then some ([], rest) else none

variable {b : UInt8}

theorem splitLast?_eq_none {s : Bytes} (h : b ∉ s) : splitLast? b s = none := by
  induction s with
  | nil => rfl
  | cons c s ih =>
    rw [List.mem_cons, not_or] at h
    rw [splitLast?, ih h.2]
    exact if_neg (Ne.symm h.1)

theorem splitLast?_append (ahead : Bytes) {behind : Bytes} (h : b ∉ behind) :
    splitLast? b (ahead ++ b :: behind) = some (ahead, behind) := by
  induction ahead with
  | nil =>
    rw [List.nil_append, splitLast?, splitLast?_eq_none h]
    exact if_pos rfl
  | cons c ahead ih => rw [List.cons_append, splitLast?, ih]

/-! ## Numerals -/

/-- The bytes are the number in decimal, in ASCII. -/
structure IsNumeral (s : Bytes) (n : Nat) : Prop where
  nonempty : s ≠ []
  digits : ∀ b ∈ s, 0x30 ≤ b ∧ b ≤ 0x39
  /-- A zero stands first only if nothing follows it. -/
  leading : s.head? = some 0x30 → s = [0x30]
  value : s.foldl (fun n b => 10 * n + (b.toNat - 0x30)) 0 = n

/-- The byte of a character that is a digit. -/
def ofDigit (c : Char) : UInt8 := UInt8.ofNat c.toNat

theorem toNat_of_isDigit {c : Char} (h : c.isDigit) : 0x30 ≤ c.toNat ∧ c.toNat ≤ 0x39 := by
  rw [Char.isDigit, Bool.and_eq_true, decide_eq_true_eq, decide_eq_true_eq] at h
  exact ⟨UInt32.le_iff_toNat_le.1 h.1, UInt32.le_iff_toNat_le.1 h.2⟩

theorem toNat_ofDigit {c : Char} (h : c.isDigit) : (ofDigit c).toNat = c.toNat := by
  have := toNat_of_isDigit h
  rw [ofDigit, UInt8.toNat_ofNat']
  omega

theorem utf8EncodeChar_of_isDigit {c : Char} (h : c.isDigit) : String.utf8EncodeChar c = [ofDigit c] := by
  have hrange := toNat_of_isDigit h
  have hc := toNat_ofDigit h
  rw [← Utf8.encode_one (by omega), hc, Char.ofNat_toNat]

theorem ofString_toString (n : Nat) : ofString (toString n) = (Nat.toDigits 10 n).map ofDigit := by
  have hdigits : ∀ c ∈ Nat.toDigits 10 n, c.isDigit := fun c hc => Nat.isDigit_of_mem_toDigits (by decide) (by decide) hc
  rw [ofString, Nat.toString_eq_ofList_toDigits, String.toList_ofList]
  generalize Nat.toDigits 10 n = cs at hdigits
  induction cs with
  | nil => rfl
  | cons c cs ih =>
    rw [List.forall_mem_cons] at hdigits
    rw [List.flatMap_cons, utf8EncodeChar_of_isDigit hdigits.1, ih hdigits.2]
    rfl

theorem foldl_ofDigit {cs : List Char} (h : ∀ c ∈ cs, c.isDigit) (n : Nat) :
    (cs.map ofDigit).foldl (fun n b => 10 * n + (b.toNat - 0x30)) n = Nat.ofDigitChars 10 cs n := by
  induction cs generalizing n with
  | nil => rfl
  | cons c cs ih =>
    rw [List.forall_mem_cons] at h
    rw [List.map_cons, List.foldl_cons, Nat.ofDigitChars_cons, toNat_ofDigit h.1, ih h.2]
    rfl

/-- Only the numeral of zero starts with a zero. -/
theorem eq_zero_of_head?_toDigits (n : Nat) (h : (Nat.toDigits 10 n).head? = some '0') : n = 0 := by
  induction n using Nat.strong_induction_on with
  | _ n ih =>
    by_cases hsmall : n < 10
    · rw [Nat.toDigits_of_lt_base hsmall, List.head?_cons] at h
      have hall : ∀ m < 10, some m.digitChar = some '0' → m = 0 := by decide
      exact hall n hsmall h
    · have hne : Nat.toDigits 10 (n / 10) ≠ [] := Nat.toDigits_ne_nil
      rw [Nat.toDigits_of_base_le (by decide) (Nat.le_of_not_lt hsmall), List.head?_append,
        List.head?_eq_some_head hne, Option.some_or, ← List.head?_eq_some_head hne] at h
      have := ih (n / 10) (by omega) h
      omega

theorem isNumeral_toString (n : Nat) : IsNumeral (ofString (toString n)) n := by
  have hdigits : ∀ c ∈ Nat.toDigits 10 n, c.isDigit := fun c hc => Nat.isDigit_of_mem_toDigits (by decide) (by decide) hc
  rw [ofString_toString]
  refine ⟨?_, ?_, fun hhead => ?_, ?_⟩
  · rw [Ne, List.map_eq_nil_iff]
    exact Nat.toDigits_ne_nil
  · intro b hb
    obtain ⟨c, hc, rfl⟩ := List.mem_map.1 hb
    have hrange := toNat_of_isDigit (hdigits c hc)
    rw [UInt8.le_iff_toNat_le, UInt8.le_iff_toNat_le, toNat_ofDigit (hdigits c hc)]
    exact hrange
  · rw [List.head?_map, Option.map_eq_some_iff] at hhead
    obtain ⟨c, hc, hzero⟩ := hhead
    have hdigit := hdigits c (List.mem_of_head? hc)
    have hnat : c.toNat = '0'.toNat := by
      rw [← toNat_ofDigit hdigit, hzero]
      rfl
    rw [Char.toNat_inj.1 hnat] at hc
    rw [eq_zero_of_head?_toDigits n hc]
    rfl
  · rw [foldl_ofDigit hdigits, Nat.ofDigitChars_ten_toDigits]

theorem IsNumeral.not_mem {s : Bytes} {n : Nat} (h : IsNumeral s n) (hb : b < 0x30 ∨ 0x39 < b) : b ∉ s := by
  intro hmem
  have hrange := h.digits b hmem
  simp only [UInt8.le_iff_toNat_le, UInt8.lt_iff_toNat_lt] at hrange hb
  omega

end FrozenApp.Bytes

namespace FrozenApp.Package

open Bytes

/-! ## Locations -/

theorem location_eq (path : Path) (offset : Nat) :
    location path offset = path ++ locationSeparator.toUInt8 :: ofString (toString offset) := by
  rw [location, ofString_append]
  rfl

theorem splitLast?_location (path : Path) (offset : Nat) :
    splitLast? locationSeparator.toUInt8 (location path offset) = some (path, ofString (toString offset)) := by
  rw [location_eq]
  exact splitLast?_append path ((isNumeral_toString offset).not_mem (by decide))

/-- A location tells the path and the place. -/
theorem location_inj {path path' : Path} {offset offset' : Nat} (h : location path offset = location path' offset') :
    path = path' ∧ offset = offset' := by
  have hsplit := congrArg (splitLast? locationSeparator.toUInt8) h
  rw [splitLast?_location, splitLast?_location, Option.some_inj, Prod.mk.injEq] at hsplit
  refine ⟨hsplit.1, ?_⟩
  rw [← (isNumeral_toString offset).value, hsplit.2, (isNumeral_toString offset').value]

theorem ofString_locationText (s : String) (offset : Nat) :
    ofString (locationText s offset) = location (.ofString s) offset := by
  rw [locationText, String.append_assoc, ofString_append]
  rfl

theorem zero_not_mem_location {path : Path} (h : 0 ∉ path) (offset : Nat) : 0 ∉ location path offset := by
  rw [location_eq, List.mem_append, List.mem_cons]
  rintro (hpath | hseparator | hnumeral)
  · exact h hpath
  · exact absurd hseparator (by decide)
  · exact (isNumeral_toString offset).not_mem (.inl (by decide)) hnumeral

end FrozenApp.Package

namespace FrozenApp.Program

open Bytes Interpreter Package

/-- A NUL in the path is all that can keep a location from being handed over. -/
theorem collectionLocation_eq (path : Path) (offset : Nat) : collectionLocation path offset =
    if 0 ∈ path then .error (.archivePathNul ⟨path⟩) else .ok (location path offset) := by
  rw [collectionLocation]
  by_cases h : 0 ∈ path
  · rw [terminated_of_mem h, if_pos h]
  · rw [terminated_of_not_mem h, if_neg h]
    dsimp only
    rw [terminated_of_not_mem (zero_not_mem_location h offset)]
    rfl

/-- A location, split at its last question mark, gives the path and the numeral of the place.
So there are no two paths or places with the same location. A path that is UTF-8 has the
location that it has as a text. -/
theorem collectionLocation_decodes (path : Path) (hpath : 0 ∉ path) (offset : Nat) :
    ∃ raw numeral, collectionLocation path offset = .ok raw ∧
      splitLast? '?'.toUInt8 raw = some (path, numeral) ∧ IsNumeral numeral offset ∧
      (∀ path' offset', collectionLocation path' offset' = .ok raw → path' = path ∧ offset' = offset) ∧
      ∀ text, Utf8.decode path = .ok text → raw = ofString (locationText text offset) := by
  refine ⟨location path offset, ofString (toString offset), ?_, splitLast?_location path offset,
    isNumeral_toString offset, fun path' offset' h => ?_, fun text htext => ?_⟩
  · rw [collectionLocation_eq, if_neg hpath]
  · rw [collectionLocation_eq] at h
    split at h
    · cases h
    · exact location_inj (Except.ok.inj h)
  · rw [ofString_locationText, Path.ofString, (Utf8.decode_eq_ok_iff path text).1 htext]

/-- The path `/a?12`, which looks like a location itself. -/
theorem collectionLocation_decodes_nested : 0 ∉ ([47, 97, 63, 49, 50] : Path) ∧
    ∃ raw numeral, collectionLocation [47, 97, 63, 49, 50] 8192 = .ok raw ∧
      splitLast? '?'.toUInt8 raw = some ([47, 97, 63, 49, 50], numeral) ∧ IsNumeral numeral 8192 ∧
      (∀ path' offset', collectionLocation path' offset' = .ok raw → path' = [47, 97, 63, 49, 50] ∧ offset' = 8192) ∧
      ∀ text, Utf8.decode [47, 97, 63, 49, 50] = .ok text → raw = ofString (locationText text 8192) := by
  have hpath : 0 ∉ ([47, 97, 63, 49, 50] : Path) := by decide
  exact ⟨hpath, collectionLocation_decodes _ hpath 8192⟩

end FrozenApp.Program
