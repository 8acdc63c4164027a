import FrozenApp.Path
import Mathlib.Data.List.Basic
/-!
# The names along a path

`Path.parent?` cuts a path at the end of a name. What is left starts where the path does and goes
along the same names but the last (`parent?_eq_some`), if `.` is not among them.
-/

namespace FrozenApp.Path

/-- The names along a path, `.` and `..` included. -/
def segments (p : Path) : List Bytes :=
  (splitSlash p).filter (!·.isEmpty)

/-! ## Cutting a path at the end of a name -/

theorem splitSlash_slash_cons (p : Path) : splitSlash (slash :: p) = [] :: splitSlash p := by
  rw [splitSlash, if_pos rfl]

theorem splitSlash_cons {b : UInt8} {p : Path} {first : Bytes} {rest : List Bytes} (hb : b ≠ slash)
    (hp : splitSlash p = first :: rest) : splitSlash (b :: p) = (b :: first) :: rest := by
  rw [splitSlash, if_neg hb, hp]

theorem splitSlash_ne_nil (p : Path) : splitSlash p ≠ [] := by
  cases p with
  | nil => simp [splitSlash]
  | cons b p =>
    rw [splitSlash]
    split
    · simp
    · split <;> simp

/-- The length of names with a slash behind each. -/
def reach : List Bytes → Nat
  | [] => 0
  | name :: names => name.length + 1 + reach names

/-- Cut at the end of a name, a path has the names up to that one. -/
theorem splitSlash_take {p : Path} {ahead behind : List Bytes} {name : Bytes}
    (h : splitSlash p = ahead ++ name :: behind) :
    splitSlash (p.take (reach ahead + name.length)) = ahead ++ [name] := by
  induction p generalizing ahead name with
  | nil =>
    cases ahead with
    | nil => cases h; rfl
    | cons x ahead => cases ahead <;> cases h
  | cons b p ih =>
    by_cases hb : b = slash
    · rw [hb, splitSlash_slash_cons] at h
      cases ahead with
      | nil =>
        obtain ⟨rfl, -⟩ := List.cons.inj h
        rfl
      | cons x ahead =>
        obtain ⟨rfl, hrest⟩ := List.cons.inj h
        have hreach : reach ([] :: ahead) + name.length = reach ahead + name.length + 1 := by
          rw [reach, List.length_nil]
          omega
        rw [hreach, List.take_succ_cons, hb, splitSlash_slash_cons, ih hrest]
        rfl
    · obtain ⟨first, rest, hp⟩ := List.exists_cons_of_ne_nil (splitSlash_ne_nil p)
      rw [splitSlash_cons hb hp] at h
      cases ahead with
      | nil =>
        obtain ⟨rfl, rfl⟩ := List.cons.inj h
        have htake := @ih [] first hp
        rw [reach, Nat.zero_add] at htake ⊢
        exact splitSlash_cons hb htake
      | cons x ahead =>
        obtain ⟨rfl, rfl⟩ := List.cons.inj h
        have hreach : reach ((b :: first) :: ahead) + name.length = reach (first :: ahead) + name.length + 1 := by
          simp only [reach, List.length_cons]
          omega
        rw [hreach]
        exact splitSlash_cons hb (@ih (first :: ahead) name hp)

theorem map_withEnds (offset : Nat) (names : List Bytes) : (withEnds offset names).map (·.1) = names := by
  induction names generalizing offset with
  | nil => rfl
  | cons name names ih => rw [withEnds, List.map_cons, ih]

theorem eq_of_withEnds {offset stop : Nat} {names : List Bytes} {name : Bytes} {ahead behind : List (Bytes × Nat)}
    (h : withEnds offset names = ahead ++ (name, stop) :: behind) :
    stop = offset + (reach (ahead.map (·.1)) + name.length) := by
  induction names generalizing offset ahead with
  | nil => cases ahead <;> cases h
  | cons first names ih =>
    rw [withEnds] at h
    cases ahead with
    | nil =>
      cases h
      rw [List.map_nil, reach, Nat.zero_add]
    | cons x ahead =>
      obtain ⟨rfl, hrest⟩ := List.cons.inj h
      rw [ih hrest, List.map_cons, reach]
      dsimp only
      omega

/-! ## The path around -/

/-- Where `.` is not among the names, those that count are the ones along the path. -/
theorem map_namesWithEnds {p : Path} (h : [dot] ∉ p.segments) :
    p.namesWithEnds = (withEnds 0 (splitSlash p)).filter (!·.1.isEmpty) ∧ p.namesWithEnds.map (·.1) = p.segments := by
  have hfilter : p.namesWithEnds = (withEnds 0 (splitSlash p)).filter (!·.1.isEmpty) := by
    refine List.filter_congr fun x hx => ?_
    have hname : x.1 ∈ splitSlash p := map_withEnds 0 (splitSlash p) ▸ List.mem_map_of_mem hx
    have hne : x.1.isEmpty = false → x.1 ≠ [dot] := by
      rintro hempty heq
      exact h (List.mem_filter.2 ⟨heq ▸ hname, rfl⟩)
    cases hempty : x.1.isEmpty <;> simp [hempty, hne]
  refine ⟨hfilter, ?_⟩
  rw [hfilter, segments, ← map_withEnds 0 (splitSlash p), List.filter_map, map_withEnds]
  rfl

/-- The path around another starts where that one does, and goes along the same names but the last. -/
theorem parent?_eq_some {p around : Path} (hdot : [dot] ∉ p.segments) (h : p.parent? = some around) :
    p.segments ≠ [] ∧ around.segments = p.segments.dropLast ∧ around.isAbsolute = p.isAbsolute ∧
      (around <+: p ∨ around = [slash] ∨ around = []) := by
  obtain ⟨hcount, hsegments⟩ := map_namesWithEnds hdot
  rw [parent?] at h
  split at h
  · cases h
  next last hlast =>
    cases h
    rw [List.reverse_eq_iff] at hlast
    rw [← hsegments, hlast]
    cases habsolute : p.isAbsolute with
    | true => exact ⟨nofun, rfl, rfl, .inr (.inl rfl)⟩
    | false => exact ⟨nofun, rfl, rfl, .inr (.inr rfl)⟩
  next last name stop ahead hlast =>
    cases h
    rw [List.reverse_eq_iff, List.reverse_cons, List.reverse_cons, List.append_assoc, List.singleton_append] at hlast
    rw [hlast] at hcount
    obtain ⟨before, rest, hsplit, hbefore, hrest⟩ := List.filter_eq_append_iff.1 hcount.symm
    obtain ⟨empty, behind, rfl, hempty, hname, -⟩ := List.filter_eq_cons_iff.1 hrest
    rw [← List.append_assoc] at hsplit
    have hstop := eq_of_withEnds hsplit
    have hnames : splitSlash p = (before ++ empty).map (·.1) ++ name :: behind.map (·.1) := by
      rw [← map_withEnds 0 (splitSlash p), hsplit, List.map_append, List.map_cons]
    have htake := splitSlash_take hnames
    rw [← Nat.zero_add (_ + _), ← hstop] at htake
    have hnonempty : name.isEmpty = false := by simpa using hname
    have hahead : ((before ++ empty).map (·.1)).filter (!·.isEmpty) = ahead.reverse.map (·.1) := by
      rw [List.filter_map, ← hbefore, ← List.append_nil (before.filter _), ← List.filter_eq_nil_iff.2 hempty,
        ← List.filter_append]
      rfl
    rw [← hsegments, hlast, segments, htake, List.filter_append, hahead]
    refine ⟨by simp, ?_, ?_, .inl (List.take_prefix _ _)⟩
    · simp [hnonempty, List.dropLast_append_of_ne_nil]
    · have hpos : stop ≠ 0 := by
        have := List.length_pos_iff.2 (List.isEmpty_eq_false_iff.1 hnonempty)
        omega
      rw [isAbsolute, isAbsolute, List.head?_take, if_neg hpos]

theorem exists_parent? {p : Path} (hdot : [dot] ∉ p.segments) (h : p.segments ≠ []) :
    ∃ around, p.parent? = some around := by
  rw [parent?]
  split
  next hnone =>
    rw [List.reverse_eq_nil_iff] at hnone
    rw [← (map_namesWithEnds hdot).2, hnone] at h
    exact absurd rfl h
  · exact ⟨_, rfl⟩
  · exact ⟨_, rfl⟩

theorem length_segments_le (p : Path) : p.segments.length ≤ p.length := by
  induction p with
  | nil => decide
  | cons b p ih =>
    rw [segments] at ih ⊢
    by_cases hb : b = slash
    · rw [hb, splitSlash_slash_cons]
      exact Nat.le_succ_of_le ih
    · obtain ⟨first, rest, hp⟩ := List.exists_cons_of_ne_nil (splitSlash_ne_nil p)
      rw [hp, List.filter_cons] at ih
      rw [splitSlash_cons hb hp, List.filter_cons_of_pos (by rfl), List.length_cons, List.length_cons]
      split at ih
      · exact Nat.succ_le_succ (Nat.le_of_succ_le ih)
      · exact Nat.succ_le_succ ih

end FrozenApp.Path
