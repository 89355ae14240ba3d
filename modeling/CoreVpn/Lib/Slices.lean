import CoreVpn.Lib.Text

namespace Lib.Slices

open Lib.Text

variable {chars front back : List Char} {n : Nat}

def byteLength (chars : List Char) : Nat := (chars.map Char.utf8Size).sum

theorem length_asBytes_eq (s : String) : (asBytes s).length = byteLength s.toList := by
  rw [asBytes_eq, List.length_flatMap, byteLength]
  exact congrArg List.sum (List.map_congr_left fun c _ => String.length_utf8EncodeChar c)

theorem byteLength_cons (c : Char) (chars : List Char) : byteLength (c :: chars) = c.utf8Size + byteLength chars :=
  List.sum_cons

theorem byteLength_append (front back : List Char) :
    byteLength (front ++ back) = byteLength front + byteLength back := by
  rw [byteLength, List.map_append, List.sum_append]
  rfl

theorem byteLength_pos (h : chars ≠ []) : 0 < byteLength chars := by
  obtain ⟨c, rest, rfl⟩ := List.exists_cons_of_ne_nil h
  have hc := c.utf8Size_pos
  rw [byteLength_cons]
  omega

theorem eq_nil_of_byteLength (h : byteLength chars = 0) : chars = [] := by
  by_contra hne
  have hpos := byteLength_pos hne
  omega

theorem prefix_of_byteLength_le {p q : List Char} (hp : p <+: chars) (hq : q <+: chars)
    (h : byteLength p ≤ byteLength q) : p <+: q := by
  obtain hshort | ⟨rest, rfl⟩ := List.prefix_or_prefix_of_prefix hp hq
  · exact hshort
  · rw [byteLength_append] at h
    rw [eq_nil_of_byteLength (show byteLength rest = 0 by omega), List.append_nil]

/-- The first bytes of a text, unless the cut is inside a character or behind the end. -/
def takeBytes : Nat → List Char → Option (List Char)
  | 0, _ => some []
  | _ + 1, [] => none
  | n + 1, c :: chars => if c.utf8Size ≤ n + 1 then (takeBytes (n + 1 - c.utf8Size) chars).map (c :: ·) else none

theorem takeBytes_eq_some_iff : takeBytes n chars = some front ↔ front <+: chars ∧ byteLength front = n := by
  fun_induction takeBytes n chars generalizing front with
  | case1 chars =>
    constructor
    · intro h
      cases h
      exact ⟨List.nil_prefix, rfl⟩
    · rintro ⟨-, hlength⟩
      rw [eq_nil_of_byteLength hlength]
  | case2 n =>
    constructor
    · intro h
      cases h
    · rintro ⟨hpre, hlength⟩
      rw [List.prefix_nil.mp hpre] at hlength
      cases hlength
  | case3 n c chars hsize ih =>
    rw [Option.map_eq_some_iff]
    constructor
    · rintro ⟨rest, hrest, rfl⟩
      obtain ⟨hpre, hlength⟩ := ih.mp hrest
      exact ⟨List.cons_prefix_cons.mpr ⟨rfl, hpre⟩, by rw [byteLength_cons]; omega⟩
    · rintro ⟨hpre, hlength⟩
      cases front with
      | nil => cases hlength
      | cons d rest =>
        obtain ⟨rfl, hrest⟩ := List.cons_prefix_cons.mp hpre
        rw [byteLength_cons] at hlength
        exact ⟨rest, ih.mpr ⟨hrest, by omega⟩, rfl⟩
  | case4 n c chars hsize =>
    constructor
    · intro h
      cases h
    · rintro ⟨hpre, hlength⟩
      cases front with
      | nil => cases hlength
      | cons d rest =>
        obtain ⟨rfl, -⟩ := List.cons_prefix_cons.mp hpre
        rw [byteLength_cons] at hlength
        omega

def HasBoundary (n : Nat) (chars : List Char) : Prop := ∃ front, front <+: chars ∧ byteLength front = n

theorem takeBytes_eq_none_iff : takeBytes n chars = none ↔ ¬ HasBoundary n chars := by
  rw [← Option.not_isSome_iff_eq_none, not_congr]
  rw [Option.isSome_iff_exists]
  exact exists_congr fun front => takeBytes_eq_some_iff

theorem takeBytes_append (h : n ≤ byteLength front) (back : List Char) :
    takeBytes n (front ++ back) = takeBytes n front := by
  refine Option.ext fun taken => ?_
  rw [takeBytes_eq_some_iff, takeBytes_eq_some_iff]
  refine and_congr_left fun hlength => ⟨fun hpre => ?_, fun hpre => hpre.trans (List.prefix_append _ _)⟩
  exact prefix_of_byteLength_le hpre (List.prefix_append front back) (by omega)

theorem prefix_of_takeBytes {taken : List Char} (h : takeBytes n (front ++ back) = some taken)
    (hlength : byteLength front ≤ n) : front <+: taken := by
  obtain ⟨hpre, htaken⟩ := takeBytes_eq_some_iff.mp h
  exact prefix_of_byteLength_le (List.prefix_append front back) hpre (by omega)

end Lib.Slices
