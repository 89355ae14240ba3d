import Mathlib.Data.Vector.Basic
import CoreVpn.Lib.Computation

namespace Lib.Wire

open Lib.Computation

abbrev Bytes := List UInt8

/-- A byte array whose length is part of its type. -/
abbrev ByteVec (n : Nat) := List.Vector UInt8 n

variable {ε : Type}

def index (data : Bytes) (i : Nat) : Outcome ε UInt8 :=
  match data[i]? with
  | some b => .ok b
  | none => .error .panic

/-- The half-open slice `data[a..b]`, which panics out of range. -/
def slice (data : Bytes) (a b : Nat) : Outcome ε Bytes :=
  if a ≤ b ∧ b ≤ data.length then .ok ((data.drop a).take (b - a)) else .error .panic

/-- Fill a fixed-size array from a slice, which panics when the lengths differ. -/
def toFixed (n : Nat) (data : Bytes) : Outcome ε (ByteVec n) :=
  if h : data.length = n then .ok ⟨data, h⟩ else .error .panic

def readFixed (n : Nat) (data : Bytes) (offset : Nat) : Outcome ε (ByteVec n) := do
  toFixed n (← slice data offset (offset + n))

def zeros (n : Nat) : ByteVec n := List.Vector.replicate n 0

def toBe32 (n : UInt32) : ByteVec 4 :=
  ⟨[(n >>> 24).toUInt8, (n >>> 16).toUInt8, (n >>> 8).toUInt8, n.toUInt8], rfl⟩

def fromBe32 : ByteVec 4 → UInt32
  | ⟨[a, b, c, d], _⟩ => UInt32.ofNat (((a.toNat * 256 + b.toNat) * 256 + c.toNat) * 256 + d.toNat)

def fromBe16 (a b : UInt8) : UInt16 := UInt16.ofNat (a.toNat * 256 + b.toNat)

def toBe16 (n : UInt16) : Bytes := [(n >>> 8).toUInt8, n.toUInt8]

def toBe24 (n : UInt32) : Bytes := [(n >>> 16).toUInt8, (n >>> 8).toUInt8, n.toUInt8]

def fromBe24 (a b c : UInt8) : UInt32 := (a.toUInt32 <<< 16) ||| (b.toUInt32 <<< 8) ||| c.toUInt32

theorem index_of_lt {data : Bytes} {i : Nat} (h : i < data.length) :
    (index data i : Outcome ε UInt8) = .ok data[i] := by
  simp [index, h]

theorem slice_of_le {data : Bytes} {a b : Nat} (hab : a ≤ b) (hb : b ≤ data.length) :
    (slice data a b : Outcome ε Bytes) = .ok ((data.drop a).take (b - a)) := by
  simp [slice, hab, hb]

theorem slice_to_end {data : Bytes} {a : Nat} (h : a ≤ data.length) :
    (slice data a data.length : Outcome ε Bytes) = .ok (data.drop a) := by
  rw [slice_of_le h le_rfl, List.take_of_length_le (by rw [List.length_drop])]

theorem readFixed_of_le {n : Nat} {data : Bytes} {a : Nat} (h : a + n ≤ data.length) :
    (readFixed n data a : Outcome ε (ByteVec n)) =
      .ok ⟨(data.drop a).take n, by simp; omega⟩ := by
  have hs : (slice data a (a + n) : Outcome ε Bytes) = .ok ((data.drop a).take n) := by
    rw [slice_of_le (by omega) h, Nat.add_sub_cancel_left]
  have hl : ((data.drop a).take n).length = n := by simp; omega
  simp only [readFixed, hs]
  exact dif_pos hl

@[simp] theorem length_toList {n : Nat} (v : ByteVec n) : v.toList.length = n := v.2

theorem drop_add_length {a : Nat} {data front rest : Bytes} (h : data.drop a = front ++ rest) :
    data.drop (a + front.length) = rest := by
  rw [← List.drop_drop, h, List.drop_left]

theorem drop_add {n a : Nat} {data rest : Bytes} {v : ByteVec n}
    (h : data.drop a = v.toList ++ rest) : data.drop (a + n) = rest := by
  have hd := drop_add_length h
  rwa [length_toList] at hd

theorem index_eq_ok_iff {data : Bytes} {i : Nat} {b : UInt8} :
    (index data i : Outcome ε UInt8) = .ok b ↔ data.drop i = b :: data.drop (i + 1) := by
  by_cases h : i < data.length
  · rw [index_of_lt h, List.drop_eq_getElem_cons h, Except.ok.injEq, List.cons.injEq]
    exact ⟨fun hb => ⟨hb, rfl⟩, And.left⟩
  · have hd : data.drop i = [] := List.drop_eq_nil_of_le (Nat.le_of_not_lt h)
    have hnone : data[i]? = none := List.getElem?_eq_none (Nat.le_of_not_lt h)
    simp [index, hnone, hd]

theorem readFixed_eq_ok_iff {n : Nat} (hn : 0 < n) {data : Bytes} {a : Nat} {v : ByteVec n} :
    (readFixed n data a : Outcome ε (ByteVec n)) = .ok v ↔
      data.drop a = v.toList ++ data.drop (a + n) := by
  by_cases h : a + n ≤ data.length
  · rw [readFixed_of_le h, ← List.drop_drop]
    constructor
    · intro hv
      obtain rfl := Except.ok.inj hv
      exact (List.take_append_drop n _).symm
    · intro hv
      congr 1
      apply Subtype.ext
      change (data.drop a).take n = v.toList
      rw [hv, List.take_left' (length_toList v)]
  · constructor
    · intro hv
      simp [readFixed, slice, h] at hv
      cases hv
    · intro hv
      have := congrArg List.length hv
      simp at this
      omega

theorem readFixed_of_drop {n : Nat} (hn : 0 < n) {data rest : Bytes} {a : Nat} {v : ByteVec n}
    (h : data.drop a = v.toList ++ rest) : (readFixed n data a : Outcome ε (ByteVec n)) = .ok v := by
  rw [readFixed_eq_ok_iff hn, drop_add h]
  exact h

theorem toNat_shr (n : UInt32) :
    (n >>> 24).toNat = n.toNat / 16777216 ∧ (n >>> 16).toNat = n.toNat / 65536 ∧
      (n >>> 8).toNat = n.toNat / 256 := by
  refine ⟨?_, ?_, ?_⟩ <;> exact (UInt32.toNat_shiftRight n _).trans (Nat.shiftRight_eq_div_pow _ _)

theorem fromBe32_toBe32 (n : UInt32) : fromBe32 (toBe32 n) = n := by
  apply UInt32.toNat_inj.mp
  have h := n.toNat_lt
  simp only [toBe32, fromBe32, UInt32.toNat_ofNat', UInt32.toNat_toUInt8, toNat_shr]
  omega

theorem toBe32_fromBe32 (v : ByteVec 4) : toBe32 (fromBe32 v) = v := by
  obtain ⟨l, hl⟩ := v
  match l, hl with
  | [a, b, c, d], _ =>
    apply Subtype.ext
    have ha := a.toNat_lt
    have hb := b.toNat_lt
    have hc := c.toNat_lt
    have hd := d.toNat_lt
    simp only [toBe32, fromBe32, List.cons.injEq, and_true, ← UInt8.toNat_inj,
      UInt32.toNat_ofNat', UInt32.toNat_toUInt8, toNat_shr]
    omega

theorem fromBe16_toBe16 (n : UInt16) : fromBe16 (n >>> 8).toUInt8 n.toUInt8 = n := by
  apply UInt16.toNat_inj.mp
  have h := n.toNat_lt
  have hshift : (n >>> 8).toNat = n.toNat / 256 :=
    (UInt16.toNat_shiftRight n 8).trans (Nat.shiftRight_eq_div_pow _ _)
  simp only [fromBe16, UInt16.toNat_ofNat', UInt16.toNat_toUInt8, hshift]
  omega

theorem toNat_fromBe24 (a b c : UInt8) :
    (fromBe24 a b c).toNat = (a.toNat * 256 + b.toNat) * 256 + c.toNat := by
  have ha := a.toNat_lt
  have hb := b.toNat_lt
  have hc := c.toNat_lt
  have hbc : (b.toNat <<< 8) ||| c.toNat = b.toNat <<< 8 + c.toNat :=
    (Nat.shiftLeft_add_eq_or_of_lt hc b.toNat).symm
  have hlt : b.toNat <<< 8 + c.toNat < 2 ^ 16 := by rw [Nat.shiftLeft_eq]; omega
  have hA : (a.toUInt32 <<< 16).toNat = a.toNat <<< 16 := by
    rw [UInt32.toNat_shiftLeft, UInt8.toNat_toUInt32]
    change a.toNat <<< 16 % 2 ^ 32 = _
    rw [Nat.shiftLeft_eq]
    omega
  have hB : (b.toUInt32 <<< 8).toNat = b.toNat <<< 8 := by
    rw [UInt32.toNat_shiftLeft, UInt8.toNat_toUInt32]
    change b.toNat <<< 8 % 2 ^ 32 = _
    rw [Nat.shiftLeft_eq]
    omega
  rw [fromBe24, UInt32.toNat_or, UInt32.toNat_or, hA, hB, UInt8.toNat_toUInt32, Nat.or_assoc, hbc,
    ← Nat.shiftLeft_add_eq_or_of_lt hlt, Nat.shiftLeft_eq, Nat.shiftLeft_eq]
  omega

theorem toBe24_fromBe24 (a b c : UInt8) : toBe24 (fromBe24 a b c) = [a, b, c] := by
  have ha := a.toNat_lt
  have hb := b.toNat_lt
  have hc := c.toNat_lt
  simp only [toBe24, List.cons.injEq, and_true, ← UInt8.toNat_inj, UInt32.toNat_toUInt8, toNat_shr,
    toNat_fromBe24]
  omega

theorem fromBe24_lt (a b c : UInt8) : (fromBe24 a b c).toNat < 2 ^ 24 := by
  have ha := a.toNat_lt
  have hb := b.toNat_lt
  have hc := c.toNat_lt
  rw [toNat_fromBe24]
  omega

theorem fromBe24_toBe24 {n : UInt32} (h : n.toNat < 2 ^ 24) :
    fromBe24 (n >>> 16).toUInt8 (n >>> 8).toUInt8 n.toUInt8 = n := by
  apply UInt32.toNat_inj.mp
  simp only [toNat_fromBe24, UInt32.toNat_toUInt8, toNat_shr]
  omega

end Lib.Wire
