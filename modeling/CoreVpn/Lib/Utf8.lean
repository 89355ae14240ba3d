import CoreVpn.Lib.Text

namespace Lib.Text

open Lib.Wire

def firstChar (data : Bytes) : Option Char := ByteArray.utf8DecodeChar? ⟨data.toArray⟩ 0

def isContinuation (b : UInt8) : Bool := 0x80 ≤ b && b ≤ 0xbf

def isSecond (first second : UInt8) : Bool :=
  isContinuation second &&
    if first == 0xe0 then decide (0xa0 ≤ second)
    else if first == 0xed then decide (second ≤ 0x9f)
    else if first == 0xf0 then decide (0x90 ≤ second)
    else if first == 0xf4 then decide (second ≤ 0x8f)
    else decide (0xe1 ≤ first ∧ first ≤ 0xf3)

/-- How many bytes that start no character are replaced at once: the longest
beginning of one, and at least a byte. -/
def brokenLength : Bytes → Nat
  | first :: second :: rest =>
    if isSecond first second then
      match rest with
      | third :: _ => if 0xf0 ≤ first && isContinuation third then 3 else 2
      | [] => 2
    else 1
  | _ => 1

def lossyChars : Nat → Bytes → List Char
  | 0, _ => []
  | fuel + 1, data =>
    if data.isEmpty then []
    else match firstChar data with
      | some c => c :: lossyChars fuel (data.drop c.utf8Size)
      | none => '�' :: lossyChars fuel (data.drop (brokenLength data))

/-- The text of bytes in which what is not valid UTF-8 is replaced. -/
def fromUtf8Lossy (data : Bytes) : String := String.ofList (lossyChars data.length data)

theorem firstChar_append (c : Char) (rest : Bytes) : firstChar (String.utf8EncodeChar c ++ rest) = some c := by
  have h := ByteArray.utf8DecodeChar?_utf8EncodeChar_append (b := ⟨rest.toArray⟩) (c := c)
  have hbytes : (String.utf8EncodeChar c).toByteArray ++ ⟨rest.toArray⟩ =
      (⟨(String.utf8EncodeChar c ++ rest).toArray⟩ : ByteArray) := by
    ext1
    simp
  rwa [hbytes] at h

theorem eq_of_firstChar {data : Bytes} {c : Char} (h : firstChar data = some c) :
    data = String.utf8EncodeChar c ++ data.drop c.utf8Size := by
  obtain ⟨rest, hrest⟩ := ByteArray.exists_of_utf8DecodeChar?_eq_some h
  have hdata : data = String.utf8EncodeChar c ++ rest.data.toList := by
    have hlist := congrArg (fun bytes : ByteArray => bytes.data.toList) hrest
    simpa using hlist
  have hdrop : data.drop c.utf8Size = rest.data.toList := by
    rw [hdata, ← String.length_utf8EncodeChar, List.drop_left]
  rw [hdrop]
  exact hdata

theorem brokenLength_pos (data : Bytes) : 0 < brokenLength data := by
  rw [brokenLength.eq_def]
  split
  · split
    · split
      · split <;> decide
      · decide
    · decide
  · decide

theorem lossyChars_stable {fuel fuel' : Nat} {data : Bytes} (h : data.length ≤ fuel) (h' : data.length ≤ fuel') :
    lossyChars fuel data = lossyChars fuel' data := by
  induction fuel generalizing fuel' data with
  | zero =>
    obtain rfl := List.eq_nil_of_length_eq_zero (Nat.le_zero.mp h)
    cases fuel' <;> rfl
  | succ fuel ih =>
    cases fuel' with
    | zero =>
      obtain rfl := List.eq_nil_of_length_eq_zero (Nat.le_zero.mp h')
      rfl
    | succ fuel' =>
      have hdrop : ∀ n, 0 < n → lossyChars fuel (data.drop n) = lossyChars fuel' (data.drop n) := by
        intro n hn
        apply ih
        · rw [List.length_drop]
          omega
        · rw [List.length_drop]
          omega
      rw [lossyChars, lossyChars]
      cases hfirst : firstChar data with
      | some c => simp only [hdrop c.utf8Size c.utf8Size_pos]
      | none => simp only [hdrop _ (brokenLength_pos data)]

theorem fromUtf8Lossy_cons (c : Char) (rest : Bytes) :
    (fromUtf8Lossy (String.utf8EncodeChar c ++ rest)).toList = c :: (fromUtf8Lossy rest).toList := by
  have hlen : (String.utf8EncodeChar c ++ rest).length = c.utf8Size - 1 + rest.length + 1 := by
    have hpos := c.utf8Size_pos
    rw [List.length_append, String.length_utf8EncodeChar]
    omega
  have hne : (String.utf8EncodeChar c ++ rest).isEmpty = false := by
    simp [String.utf8EncodeChar_ne_nil]
  have hdrop : (String.utf8EncodeChar c ++ rest).drop c.utf8Size = rest := by
    rw [← String.length_utf8EncodeChar, List.drop_left]
  rw [fromUtf8Lossy, fromUtf8Lossy, String.toList_ofList, String.toList_ofList, hlen, lossyChars, hne]
  simp only [Bool.false_eq_true, if_false, firstChar_append, hdrop]
  rw [lossyChars_stable (Nat.le_add_left _ _) le_rfl]

theorem fromUtf8Lossy_append (s : String) (rest : Bytes) :
    fromUtf8Lossy (asBytes s ++ rest) = s ++ fromUtf8Lossy rest := by
  rw [← String.toList_inj, String.toList_append, asBytes_eq]
  generalize s.toList = chars
  induction chars with
  | nil => rfl
  | cons c chars ih => rw [List.flatMap_cons, List.append_assoc, fromUtf8Lossy_cons, ih]; rfl

theorem count_utf8EncodeChar {c : Char} (hc : c.toNat < 128) (d : Char) :
    (String.utf8EncodeChar d).count (UInt8.ofNat c.toNat) = if d = c then 1 else 0 := by
  have hbyte : ∀ n, n < 256 → (UInt8.ofNat c.toNat = UInt8.ofNat n ↔ c.toNat = n) := by
    intro n hn
    rw [← UInt8.toNat_inj, UInt8.toNat_ofNat_of_lt' (by change c.toNat < 256; omega),
      UInt8.toNat_ofNat_of_lt' hn]
  by_cases hd : d.val.toNat ≤ 127
  · have hchar : String.utf8EncodeChar d = [UInt8.ofNat d.toNat] := if_pos hd
    have hsame : UInt8.ofNat d.toNat = UInt8.ofNat c.toNat ↔ d = c := by
      rw [eq_comm, hbyte d.toNat (Nat.lt_of_le_of_lt hd (by decide)), Char.toNat_inj, eq_comm]
    rw [hchar, List.count_singleton]
    simp only [beq_iff_eq, hsame]
  · have hne : d ≠ c := by
      rintro rfl
      exact hd (Nat.le_of_lt_succ hc)
    -- Every byte of a longer character has its highest bit set.
    have hmem : UInt8.ofNat c.toNat ∉ String.utf8EncodeChar d := by
      intro hmem
      rw [String.utf8EncodeChar, if_neg hd] at hmem
      split at hmem
      · simp only [List.mem_cons, List.not_mem_nil, or_false] at hmem
        rcases hmem with h | h <;> rw [hbyte _ (by omega)] at h <;> omega
      · split at hmem
        · simp only [List.mem_cons, List.not_mem_nil, or_false] at hmem
          rcases hmem with h | h | h <;> rw [hbyte _ (by omega)] at h <;> omega
        · simp only [List.mem_cons, List.not_mem_nil, or_false] at hmem
          rcases hmem with h | h | h | h <;> rw [hbyte _ (by omega)] at h <;> omega
    rw [List.count_eq_zero_of_not_mem hmem, if_neg hne]

theorem count_asBytes {c : Char} (hc : c.toNat < 128) (s : String) :
    (asBytes s).count (UInt8.ofNat c.toNat) = s.toList.count c := by
  rw [asBytes_eq]
  generalize s.toList = chars
  induction chars with
  | nil => rfl
  | cons d chars ih =>
    rw [List.flatMap_cons, List.count_append, ih, count_utf8EncodeChar hc, List.count_cons]
    simp only [beq_iff_eq]
    omega

theorem count_fromUtf8Lossy_le {c : Char} (hc : c.toNat < 128) (data : Bytes) :
    (fromUtf8Lossy data).toList.count c ≤ data.count (UInt8.ofNat c.toNat) := by
  rw [fromUtf8Lossy, String.toList_ofList]
  generalize data.length = fuel
  induction fuel generalizing data with
  | zero => exact Nat.zero_le _
  | succ fuel ih =>
    rw [lossyChars]
    split
    · exact Nat.zero_le _
    · cases hfirst : firstChar data with
      | some d =>
        have hdata := congrArg (List.count (UInt8.ofNat c.toNat)) (eq_of_firstChar hfirst)
        rw [List.count_append, count_utf8EncodeChar hc] at hdata
        have hrest := ih (data.drop d.utf8Size)
        simp only [List.count_cons, beq_iff_eq]
        omega
      | none =>
        have hne : ¬ ('�' = c) := by
          rintro rfl
          exact absurd hc (by decide)
        have hrest := ih (data.drop (brokenLength data))
        have hsub : (data.drop (brokenLength data)).count (UInt8.ofNat c.toNat) ≤
            data.count (UInt8.ofNat c.toNat) := (List.drop_sublist _ _).count_le _
        simp only [List.count_cons, beq_iff_eq, if_neg hne]
        omega

end Lib.Text
