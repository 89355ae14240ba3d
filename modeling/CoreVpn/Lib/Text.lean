import Mathlib.Data.List.DropRight
import CoreVpn.Lib.Wire

namespace Lib.Text

open Lib.Wire

def asBytes (s : String) : Bytes := s.toUTF8.data.toList

def fromUtf8 (data : Bytes) : Option String := String.fromUTF8? ⟨data.toArray⟩

theorem fromUtf8_asBytes (s : String) : fromUtf8 (asBytes s) = some s := by
  rw [fromUtf8, asBytes, Array.toArray_toList]
  exact dif_pos s.isValidUTF8

theorem asBytes_append (s t : String) : asBytes (s ++ t) = asBytes s ++ asBytes t := by
  simp [asBytes]

theorem asBytes_eq (s : String) : asBytes s = s.toList.flatMap String.utf8EncodeChar := by
  rw [asBytes, String.toUTF8_eq_toByteArray, ← String.utf8Encode_toList, List.utf8Encode]
  simp

theorem length_asBytes_le (s : String) : (asBytes s).length ≤ 4 * s.toList.length := by
  rw [asBytes_eq]
  generalize s.toList = chars
  induction chars with
  | nil => exact Nat.le_refl 0
  | cons c rest ih =>
    have hchar := c.utf8Size_le_four
    rw [List.flatMap_cons, List.length_append, List.length_cons, String.length_utf8EncodeChar]
    omega

def contains (s pattern : String) : Bool := decide (pattern.toList <:+: s.toList)

def startsWith (s pattern : String) : Bool := pattern.toList.isPrefixOf s.toList

def endsWith (s pattern : String) : Bool := pattern.toList.isSuffixOf s.toList

theorem startsWith_append (s t : String) : startsWith (s ++ t) s = true := by
  rw [startsWith, String.toList_append]
  exact List.isPrefixOf_iff_prefix.mpr (List.prefix_append _ _)

def split (s : String) (separator : Char) : List String :=
  (s.toList.splitOn separator).map String.ofList

def trimEndMatches (s : String) (c : Char) : String := String.ofList (s.toList.rdropWhile (· == c))

theorem trimEndMatches_append_self (s : String) (c : Char) :
    trimEndMatches (s ++ String.singleton c) c = trimEndMatches s c := by
  rw [trimEndMatches, trimEndMatches, String.toList_append, String.toList_singleton]
  exact congrArg _ (List.rdropWhile_concat_pos _ _ _ (beq_self_eq_true c))

def replaceChar (s : String) (c : Char) (replacement : String) : String :=
  String.ofList (s.toList.flatMap fun d => if d = c then replacement.toList else [d])

/-- Every occurrence of a pattern at the front is taken away, not only the
first. An empty pattern changes nothing, and any other shortens the text. -/
def trimStart (pattern : List Char) : Nat → List Char → List Char
  | 0, s => s
  | fuel + 1, s =>
    if pattern.isPrefixOf s then trimStart pattern fuel (s.drop pattern.length) else s

def trimStartMatches (s pattern : String) : String :=
  String.ofList (trimStart pattern.toList s.toList.length s.toList)

def stripCarriageReturn (line : List Char) : List Char :=
  if line.getLast? = some '\r' then line.dropLast else line

/-- The lines of a text. A line ends in a line feed, with or without a carriage
return before it, and the end of the last one may be missing. -/
def lines (s : String) : List String :=
  let pieces := s.toList.splitOn '\n'
  let last := (pieces.getLast?.filter fun line => !line.isEmpty).toList
  (pieces.dropLast.map stripCarriageReturn ++ last).map String.ofList

/-- The characters with the Unicode property White_Space. -/
def isWhitespace (c : Char) : Bool :=
  let n := c.toNat
  (9 ≤ n && n ≤ 13) || n == 0x20 || n == 0x85 || n == 0xa0 || n == 0x1680 || (0x2000 ≤ n && n ≤ 0x200a) ||
    n == 0x2028 || n == 0x2029 || n == 0x202f || n == 0x205f || n == 0x3000

def trim (s : String) : String :=
  String.ofList ((s.toList.dropWhile isWhitespace).rdropWhile isWhitespace)

def splitWhitespace (s : String) : List String :=
  ((s.toList.splitOnP isWhitespace).filter (fun token => !token.isEmpty)).map String.ofList

def stripPrefix (s pattern : String) : Option String :=
  if startsWith s pattern then some (String.ofList (s.toList.drop pattern.toList.length)) else none

def splitOnce (s : String) (separator : Char) : Option (String × String) :=
  match s.toList.dropWhile (· != separator) with
  | [] => none
  | _ :: rest => some (String.ofList (s.toList.takeWhile (· != separator)), String.ofList rest)

def hexPadded (width n : Nat) : String := String.ofList (List.leftpad width '0' (Nat.toDigits 16 n))

/-- A decimal number that fits in 32 bits, as the standard parser reads it: a
leading plus sign is accepted, blanks are not. -/
def parseU32 (s : String) : Option Nat :=
  let digits := match s.toList with
    | '+' :: rest => rest
    | chars => chars
  if digits.isEmpty || digits.any (fun c => !c.isDigit) then none
  else
    let n := digits.foldl (fun n c => n * 10 + (c.toNat - 48)) 0
    if n < 2 ^ 32 then some n else none

section Tokens

theorem stripPrefix_append (s t : String) : stripPrefix (s ++ t) s = some t := by
  rw [stripPrefix, if_pos (startsWith_append s t), String.toList_append, List.drop_left, String.ofList_toList]

structure Word (s : String) : Prop where
  nonempty : s ≠ ""
  solid : ∀ c ∈ s.toList, isWhitespace c = false

theorem forall_mem_toList {s : String} {p : Char → Prop} [DecidablePred p]
    (h : s.toList.all (fun c => decide (p c)) = true) : ∀ c ∈ s.toList, p c := fun c hc =>
  of_decide_eq_true (List.all_eq_true.mp h c hc)

-- the characters of the text are tried one by one, not all characters there are
instance Word.decidable (s : String) : Decidable (Word s) :=
  letI : Decidable (∀ c ∈ s.toList, isWhitespace c = false) := List.decidableBAll _ _
  decidable_of_iff (s ≠ "" ∧ ∀ c ∈ s.toList, isWhitespace c = false)
    ⟨fun h => ⟨h.1, h.2⟩, fun h => ⟨h.nonempty, h.solid⟩⟩

theorem mem_of_mem_splitOnP {α : Type} {p : α → Bool} {xs piece : List α} (h : piece ∈ xs.splitOnP p) :
    ∀ a ∈ piece, a ∈ xs ∧ p a = false := by
  induction xs generalizing piece with
  | nil =>
    obtain rfl := List.mem_singleton.mp h
    exact fun a ha => nomatch ha
  | cons x xs ih =>
    intro a ha
    rw [List.splitOnP_cons_eq_if_modifyHead] at h
    by_cases hx : p x = true
    · rw [if_pos hx] at h
      rcases List.mem_cons.mp h with rfl | htail
      · cases ha
      · exact ⟨List.mem_cons_of_mem x (ih htail a ha).1, (ih htail a ha).2⟩
    · rw [if_neg hx] at h
      obtain ⟨first, others, hsplit⟩ := List.exists_cons_of_ne_nil (List.splitOnP_ne_nil p xs)
      rw [hsplit] at h ih
      rcases List.mem_cons.mp h with rfl | htail
      · rcases List.mem_cons.mp ha with rfl | hrest
        · exact ⟨List.mem_cons_self, Bool.eq_false_iff.mpr hx⟩
        · exact ⟨List.mem_cons_of_mem x (ih List.mem_cons_self a hrest).1, (ih List.mem_cons_self a hrest).2⟩
      · have hmem := ih (List.mem_cons_of_mem first htail) a ha
        exact ⟨List.mem_cons_of_mem x hmem.1, hmem.2⟩

theorem exists_mem_splitOnP {α : Type} {p : α → Bool} {xs : List α} {a : α} (ha : a ∈ xs) (hp : p a = false) :
    ∃ piece ∈ xs.splitOnP p, a ∈ piece := by
  induction xs with
  | nil => cases ha
  | cons x xs ih =>
    rw [List.splitOnP_cons_eq_if_modifyHead]
    by_cases hx : p x = true
    · rw [if_pos hx]
      rcases List.mem_cons.mp ha with rfl | htail
      · rw [hx] at hp
        cases hp
      · obtain ⟨piece, hpiece, hmem⟩ := ih htail
        exact ⟨piece, List.mem_cons_of_mem _ hpiece, hmem⟩
    · rw [if_neg hx]
      obtain ⟨first, others, hsplit⟩ := List.exists_cons_of_ne_nil (List.splitOnP_ne_nil p xs)
      rw [hsplit] at ih ⊢
      rcases List.mem_cons.mp ha with rfl | htail
      · exact ⟨_, List.mem_cons_self, List.mem_cons_self⟩
      · obtain ⟨piece, hpiece, hmem⟩ := ih htail
        rcases List.mem_cons.mp hpiece with rfl | hother
        · exact ⟨_, List.mem_cons_self, List.mem_cons_of_mem x hmem⟩
        · exact ⟨piece, List.mem_cons_of_mem _ hother, hmem⟩

theorem mem_of_mem_split {s piece : String} {separator : Char} (h : piece ∈ split s separator) :
    ∀ c ∈ piece.toList, c ∈ s.toList ∧ c ≠ separator := by
  obtain ⟨chars, hchars, rfl⟩ := List.mem_map.mp h
  rw [String.toList_ofList]
  intro c hc
  obtain ⟨hmem, hne⟩ := mem_of_mem_splitOnP hchars c hc
  exact ⟨hmem, by simpa using hne⟩

theorem word_of_mem_splitWhitespace {s token : String} (h : token ∈ splitWhitespace s) :
    Word token ∧ ∀ c ∈ token.toList, c ∈ s.toList := by
  obtain ⟨chars, hchars, rfl⟩ := List.mem_map.mp h
  obtain ⟨hpiece, hne⟩ := List.mem_filter.mp hchars
  have hmem := mem_of_mem_splitOnP hpiece
  rw [String.toList_ofList]
  refine ⟨⟨?_, ?_⟩, fun c hc => (hmem c hc).1⟩
  · intro hempty
    rw [← String.toList_eq_nil_iff, String.toList_ofList] at hempty
    simp [hempty] at hne
  · rw [String.toList_ofList]
    exact fun c hc => (hmem c hc).2

theorem splitWhitespace_blank (s t : String) :
    splitWhitespace (s ++ " " ++ t) = splitWhitespace s ++ splitWhitespace t := by
  have hlist : (s ++ " " ++ t).toList = s.toList ++ ' ' :: t.toList := by simp
  rw [splitWhitespace, hlist, List.splitOnP_append_cons _ _ (by decide), List.filter_append, List.map_append]
  rfl

theorem Word.splitWhitespace_eq {s : String} (h : Word s) : splitWhitespace s = [s] := by
  have hne : s.toList ≠ [] := fun hnil => h.nonempty (String.toList_eq_nil_iff.mp hnil)
  rw [splitWhitespace, List.splitOnP_eq_singleton h.solid]
  simp [hne]

theorem splitWhitespace_empty : splitWhitespace "" = [] := by decide

theorem split_intercalate {pieces : List String} {separator : Char} (hne : pieces ≠ [])
    (h : ∀ piece ∈ pieces, separator ∉ piece.toList) :
    split (String.intercalate (String.singleton separator) pieces) separator = pieces := by
  have hpieces : ∀ chars ∈ pieces.map String.toList, separator ∉ chars := by
    intro chars hchars
    obtain ⟨piece, hpiece, rfl⟩ := List.mem_map.mp hchars
    exact h piece hpiece
  rw [split, String.toList_intercalate, String.toList_singleton,
    List.splitOn_intercalate separator hpieces (by simpa using hne), List.map_map]
  simp

theorem split_intercalate_flatMap {texts : List String} {separator : Char} (hne : texts ≠ []) :
    split (String.intercalate (String.singleton separator) texts) separator =
      texts.flatMap fun s => split s separator := by
  induction texts with
  | nil => exact absurd rfl hne
  | cons s texts ih =>
    cases texts with
    | nil => rw [String.intercalate_singleton, List.flatMap_singleton]
    | cons t texts =>
      have hlist : (String.intercalate (String.singleton separator) (s :: t :: texts)).toList =
          s.toList ++ separator :: (String.intercalate (String.singleton separator) (t :: texts)).toList := by
        rw [String.intercalate_cons_cons]
        simp
      have hsplit := List.splitOnP_append_cons (p := (· == separator)) s.toList
        (String.intercalate (String.singleton separator) (t :: texts)).toList (beq_self_eq_true separator)
      rw [List.flatMap_cons, ← ih (List.cons_ne_nil _ _), split, hlist, List.splitOn_eq_splitOnP, hsplit,
        List.map_append]
      rfl

theorem eq_of_split {s first last : String} {separator : Char} (h : split s separator = [first, last]) :
    s = first ++ String.singleton separator ++ last := by
  have hpieces : s.toList.splitOn separator = [first.toList, last.toList] := by
    have hmap := congrArg (List.map String.toList) h
    rw [split, List.map_map] at hmap
    simpa [Function.comp_def] using hmap
  have hjoin : List.intercalate [separator] (s.toList.splitOn separator) = s.toList :=
    List.intercalate_splitOn separator
  rw [hpieces] at hjoin
  rw [← String.toList_inj, ← hjoin]
  simp

theorem split_eq_singleton {s : String} {separator : Char} (h : separator ∉ s.toList) : split s separator = [s] := by
  have hsplit := split_intercalate (List.cons_ne_nil s []) (List.forall_mem_singleton.mpr h)
  rwa [String.intercalate_singleton] at hsplit

theorem splitWhitespace_trim (s : String) : splitWhitespace (trim s) = splitWhitespace s := by
  have hfront : ∀ chars : List Char, ((chars.dropWhile isWhitespace).splitOnP isWhitespace).filter
      (fun token => !token.isEmpty) = (chars.splitOnP isWhitespace).filter fun token => !token.isEmpty := by
    intro chars
    induction chars with
    | nil => rfl
    | cons c chars ih =>
      by_cases hc : isWhitespace c = true
      · rw [List.dropWhile_cons_of_pos hc, ih, List.splitOnP_cons_eq_if_modifyHead, if_pos hc]
        rfl
      · rw [List.dropWhile_cons_of_neg hc]
  have hback : ∀ chars : List Char, ((chars.rdropWhile isWhitespace).splitOnP isWhitespace).filter
      (fun token => !token.isEmpty) = (chars.splitOnP isWhitespace).filter fun token => !token.isEmpty := by
    intro chars
    induction chars using List.reverseRecOn with
    | nil => rfl
    | append_singleton chars c ih =>
      by_cases hc : isWhitespace c = true
      · rw [List.rdropWhile_concat_pos _ _ _ hc, ih, List.splitOnP_append_cons _ _ hc, List.filter_append]
        exact (List.append_nil _).symm
      · rw [List.rdropWhile_concat_neg _ _ _ hc]
  rw [splitWhitespace, trim, String.toList_ofList, hback, hfront]
  rfl

theorem trim_trim (s : String) : trim (trim s) = trim s := by
  have hstart : ((s.toList.dropWhile isWhitespace).rdropWhile isWhitespace).dropWhile isWhitespace =
      (s.toList.dropWhile isWhitespace).rdropWhile isWhitespace := by
    obtain ⟨dropped, hsplit⟩ := List.rdropWhile_prefix isWhitespace (l := s.toList.dropWhile isWhitespace)
    cases hrest : (s.toList.dropWhile isWhitespace).rdropWhile isWhitespace with
    | nil => rfl
    | cons c chars =>
      rw [hrest] at hsplit
      have hc : ¬ isWhitespace c = true := by
        have hhead := List.dropWhile_eq_self_iff.mp (List.dropWhile_idempotent isWhitespace s.toList)
        simpa [← hsplit] using hhead
      rw [List.dropWhile_cons_of_neg hc]
  rw [trim, trim, String.toList_ofList, hstart, List.rdropWhile_idempotent]

end Tokens

section Counting

theorem sum_count_splitOnP_le {α : Type} [DecidableEq α] (p : α → Bool) (xs : List α) (a : α) :
    ((xs.splitOnP p).map (List.count a)).sum ≤ xs.count a := by
  induction xs with
  | nil => exact Nat.le_refl 0
  | cons x xs ih =>
    rw [List.splitOnP_cons_eq_if_modifyHead]
    by_cases hx : p x = true
    · rw [if_pos hx, List.map_cons, List.sum_cons, List.count_nil, Nat.zero_add]
      exact ih.trans (List.count_le_count_cons)
    · rw [if_neg hx]
      obtain ⟨first, others, hsplit⟩ := List.exists_cons_of_ne_nil (List.splitOnP_ne_nil p xs)
      rw [hsplit, List.map_cons, List.sum_cons] at ih
      rw [hsplit, List.modifyHead_cons, List.map_cons, List.sum_cons, List.count_cons, List.count_cons]
      omega

theorem sum_count_split_le (s : String) (separator c : Char) :
    ((split s separator).map fun piece => piece.toList.count c).sum ≤ s.toList.count c := by
  have h := sum_count_splitOnP_le (· == separator) s.toList c
  rw [split, List.map_map]
  simpa [Function.comp_def, List.splitOn_eq_splitOnP] using h

theorem sum_count_filter_le {α : Type} (f : α → Nat) (p : α → Bool) (xs : List α) :
    ((xs.filter p).map f).sum ≤ (xs.map f).sum :=
  (List.Sublist.map f List.filter_sublist).sum_le_sum fun _ _ => Nat.zero_le _

theorem sum_count_splitWhitespace_le (s : String) (c : Char) :
    ((splitWhitespace s).map fun token => token.toList.count c).sum ≤ s.toList.count c := by
  have h := (sum_count_filter_le (List.count c) (fun token => !token.isEmpty) _).trans
    (sum_count_splitOnP_le isWhitespace s.toList c)
  rw [splitWhitespace, List.map_map]
  simpa [Function.comp_def] using h

theorem count_trim_le (s : String) (c : Char) : (trim s).toList.count c ≤ s.toList.count c := by
  rw [trim, String.toList_ofList]
  exact ((List.rdropWhile_prefix _ _).sublist.trans (List.dropWhile_sublist _)).count_le c

end Counting

section Numbers

theorem toList_toString (n : UInt32) : (toString n).toList = Nat.toDigits 10 n.toNat := by
  have h : toString n = toString n.toNat := rfl
  rw [h, Nat.toString_eq_ofList_toDigits, String.toList_ofList]

theorem isDigit_of_mem_toString {n : UInt32} {c : Char} (h : c ∈ (toString n).toList) : c.isDigit = true := by
  rw [toList_toString] at h
  exact Nat.isDigit_of_mem_toDigits (by decide) (by decide) h

theorem foldl_toDigits (n : Nat) : (Nat.toDigits 10 n).foldl (fun n c => n * 10 + (c.toNat - 48)) 0 = n := by
  have h := Nat.ofDigitChars_ten_toDigits (n := n)
  rw [Nat.ofDigitChars_eq_foldl] at h
  simp only [Nat.mul_comm 10] at h
  exact h

theorem parseU32_toString (n : UInt32) : parseU32 (toString n) = some n.toNat := by
  have htext := toList_toString n
  have hdigit : ∀ c ∈ Nat.toDigits 10 n.toNat, c.isDigit = true :=
    fun c hc => Nat.isDigit_of_mem_toDigits (by decide) (by decide) hc
  have hvalue := foldl_toDigits n.toNat
  obtain ⟨c, digits, hcons⟩ := List.exists_cons_of_ne_nil (Nat.toDigits_ne_nil (n := n.toNat) (b := 10))
  have hplus : c ≠ '+' := by
    rintro rfl
    have h := hdigit '+' (by rw [hcons]; exact List.mem_cons_self)
    cases h
  have hall : (c :: digits).any (fun c => !c.isDigit) = false := by
    rw [← hcons, List.any_eq_false]
    simpa using hdigit
  rw [hcons] at htext hvalue
  have hsmall := n.toNat_lt
  rw [parseU32, htext]
  split
  · rename_i heq
    exact absurd (List.cons.inj heq).1 hplus
  · rw [List.isEmpty_cons, hall, hvalue]
    exact if_pos hsmall

end Numbers

def Small (chars : List Char) : Prop := ∀ c ∈ chars, c.toNat < 128 ∧ c.isUpper = false

instance (chars : List Char) : Decidable (Small chars) := List.decidableBAll _ _

/-- Lower-casing leaves alone what is ASCII and has no capitals. -/
def Lowercases (toLowercase : String → String) : Prop :=
  ∀ s : String, Small s.toList → toLowercase s = s

/-- Lower-casing what is ASCII changes the capitals only. -/
def LowersAscii (toLowercase : String → String) : Prop :=
  ∀ s : String, (∀ c ∈ s.toList, c.toNat < 128) → toLowercase s = String.ofList (s.toList.map Char.toLower)

/-- Upper-casing goes character by character. It gives at least one for each,
and leaves alone what is ASCII and no small letter. -/
structure Uppercases (toUppercase : String → String) (upper : Char → List Char) : Prop where
  toList_eq : ∀ s, (toUppercase s).toList = s.toList.flatMap upper
  ne_nil : ∀ c, upper c ≠ []
  fixed : ∀ c, c.toNat < 128 → c.isLower = false → upper c = [c]

section Uppercases

variable {toUppercase : String → String} {upper : Char → List Char}

def Capital (chars : List Char) : Prop := ∀ c ∈ chars, c.toNat < 128 ∧ c.isLower = false

instance (chars : List Char) : Decidable (Capital chars) := List.decidableBAll _ _

theorem uppercases_id : Uppercases id (fun c => [c]) :=
  ⟨fun _ => (List.flatMap_singleton' _).symm, fun _ => List.cons_ne_nil _ _, fun _ _ _ => rfl⟩

variable (h : Uppercases toUppercase upper)

include h

theorem Uppercases.flatMap_eq {chars : List Char} (hchars : Capital chars) : chars.flatMap upper = chars := by
  induction chars with
  | nil => rfl
  | cons c rest ih =>
    rw [List.flatMap_cons, h.fixed c (hchars c List.mem_cons_self).1 (hchars c List.mem_cons_self).2,
      ih fun d hd => hchars d (List.mem_cons_of_mem c hd)]
    rfl

theorem Uppercases.eq_self {s : String} (hs : Capital s.toList) : toUppercase s = s := by
  rw [← String.toList_inj, h.toList_eq, h.flatMap_eq hs]

theorem Uppercases.contains {s pattern : String} (hpattern : Capital pattern.toList)
    (hs : contains s pattern = true) : contains (toUppercase s) pattern = true := by
  obtain ⟨before, after, heq⟩ := of_decide_eq_true hs
  apply decide_eq_true
  rw [h.toList_eq, ← heq, List.flatMap_append, List.flatMap_append, h.flatMap_eq hpattern]
  exact ⟨_, _, rfl⟩

theorem Uppercases.length_le (s : String) : s.toList.length ≤ (toUppercase s).toList.length := by
  rw [h.toList_eq]
  generalize s.toList = chars
  induction chars with
  | nil => exact Nat.le_refl 0
  | cons c rest ih =>
    have hpos : 0 < (upper c).length := List.length_pos_iff.mpr (h.ne_nil c)
    rw [List.flatMap_cons, List.length_append, List.length_cons]
    omega

end Uppercases

end Lib.Text
