import CoreVpn.Lib.Search
import CoreVpn.Lib.Text

namespace Lib.Lines

open Lib.Text

variable {s t line : String} {c : Char}

def find (s pattern : String) : Option Nat := Search.find pattern.toList s.toList

def rfind (s pattern : String) : Option Nat := Search.rfind pattern.toList s.toList

/-- A pattern that is not empty stands in a text no more often than the text is long. -/
def replace (s pattern replacement : String) : String :=
  String.ofList (Search.replaceUpTo pattern.toList replacement.toList s.toList.length s.toList)

def slice (s : String) (start stop : Nat) : String := String.ofList ((s.toList.take stop).drop start)

theorem intercalate_append_separator {separator : String} {texts : List String} (h : texts ≠ []) :
    String.intercalate separator texts ++ separator = String.join (texts.map (· ++ separator)) := by
  induction texts with
  | nil => exact absurd rfl h
  | cons s texts ih =>
    cases texts with
    | nil => rw [String.intercalate_singleton, List.map_singleton, String.join_cons, String.join_nil, String.append_empty]
    | cons t texts =>
      rw [String.intercalate_cons_cons, List.map_cons, String.join_cons, ← ih (List.cons_ne_nil _ _)]
      simp only [String.append_assoc]

section Trimming

theorem trim_blank_append (hc : isWhitespace c = true) (s : String) : trim (String.singleton c ++ s) = trim s := by
  have hlist : (String.singleton c ++ s).toList = c :: s.toList := by simp
  rw [trim, hlist, List.dropWhile_cons_of_pos hc]
  rfl

theorem trim_append_blank (hc : isWhitespace c = true) (s : String) : trim (s ++ String.singleton c) = trim s := by
  have hlist : (s ++ String.singleton c).toList = s.toList ++ [c] := by simp
  rw [trim, trim, hlist, List.dropWhile_append]
  split
  · rename_i hempty
    rw [List.dropWhile_cons_of_pos hc, List.isEmpty_iff.mp hempty]
    rfl
  · rw [List.rdropWhile_concat_pos _ _ _ hc]

theorem newline_eq : "\n" = String.singleton '\n' := by decide

theorem trim_newline_append (s : String) : trim ("\n" ++ s) = trim s := by
  rw [newline_eq, trim_blank_append (by decide)]

theorem trim_append_newline (s : String) : trim (s ++ "\n") = trim s := by
  rw [newline_eq, trim_append_blank (by decide)]

theorem trim_stripCarriageReturn (chars : List Char) :
    trim (String.ofList (stripCarriageReturn chars)) = trim (String.ofList chars) := by
  rw [stripCarriageReturn]
  split
  · rename_i hlast
    obtain ⟨front, rfl⟩ := List.getLast?_eq_some_iff.mp hlast
    have hconcat : String.ofList (front ++ ['\r']) = String.ofList front ++ String.singleton '\r' := by
      rw [← String.toList_inj]
      simp
    rw [List.dropLast_concat, hconcat, trim_append_blank (by decide)]
  · rfl

theorem trim_of_ends (hfirst : ∀ c ∈ s.toList.head?, isWhitespace c = false)
    (hlast : ∀ c ∈ s.toList.getLast?, isWhitespace c = false) : trim s = s := by
  have hfront : s.toList.dropWhile isWhitespace = s.toList := by
    rw [List.dropWhile_eq_self_iff]
    intro hpos hblank
    rw [hfirst _ (List.head?_eq_getElem? ▸ List.getElem?_eq_getElem hpos)] at hblank
    cases hblank
  have hback : s.toList.rdropWhile isWhitespace = s.toList := by
    rw [List.rdropWhile_eq_self_iff]
    intro hne hblank
    rw [hlast _ (List.getLast?_eq_some_getLast hne)] at hblank
    cases hblank
  rw [trim, hfront, hback, String.ofList_toList]

theorem trim_word (h : Word s) : trim s = s :=
  trim_of_ends (fun c hc => h.solid c (List.mem_of_mem_head? hc)) fun c hc => h.solid c (List.mem_of_mem_getLast? hc)

theorem trim_cons {first : Char} {rest : List Char} (hfirst : isWhitespace first = false) :
    ∃ back, trim (String.ofList (first :: rest)) = String.ofList (first :: back) := by
  have hsolid : ¬ isWhitespace first = true := by simp [hfirst]
  rw [trim, String.toList_ofList, List.dropWhile_cons_of_neg hsolid]
  obtain ⟨dropped, hdropped⟩ := List.rdropWhile_prefix isWhitespace (l := first :: rest)
  cases hrest : (first :: rest).rdropWhile isWhitespace with
  | nil => exact absurd (List.rdropWhile_eq_nil_iff.mp hrest first List.mem_cons_self) hsolid
  | cons a back =>
    rw [hrest, List.cons_append] at hdropped
    exact ⟨back, by rw [(List.cons.inj hdropped).1]⟩

theorem mem_trim (h : c ∈ s.toList) (hc : isWhitespace c = false) : c ∈ (trim s).toList := by
  have hfront : c ∈ s.toList.dropWhile isWhitespace := by
    rw [← List.takeWhile_append_dropWhile (p := isWhitespace) (l := s.toList), List.mem_append] at h
    rcases h with hblank | hrest
    · rw [List.mem_takeWhile_imp hblank] at hc
      cases hc
    · exact hrest
  rw [trim, String.toList_ofList]
  rw [← List.rdropWhile_append_rtakeWhile (p := isWhitespace) (l := s.toList.dropWhile isWhitespace),
    List.mem_append] at hfront
  rcases hfront with hmem | hblank
  · exact hmem
  · rw [List.mem_rtakeWhile_imp hblank] at hc
    cases hc

end Trimming

section Splitting

variable {β : Type}

theorem split_ne_nil (s : String) (separator : Char) : split s separator ≠ [] := by
  rw [split, ne_eq, List.map_eq_nil_iff]
  exact List.splitOn_ne_nil _ _

theorem split_append_of_notMem {separator : Char} (h : separator ∉ s.toList) (t : String) :
    split (s ++ t) separator = (split t separator).modifyHead (s ++ ·) := by
  have hchars : ∀ front : List Char, separator ∉ front →
      (front ++ t.toList).splitOn separator = (t.toList.splitOn separator).modifyHead (front ++ ·) := by
    intro front hfront
    induction front with
    | nil => exact (congrFun List.modifyHead_id _).symm
    | cons a front ih =>
      rw [List.mem_cons, not_or] at hfront
      have ha : ¬ (a == separator) = true := by simpa using Ne.symm hfront.1
      rw [List.cons_append, List.splitOn_cons_eq_if_modifyHead, if_neg ha, ih hfront.2, List.modifyHead_modifyHead]
      rfl
  obtain ⟨first, others, hsplit⟩ := List.exists_cons_of_ne_nil (List.splitOn_ne_nil separator t.toList)
  rw [split, split, String.toList_append, hchars _ h, hsplit, List.modifyHead_cons, List.map_cons, List.map_cons,
    List.modifyHead_cons]
  simp

theorem foldl_lines {f : β → String → β} (htrim : ∀ b line, f b (trim line) = f b line) (hblank : ∀ b, f b "" = b)
    (s : String) (b : β) : (lines s).foldl f b = (split s '\n').foldl f b := by
  have hstrip : ∀ (pieces : List (List Char)) (b : β),
      ((pieces.map stripCarriageReturn).map String.ofList).foldl f b = (pieces.map String.ofList).foldl f b := by
    intro pieces
    induction pieces with
    | nil => exact fun b => rfl
    | cons piece pieces ih =>
      intro b
      have hpiece : f b (String.ofList (stripCarriageReturn piece)) = f b (String.ofList piece) := by
        rw [← htrim, trim_stripCarriageReturn, htrim]
      simp only [List.map_cons, List.foldl_cons, hpiece, ih]
  have hne := List.splitOn_ne_nil '\n' s.toList
  have hpieces := List.dropLast_concat_getLast hne
  rw [lines, split, List.getLast?_eq_some_getLast hne]
  rw [List.map_append, List.foldl_append, hstrip]
  nth_rewrite 3 [← hpieces]
  rw [List.map_append, List.foldl_append]
  cases hlast : (s.toList.splitOn '\n').getLast hne with
  | nil => exact (hblank _).symm
  | cons a rest => rfl

theorem splitOn_concat {a separator : Char} (h : a ≠ separator) (chars : List Char) :
    (chars ++ [a]).splitOn separator =
      (chars.splitOn separator).dropLast ++ [(chars.splitOn separator).getLast (List.splitOn_ne_nil _ _) ++ [a]] := by
  induction chars with
  | nil => simp [List.splitOn_cons_eq_if_modifyHead, h]
  | cons b chars ih =>
    have hchars := List.splitOn_ne_nil separator chars
    simp only [List.cons_append, List.splitOn_cons_eq_if_modifyHead, ih]
    by_cases hb : (b == separator) = true
    · simp [hb, List.dropLast_cons_of_ne_nil hchars, List.getLast_cons hchars]
    · obtain ⟨first, others, hcons⟩ := List.exists_cons_of_ne_nil hchars
      cases others <;> simp [hb, hcons]

theorem mem_splitOn_of_concat {a separator : Char} {chars piece : List Char}
    (h : piece ∈ (chars ++ [a]).splitOn separator) (hne : piece ≠ []) (ha : a ∉ piece) :
    piece ∈ chars.splitOn separator := by
  by_cases hseparator : a = separator
  · rw [hseparator, List.splitOn_append_cons_self, List.splitOn_nil, List.mem_append, List.mem_singleton] at h
    exact h.resolve_right hne
  · rw [splitOn_concat hseparator, List.mem_append, List.mem_singleton] at h
    rcases h with hfront | rfl
    · exact List.mem_of_mem_dropLast hfront
    · exact absurd (by simp) ha

theorem mem_split_trim (h : line ∈ split s '\n') (hword : Word line) : line ∈ split (trim s) '\n' := by
  obtain ⟨piece, hpiece, rfl⟩ := List.mem_map.mp h
  have hsolid := hword.solid
  rw [String.toList_ofList] at hsolid
  have hne : piece ≠ [] := by
    rintro rfl
    exact hword.nonempty rfl
  have hfront : ∀ chars : List Char, piece ∈ chars.splitOn '\n' →
      piece ∈ (chars.dropWhile isWhitespace).splitOn '\n' := by
    intro chars
    induction chars with
    | nil => exact id
    | cons a chars ih =>
      intro hmem
      by_cases ha : isWhitespace a = true
      · rw [List.dropWhile_cons_of_pos ha]
        rw [List.splitOn_cons_eq_if_modifyHead] at hmem
        split at hmem
        · exact ih ((List.mem_cons.mp hmem).resolve_left hne)
        · obtain ⟨first, others, hcons⟩ := List.exists_cons_of_ne_nil (List.splitOn_ne_nil '\n' chars)
          rw [hcons, List.modifyHead_cons, List.mem_cons] at hmem
          rcases hmem with rfl | hother
          · rw [hsolid a List.mem_cons_self] at ha
            cases ha
          · exact ih (hcons ▸ List.mem_cons_of_mem first hother)
      · rwa [List.dropWhile_cons_of_neg ha]
  have hback : ∀ chars : List Char, piece ∈ chars.splitOn '\n' →
      piece ∈ (chars.rdropWhile isWhitespace).splitOn '\n' := by
    intro chars
    induction chars using List.reverseRecOn with
    | nil => exact id
    | append_singleton chars a ih =>
      intro hmem
      by_cases ha : isWhitespace a = true
      · rw [List.rdropWhile_concat_pos _ _ _ ha]
        refine ih (mem_splitOn_of_concat hmem hne fun hin => ?_)
        rw [hsolid a hin] at ha
        cases ha
      · rwa [List.rdropWhile_concat_neg _ _ _ ha]
  rw [trim, split, String.toList_ofList]
  exact List.mem_map_of_mem (hback _ (hfront _ hpiece))

end Splitting

section Names

theorem replace_of_not_contains {pattern : String} (h : contains s pattern = false) (replacement : String) :
    replace s pattern replacement = s := by
  rw [replace, Search.replaceUpTo_of_not_infix (of_decide_eq_false h), String.ofList_toList]

theorem toString_injective : Function.Injective (toString : Nat → String) := by
  intro m n h
  rw [Nat.toString_eq_ofList_toDigits, Nat.toString_eq_ofList_toDigits] at h
  have hdigits : Nat.toDigits 10 m = Nat.toDigits 10 n := String.ofList_injective h
  rw [← foldl_toDigits m, hdigits, foldl_toDigits]

end Names

end Lib.Lines
