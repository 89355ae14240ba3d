import CoreVpn.Lib.Lines

namespace Lib.Rows

open Lib.Text Lib.Lines

variable {s : String} {c : Char} {chars : List Char}

/-- The lines of a text without the blanks around them and without the lines
that have nothing else. -/
def rows (s : String) : List String := ((split s '\n').map trim).filter fun line => !line.isEmpty

theorem trim_of_mem_rows {row : String} (h : row ∈ rows s) : trim row = row := by
  obtain ⟨line, -, rfl⟩ := List.mem_map.mp (List.mem_filter.mp h).1
  exact trim_trim line

theorem rows_eq_lines (s : String) : rows s = ((lines s).map trim).filter fun line => !line.isEmpty := by
  have hfold : ∀ (l front : List String),
      l.foldl (fun front line => if (trim line).isEmpty then front else front ++ [trim line]) front =
        front ++ (l.map trim).filter fun line => !line.isEmpty := by
    intro l
    induction l with
    | nil => exact fun front => (List.append_nil front).symm
    | cons line l ih =>
      intro front
      rw [List.foldl_cons, ih, List.map_cons]
      cases hempty : (trim line).isEmpty with
      | true => simp [hempty]
      | false => simp [hempty]
  have hlines := foldl_lines (f := fun front line => if (trim line).isEmpty then front else front ++ [trim line])
    (fun front line => by simp only [trim_trim]) (fun front => rfl) s []
  rw [hfold, hfold] at hlines
  exact hlines.symm

section Blanks

theorem trim_cons_blank (hc : isWhitespace c = true) (chars : List Char) :
    trim (String.ofList (c :: chars)) = trim (String.ofList chars) := by
  have happend : String.ofList (c :: chars) = String.singleton c ++ String.ofList chars :=
    String.toList_injective (by simp)
  rw [happend, trim_blank_append hc]

theorem trim_concat_blank (hc : isWhitespace c = true) (chars : List Char) :
    trim (String.ofList (chars ++ [c])) = trim (String.ofList chars) := by
  have happend : String.ofList (chars ++ [c]) = String.ofList chars ++ String.singleton c :=
    String.toList_injective (by simp)
  rw [happend, trim_append_blank hc]

theorem rows_ofList (chars : List Char) : rows (String.ofList chars) =
    ((chars.splitOn '\n').map fun piece => trim (String.ofList piece)).filter fun line => !line.isEmpty := by
  rw [rows, split, String.toList_ofList, List.map_map]
  rfl

theorem rows_cons_blank (hc : isWhitespace c = true) (chars : List Char) :
    rows (String.ofList (c :: chars)) = rows (String.ofList chars) := by
  rw [rows_ofList, rows_ofList, List.splitOn_cons_eq_if_modifyHead]
  split
  · rfl
  · obtain ⟨first, others, hsplit⟩ := List.exists_cons_of_ne_nil (List.splitOn_ne_nil '\n' chars)
    rw [hsplit, List.modifyHead_cons, List.map_cons, List.map_cons, trim_cons_blank hc]

theorem rows_concat_blank (hc : isWhitespace c = true) (chars : List Char) :
    rows (String.ofList (chars ++ [c])) = rows (String.ofList chars) := by
  rw [rows_ofList, rows_ofList]
  by_cases hnewline : c = '\n'
  · rw [hnewline, List.splitOn_append_cons_self, List.splitOn_nil, List.map_append, List.filter_append]
    exact List.append_nil _
  · have hne := List.splitOn_ne_nil '\n' chars
    rw [splitOn_concat hnewline, List.map_append, List.map_singleton, trim_concat_blank hc]
    nth_rewrite 3 [← List.dropLast_concat_getLast hne]
    rw [List.map_append, List.map_singleton]

theorem rows_trim (s : String) : rows (trim s) = rows s := by
  have hback : ∀ chars : List Char, rows (String.ofList (chars.rdropWhile isWhitespace)) = rows (String.ofList chars) := by
    intro chars
    induction chars using List.reverseRecOn with
    | nil => rfl
    | append_singleton chars c ih =>
      by_cases hc : isWhitespace c = true
      · rw [List.rdropWhile_concat_pos _ _ _ hc, rows_concat_blank hc, ih]
      · rw [List.rdropWhile_concat_neg _ _ _ hc]
  have hfront : ∀ chars : List Char, rows (String.ofList (chars.dropWhile isWhitespace)) = rows (String.ofList chars) := by
    intro chars
    induction chars with
    | nil => rfl
    | cons c chars ih =>
      by_cases hc : isWhitespace c = true
      · rw [List.dropWhile_cons_of_pos hc, rows_cons_blank hc, ih]
      · rw [List.dropWhile_cons_of_neg hc]
  rw [trim, hback, hfront, String.ofList_toList]

end Blanks

section LineEnds

def Ends (line ended : List Char) : Prop := ended = line ∨ ended = line ++ ['\r']

theorem trim_of_ends_with {line ended : List Char} (h : Ends line ended) :
    trim (String.ofList ended) = trim (String.ofList line) := by
  rcases h with rfl | rfl
  · rfl
  · exact trim_concat_blank (by decide) line

theorem splitOn_withReturns (chars : List Char) :
    List.Forall₂ Ends (chars.splitOn '\n')
      ((chars.flatMap fun d => if d = '\n' then "\r\n".toList else [d]).splitOn '\n') := by
  induction chars with
  | nil => exact .cons (.inl rfl) .nil
  | cons c chars ih =>
    rw [List.flatMap_cons, List.splitOn_cons_eq_if_modifyHead]
    by_cases hc : c = '\n'
    · have hreturn : ("\r\n".toList ++ chars.flatMap fun d => if d = '\n' then "\r\n".toList else [d]) =
          ['\r'] ++ '\n' :: chars.flatMap fun d => if d = '\n' then "\r\n".toList else [d] := rfl
      rw [if_pos (beq_iff_eq.mpr hc), if_pos hc, hreturn, List.splitOn_append_cons_self]
      exact .cons (.inr rfl) ih
    · rw [if_neg (by simpa using hc), if_neg hc, List.singleton_append, List.splitOn_cons_eq_if_modifyHead,
        if_neg (by simpa using hc)]
      revert ih
      generalize chars.splitOn '\n' = pieces
      generalize (chars.flatMap fun d => if d = '\n' then "\r\n".toList else [d]).splitOn '\n' = ended
      intro ih
      cases ih with
      | nil => exact .nil
      | cons hfirst hrest =>
        refine .cons ?_ hrest
        rcases hfirst with rfl | rfl
        · exact .inl rfl
        · exact .inr rfl

theorem rows_replaceChar (s : String) : rows (replaceChar s '\n' "\r\n") = rows s := by
  have htrim : (s.toList.splitOn '\n').map (fun piece => trim (String.ofList piece)) =
      ((s.toList.flatMap fun d => if d = '\n' then "\r\n".toList else [d]).splitOn '\n').map
        fun piece => trim (String.ofList piece) := by
    have hends := splitOn_withReturns s.toList
    generalize s.toList.splitOn '\n' = pieces at hends
    generalize (s.toList.flatMap fun d => if d = '\n' then "\r\n".toList else [d]).splitOn '\n' = ended at hends
    induction hends with
    | nil => rfl
    | cons hfirst hrest ih => rw [List.map_cons, List.map_cons, ih, trim_of_ends_with hfirst]
  rw [replaceChar, rows_ofList, ← htrim, ← rows_ofList, String.ofList_toList]

end LineEnds

end Lib.Rows
