import Mathlib.Data.List.Infix

namespace Lib.Search

variable {α : Type} [DecidableEq α] {pattern text rest body opening closing : List α} {c : α} {i : Nat}

def find (pattern : List α) : List α → Option Nat
  | [] => if pattern.isEmpty then some 0 else none
  | a :: text => if pattern.isPrefixOf (a :: text) then some 0 else (find pattern text).map (· + 1)

def rfind (pattern : List α) : List α → Option Nat
  | [] => if pattern.isEmpty then some 0 else none
  | a :: text =>
    match rfind pattern text with
    | some i => some (i + 1)
    | none => if pattern.isPrefixOf (a :: text) then some 0 else none

/-- What stands between the first place of one mark and the first place of
another, if they stand in this order. -/
def block (opening closing text : List α) : Option (List α) := do
  let start ← find opening text
  let stop ← find closing text
  if start ≥ stop then none else some ((text.take stop).drop (start + opening.length))

/-- Put something else in the place of a pattern, wherever it stands, from the
front to the back. The number bounds the replacements. -/
def replaceUpTo (pattern replacement : List α) : Nat → List α → List α
  | 0, text => text
  | fuel + 1, text =>
    match find pattern text with
    | some i => text.take i ++ replacement ++ replaceUpTo pattern replacement fuel (text.drop (i + pattern.length))
    | none => text

section Finding

theorem find_eq_none_iff : find pattern text = none ↔ ¬ pattern <:+: text := by
  induction text with
  | nil => simp [find]
  | cons a text ih =>
    rw [find, List.infix_cons_iff, ← List.isPrefixOf_iff_prefix]
    by_cases hpre : pattern.isPrefixOf (a :: text) = true
    · simp [hpre]
    · rw [if_neg hpre, Option.map_eq_none_iff, ih]
      simp [hpre]

theorem find_of_infix (h : pattern <:+: text) : ∃ i, find pattern text = some i :=
  Option.ne_none_iff_exists'.mp fun hnone => find_eq_none_iff.mp hnone h

theorem find_add_le (h : find pattern text = some i) : i + pattern.length ≤ text.length := by
  induction text generalizing i with
  | nil =>
    by_cases hempty : pattern = []
    · simp [find, hempty] at h
      simp [hempty, ← h]
    · simp [find, hempty] at h
  | cons a text ih =>
    rw [find] at h
    by_cases hpre : pattern.isPrefixOf (a :: text) = true
    · rw [if_pos hpre] at h
      obtain rfl := Option.some.inj h
      rw [Nat.zero_add]
      exact (List.isPrefixOf_iff_prefix.mp hpre).length_le
    · rw [if_neg hpre] at h
      obtain ⟨j, hj, rfl⟩ := Option.map_eq_some_iff.mp h
      have hle := ih hj
      rw [List.length_cons]
      omega

theorem prefix_drop_of_find (h : find pattern text = some i) : pattern <+: text.drop i := by
  induction text generalizing i with
  | nil =>
    by_cases hempty : pattern = []
    · exact hempty ▸ List.nil_prefix
    · simp [find, hempty] at h
  | cons a text ih =>
    rw [find] at h
    by_cases hpre : pattern.isPrefixOf (a :: text) = true
    · rw [if_pos hpre] at h
      obtain rfl := Option.some.inj h
      exact List.isPrefixOf_iff_prefix.mp hpre
    · rw [if_neg hpre] at h
      obtain ⟨j, hj, rfl⟩ := Option.map_eq_some_iff.mp h
      exact ih hj

theorem find_of_prefix (h : pattern <+: text) : find pattern text = some 0 := by
  cases text with
  | nil => simp [find, List.prefix_nil.mp h]
  | cons a text => rw [find, if_pos (List.isPrefixOf_iff_prefix.mpr h)]

theorem find_append (h : find pattern text = some i) (rest : List α) : find pattern (text ++ rest) = some i := by
  induction text generalizing i with
  | nil =>
    by_cases hempty : pattern = []
    · rw [← h, hempty, find_of_prefix List.nil_prefix]
      rfl
    · simp [find, hempty] at h
  | cons a text ih =>
    have hle := find_add_le h
    rw [find] at h
    rw [List.cons_append, find]
    by_cases hpre : pattern.isPrefixOf (a :: text) = true
    · have hlong := (List.isPrefixOf_iff_prefix.mp hpre).trans (List.prefix_append (a :: text) rest)
      rw [List.cons_append, ← List.isPrefixOf_iff_prefix] at hlong
      rw [if_pos hpre] at h
      rw [if_pos hlong, h]
    · rw [if_neg hpre] at h
      obtain ⟨j, hj, rfl⟩ := Option.map_eq_some_iff.mp h
      have hshort : ¬ pattern.isPrefixOf (a :: (text ++ rest)) = true := by
        intro hlong
        refine hpre (List.isPrefixOf_iff_prefix.mpr ?_)
        exact List.prefix_of_prefix_length_le (List.isPrefixOf_iff_prefix.mp hlong)
          (List.prefix_append (a :: text) rest) (by omega)
      rw [if_neg hshort, ih hj]
      rfl

omit [DecidableEq α] in
theorem prefix_of_prefix_append_cons (h : pattern <+: text ++ c :: rest) (hc : c ∉ pattern) : pattern <+: text := by
  have hfront : text ++ [c] <+: text ++ c :: rest := ⟨rest, by simp⟩
  rcases List.prefix_or_prefix_of_prefix h hfront with hshort | hlong
  · rcases List.prefix_concat_iff.mp hshort with rfl | hpre
    · exact absurd (by simp) hc
    · exact hpre
  · exact absurd (hlong.subset (by simp)) hc

theorem find_append_cons (hne : pattern ≠ []) (hc : c ∉ pattern) (h : ¬ pattern <:+: text) (rest : List α) :
    find pattern (text ++ c :: rest) = (find pattern rest).map (· + (text.length + 1)) := by
  induction text with
  | nil =>
    have hpre : ¬ pattern.isPrefixOf (c :: rest) = true := by
      intro hpre
      have hstart : pattern <+: [] ++ c :: rest := List.isPrefixOf_iff_prefix.mp hpre
      exact hne (List.prefix_nil.mp (prefix_of_prefix_append_cons hstart hc))
    rw [List.nil_append, find, if_neg hpre]
    rfl
  | cons a text ih =>
    rw [List.infix_cons_iff, not_or] at h
    have hpre : ¬ pattern.isPrefixOf (a :: (text ++ c :: rest)) = true := by
      intro hpre
      have hstart : pattern <+: (a :: text) ++ c :: rest := List.isPrefixOf_iff_prefix.mp hpre
      exact h.1 (prefix_of_prefix_append_cons hstart hc)
    rw [List.cons_append, find, if_neg hpre, ih h.2, Option.map_map]
    rfl

theorem infix_append_cons_iff (hne : pattern ≠ []) (hc : c ∉ pattern) :
    pattern <:+: text ++ c :: rest ↔ pattern <:+: text ∨ pattern <:+: rest := by
  constructor
  · intro h
    by_cases htext : pattern <:+: text
    · exact .inl htext
    · obtain ⟨i, hi⟩ := find_of_infix h
      rw [find_append_cons hne hc htext] at hi
      obtain ⟨j, hj, -⟩ := Option.map_eq_some_iff.mp hi
      right
      by_contra hrest
      rw [find_eq_none_iff.mpr hrest] at hj
      cases hj
  · rintro (h | h)
    · exact h.trans List.infix_append_left
    · exact h.trans ((List.suffix_cons c rest).isInfix.trans List.infix_append_right)

theorem replaceUpTo_of_not_infix (h : ¬ pattern <:+: text) (replacement : List α) (fuel : Nat) :
    replaceUpTo pattern replacement fuel text = text := by
  cases fuel with
  | zero => rfl
  | succ fuel => rw [replaceUpTo, find_eq_none_iff.mpr h]

end Finding

section Blocks

variable {start stop : Nat}

theorem block_eq (hstart : find opening text = some start) (hstop : find closing text = some stop) :
    block opening closing text =
      if start ≥ stop then none else some ((text.take stop).drop (start + opening.length)) := by
  simp only [block, hstart, hstop, Option.bind_eq_bind, Option.bind_some]

theorem block_of_not_opened (h : ¬ opening <:+: text) : block opening closing text = none := by
  simp [block, find_eq_none_iff.mpr h]

theorem block_of_not_closed (h : ¬ closing <:+: text) : block opening closing text = none := by
  simp [block, find_eq_none_iff.mpr h]

end Blocks

/-- Two marks, and a symbol that stands in neither. -/
structure Marks (opening closing : List α) (c : α) : Prop where
  opening_ne : opening ≠ []
  closing_ne : closing ≠ []
  notMem_opening : c ∉ opening
  notMem_closing : c ∉ closing

namespace Marks

variable (h : Marks opening closing c)

include h

theorem block_of_closed (hclosed : closing <:+: text) (rest : List α) :
    block opening closing (text ++ c :: rest) = block opening closing text := by
  obtain ⟨stop, hstop⟩ := find_of_infix hclosed
  have hle := find_add_le hstop
  have hclose := find_append hstop (c :: rest)
  by_cases hopen : opening <:+: text
  · obtain ⟨start, hstart⟩ := find_of_infix hopen
    have htake : (text ++ c :: rest).take stop = text.take stop := List.take_append_of_le_length (by omega)
    rw [block_eq (find_append hstart _) hclose, block_eq hstart hstop, htake]
  · have hstart := find_append_cons h.opening_ne h.notMem_opening hopen rest
    rw [block_of_not_opened hopen]
    cases hfind : find opening rest with
    | none =>
      rw [hfind] at hstart
      exact block_of_not_opened (find_eq_none_iff.mp hstart)
    | some start =>
      rw [hfind] at hstart
      have hlate : start + (text.length + 1) ≥ stop := by omega
      rw [block_eq hstart hclose, if_pos hlate]

theorem block_of_unmarked (hopen : ¬ opening <:+: text) (hclosed : ¬ closing <:+: text) (rest : List α) :
    block opening closing (text ++ c :: rest) = block opening closing rest := by
  have hstart := find_append_cons h.opening_ne h.notMem_opening hopen rest
  have hstop := find_append_cons h.closing_ne h.notMem_closing hclosed rest
  cases hopening : find opening rest with
  | none =>
    rw [hopening] at hstart
    rw [block_of_not_opened (find_eq_none_iff.mp hstart), block_of_not_opened (find_eq_none_iff.mp hopening)]
  | some start =>
    cases hclosing : find closing rest with
    | none =>
      rw [hclosing] at hstop
      rw [block_of_not_closed (find_eq_none_iff.mp hstop), block_of_not_closed (find_eq_none_iff.mp hclosing)]
    | some stop =>
      rw [hopening] at hstart
      rw [hclosing] at hstop
      have htake : ((text ++ c :: rest).take (stop + (text.length + 1))).drop
          (start + (text.length + 1) + opening.length) = (rest.take stop).drop (start + opening.length) := by
        have hstop' : stop + (text.length + 1) = text.length + (stop + 1) := by omega
        have hstart' : start + (text.length + 1) + opening.length = text.length + (start + opening.length + 1) := by
          omega
        rw [hstop', hstart', List.take_length_add_append, List.drop_length_add_append]
        simp
      rw [block_eq hstart hstop, block_eq hopening hclosing, htake]
      simp

theorem block_of_unclosed (hrest : ¬ closing <:+: rest) :
    block opening closing (text ++ c :: rest) = block opening closing text := by
  by_cases hclosed : closing <:+: text
  · exact h.block_of_closed hclosed rest
  · have hstop := find_append_cons h.closing_ne h.notMem_closing hclosed rest
    rw [find_eq_none_iff.mpr hrest] at hstop
    rw [block_of_not_closed (find_eq_none_iff.mp hstop), block_of_not_closed hclosed]

theorem block_spanning (hopen : opening <:+: text) (hclosed : ¬ closing <:+: text) {stop : Nat}
    (hstop : find closing rest = some stop) :
    ∃ front, block opening closing (text ++ c :: rest) = some (front ++ c :: rest.take stop) := by
  obtain ⟨start, hstart⟩ := find_of_infix hopen
  have hle := find_add_le hstart
  have hclose := find_append_cons h.closing_ne h.notMem_closing hclosed rest
  rw [hstop] at hclose
  refine ⟨text.drop (start + opening.length), ?_⟩
  have htake : ((text ++ c :: rest).take (stop + (text.length + 1))).drop (start + opening.length) =
      text.drop (start + opening.length) ++ c :: rest.take stop := by
    have hstop' : stop + (text.length + 1) = text.length + (stop + 1) := by omega
    rw [hstop', List.take_length_add_append, List.drop_append_of_le_length hle]
    rfl
  have hnot : ¬ start ≥ stop + (text.length + 1) := by omega
  rw [block_eq (find_append hstart _) hclose, if_neg hnot, htake]

theorem block_self (hopening : ¬ closing <:+: opening) (hbody : ¬ closing <:+: body) (rest : List α) :
    block opening closing (opening ++ c :: (body ++ c :: (closing ++ rest))) = some (c :: (body ++ [c])) := by
  have hstart := find_of_prefix (List.prefix_append opening (c :: (body ++ c :: (closing ++ rest))))
  have hclose : find closing (opening ++ c :: (body ++ c :: (closing ++ rest))) =
      some (opening.length + (body.length + 2)) := by
    rw [find_append_cons h.closing_ne h.notMem_closing hopening,
      find_append_cons h.closing_ne h.notMem_closing hbody, find_of_prefix (List.prefix_append closing rest)]
    simp
    omega
  have htake : ((opening ++ c :: (body ++ c :: (closing ++ rest))).take (opening.length + (body.length + 2))).drop
      (0 + opening.length) = c :: (body ++ [c]) := by
    rw [List.take_length_add_append, Nat.zero_add, List.drop_left]
    simp [List.take_append]
  have hpos : ¬ 0 ≥ opening.length + (body.length + 2) := by omega
  rw [block_eq hstart hclose, if_neg hpos, htake]

end Marks

end Lib.Search
