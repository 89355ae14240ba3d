import CoreVpn.Lib.Escapes

namespace Lib.LineRecords

open Lib.Escapes

variable {x y : List Char} {c : Char}

section Lines

def Unbroken (x : List Char) : Prop := '\n' ∉ x ∧ '\r' ∉ x

instance (x : List Char) : Decidable (Unbroken x) := inferInstanceAs (Decidable (_ ∧ _))

theorem unbroken_nil : Unbroken [] := by decide

theorem unbroken_append : Unbroken (x ++ y) ↔ Unbroken x ∧ Unbroken y := by
  simp only [Unbroken, List.mem_append, not_or]
  exact and_and_and_comm

theorem unbroken_of_le (h : ∀ c ∈ x, 32 ≤ c.toNat) : Unbroken x :=
  ⟨fun hmem => absurd (h _ hmem) (by decide), fun hmem => absurd (h _ hmem) (by decide)⟩

theorem unbroken_escape {table : Table} (hbreaks : (table.lookup '\n').isSome ∧ (table.lookup '\r').isSome)
    (hcodes : ∀ entry ∈ table, entry.2 ≠ '\n' ∧ entry.2 ≠ '\r') (s : List Char) : Unbroken (escape table s) :=
  ⟨notMem_escape hbreaks.1 (by decide) (fun entry hentry => (hcodes entry hentry).1) s,
    notMem_escape hbreaks.2 (by decide) (fun entry hentry => (hcodes entry hentry).2) s⟩

theorem unbroken_escape_iff {table : Table} (hbreaks : table.lookup '\n' = none ∧ table.lookup '\r' = none)
    (hcodes : ∀ entry ∈ table, entry.2 ≠ '\n' ∧ entry.2 ≠ '\r') (s : List Char) :
    Unbroken (escape table s) ↔ Unbroken s := by
  unfold Unbroken
  rw [mem_escape_iff hbreaks.1 (by decide) fun entry hentry => (hcodes entry hentry).1,
    mem_escape_iff hbreaks.2 (by decide) fun entry hentry => (hcodes entry hentry).2]

end Lines

section Records

/-- The text is a line with the break at its end. -/
def EndsOnce (x : List Char) : Prop := ∃ line, Unbroken line ∧ x = line ++ ['\n']

theorem endsOnce_concat : EndsOnce (x ++ [c]) ↔ Unbroken x ∧ c = '\n' := by
  constructor
  · rintro ⟨line, hline, heq⟩
    obtain ⟨rfl, hc⟩ := List.append_inj' heq rfl
    exact ⟨hline, List.head_eq_of_cons_eq hc⟩
  · rintro ⟨hx, rfl⟩
    exact ⟨x, hx, rfl⟩

theorem not_endsOnce_nil : ¬ EndsOnce [] := by
  rintro ⟨line, -, heq⟩
  exact List.append_ne_nil_of_right_ne_nil line (List.cons_ne_nil _ _) heq.symm

theorem EndsOnce.mem (h : EndsOnce x) : '\n' ∈ x := by
  obtain ⟨line, -, rfl⟩ := h
  simp

instance EndsOnce.decidable (x : List Char) : Decidable (EndsOnce x) :=
  decidable_of_iff (x.getLast? = some '\n' ∧ Unbroken x.dropLast) <| by
    cases x using List.reverseRecOn with
    | nil => exact iff_of_false (fun h => by cases h.1) not_endsOnce_nil
    | append_singleton x c =>
      rw [endsOnce_concat, List.getLast?_concat, List.dropLast_concat, Option.some.injEq, and_comm]

theorem endsOnce_append (hy : y ≠ []) : EndsOnce (x ++ y) ↔ Unbroken x ∧ EndsOnce y := by
  cases y using List.reverseRecOn with
  | nil => exact absurd rfl hy
  | append_singleton y c => rw [← List.append_assoc, endsOnce_concat, endsOnce_concat, unbroken_append, and_assoc]

theorem endsOnce_cons (hc : c ≠ '\n') : EndsOnce (c :: y) ↔ Unbroken [c] ∧ EndsOnce y := by
  cases y with
  | nil => exact iff_of_false (fun h => hc (endsOnce_concat (x := []).mp h).2) fun h => not_endsOnce_nil h.2
  | cons d y => exact endsOnce_append (x := [c]) (List.cons_ne_nil d y)

theorem intercalate_concat (separator x : List Char) (texts : List (List Char)) :
    separator.intercalate (texts ++ [x]) = texts.flatMap (· ++ separator) ++ x := by
  induction texts with
  | nil => exact List.intercalate_singleton
  | cons text texts ih =>
    rw [List.cons_append, List.intercalate_cons_of_ne_nil (by simp), ih, List.flatMap_cons, List.append_assoc,
      List.append_assoc, List.append_assoc]

theorem intercalate_concat_ne_nil {separator : List Char} (hx : x ≠ []) (texts : List (List Char)) :
    separator.intercalate (texts ++ [x]) ≠ [] := by
  rw [intercalate_concat]
  exact List.append_ne_nil_of_right_ne_nil _ hx

theorem endsOnce_intercalate {separator : List Char} (h : Unbroken separator) (hx : x ≠ [])
    (texts : List (List Char)) :
    EndsOnce (separator.intercalate (texts ++ [x])) ↔ (∀ text ∈ texts, Unbroken text) ∧ EndsOnce x := by
  rw [intercalate_concat, endsOnce_append hx]
  refine and_congr_left fun _ => ?_
  induction texts with
  | nil => exact iff_of_true unbroken_nil (List.forall_mem_nil _)
  | cons text texts ih =>
    rw [List.flatMap_cons, unbroken_append, unbroken_append, and_iff_left h, ih, List.forall_mem_cons]

end Records

end Lib.LineRecords
