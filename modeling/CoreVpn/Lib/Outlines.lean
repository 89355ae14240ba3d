import CoreVpn.Lib.Json

namespace Lib.Outlines

open Lib.Json

variable {hide : String → Bool} {w w' v : Value} {o p : List (Option Char)} {s t : List Char}

section Covers

mutual

/-- Put one value in the place of every value under a hidden key. -/
def cover (hide : String → Bool) (w : Value) : Value → Value
  | .array items => .array (coverItems hide w items)
  | .object fields => .object (coverFields hide w fields)
  | v => v

def coverItems (hide : String → Bool) (w : Value) : List Value → List Value
  | [] => []
  | v :: items => cover hide w v :: coverItems hide w items

def coverFields (hide : String → Bool) (w : Value) : List (String × Value) → List (String × Value)
  | [] => []
  | (key, v) :: fields => (key, if hide key then w else cover hide w v) :: coverFields hide w fields

end

theorem cover_array (items : List Value) : cover hide w (.array items) = .array (items.map (cover hide w)) := by
  have hitems : ∀ items, coverItems hide w items = items.map (cover hide w) := by
    intro items
    induction items with
    | nil => rfl
    | cons v items ih => rw [coverItems, ih, List.map_cons]
  rw [cover, hitems]

theorem cover_object (fields : List (String × Value)) : cover hide w (.object fields) =
    .object (fields.map fun field => (field.1, if hide field.1 then w else cover hide w field.2)) := by
  have hfields : ∀ fields, coverFields hide w fields =
      fields.map fun field => (field.1, if hide field.1 then w else cover hide w field.2) := by
    intro fields
    induction fields with
    | nil => rfl
    | cons field fields ih => rw [coverFields, ih, List.map_cons]
  rw [cover, hfields]

theorem cover_cover (hide : String → Bool) (w w' v : Value) : cover hide w (cover hide w' v) = cover hide w v := by
  induction v using Value.induction with
  | null => rfl
  | bool b => rfl
  | number n => rfl
  | string s => rfl
  | array items ih =>
    rw [cover_array, cover_array, cover_array, List.map_map]
    exact congrArg _ (List.map_congr_left ih)
  | object fields ih =>
    rw [cover_object, cover_object, cover_object, List.map_map]
    refine congrArg _ (List.map_congr_left fun field hfield => Prod.ext rfl ?_)
    cases hhide : hide field.1 with
    | true => simp [hhide]
    | false => simp [hhide, ih field hfield]

end Covers

section Outlines

def bracket {α : Type} (first comma last : α) (pieces : List (List α)) : List α :=
  first :: [comma].intercalate pieces ++ [last]

theorem chars_array (items : List Value) : chars (.array items) = bracket '[' ',' ']' (items.map chars) := by
  rw [chars, itemTexts_eq]
  rfl

theorem chars_object (fields : List (String × Value)) : chars (.object fields) =
    bracket '\x7b' ',' '\x7d' (fields.map fun field => quote field.1 ++ ':' :: chars field.2) := by
  rw [chars, fieldTexts_eq]
  rfl

theorem chars_ne_nil (v : Value) : chars v ≠ [] := by
  cases v with
  | null => exact List.cons_ne_nil _ _
  | bool b => cases b <;> exact List.cons_ne_nil _ _
  | number n =>
    intro hnil
    exact n.nonempty (String.toList_injective hnil)
  | string s => exact List.cons_ne_nil _ _
  | array items => exact List.cons_ne_nil _ _
  | object fields => exact List.cons_ne_nil _ _

mutual

/-- The text of a value, with a gap for each value under a hidden key. -/
def outline (hide : String → Bool) : Value → List (Option Char)
  | .array items => bracket (some '[') (some ',') (some ']') (itemOutlines hide items)
  | .object fields => bracket (some '\x7b') (some ',') (some '\x7d') (fieldOutlines hide fields)
  | v => (chars v).map some

def itemOutlines (hide : String → Bool) : List Value → List (List (Option Char))
  | [] => []
  | v :: items => outline hide v :: itemOutlines hide items

def fieldOutlines (hide : String → Bool) : List (String × Value) → List (List (Option Char))
  | [] => []
  | (key, v) :: fields =>
    ((quote key).map some ++ some ':' :: if hide key then [none] else outline hide v) :: fieldOutlines hide fields

end

theorem outline_array (items : List Value) : outline hide (.array items) =
    bracket (some '[') (some ',') (some ']') (items.map (outline hide)) := by
  have hitems : ∀ items, itemOutlines hide items = items.map (outline hide) := by
    intro items
    induction items with
    | nil => rfl
    | cons v items ih => rw [itemOutlines, ih, List.map_cons]
  rw [outline, hitems]

def fieldOutline (key : String) (value : List (Option Char)) : List (Option Char) :=
  (quote key).map some ++ some ':' :: value

theorem outline_object (fields : List (String × Value)) : outline hide (.object fields) =
    bracket (some '\x7b') (some ',') (some '\x7d')
      (fields.map fun field => fieldOutline field.1 (if hide field.1 then [none] else outline hide field.2)) := by
  have hfields : ∀ fields, fieldOutlines hide fields =
      fields.map fun field => fieldOutline field.1 (if hide field.1 then [none] else outline hide field.2) := by
    intro fields
    induction fields with
    | nil => rfl
    | cons field fields ih =>
      rw [fieldOutlines, ih, List.map_cons]
      rfl
  rw [outline, hfields]

theorem outline_cover (hide : String → Bool) (w v : Value) : outline hide (cover hide w v) = outline hide v := by
  induction v using Value.induction with
  | null => rfl
  | bool b => rfl
  | number n => rfl
  | string s => rfl
  | array items ih =>
    rw [cover_array, outline_array, outline_array, List.map_map]
    exact congrArg _ (List.map_congr_left ih)
  | object fields ih =>
    rw [cover_object, outline_object, outline_object, List.map_map]
    refine congrArg _ (List.map_congr_left fun field hfield => congrArg (fieldOutline field.1) ?_)
    cases hhide : hide field.1 with
    | true => simp
    | false => simp [hhide, ih field hfield]

end Outlines

section Fillings

def fill (s : List Char) (o : List (Option Char)) : List Char := o.flatMap fun c => c.elim s fun c => [c]

theorem fill_append (s : List Char) (o p : List (Option Char)) : fill s (o ++ p) = fill s o ++ fill s p :=
  List.flatMap_append

theorem fill_map_some (s t : List Char) : fill s (t.map some) = t := by
  rw [fill, List.flatMap_map]
  exact List.flatMap_singleton' t

theorem fill_intercalate (s : List Char) (c : Char) (pieces : List (List (Option Char))) :
    fill s ([some c].intercalate pieces) = [c].intercalate (pieces.map (fill s)) := by
  induction pieces with
  | nil => rfl
  | cons piece pieces ih =>
    cases pieces with
    | nil => rw [List.intercalate_singleton, List.map_singleton, List.intercalate_singleton]
    | cons next pieces =>
      rw [List.intercalate_cons_cons, fill_append, fill_append, ih]
      simp only [List.map_cons, List.intercalate_cons_cons]
      rfl

theorem fill_bracket (s : List Char) (first comma last : Char) (pieces : List (List (Option Char))) :
    fill s (bracket (some first) (some comma) (some last) pieces) =
      bracket first comma last (pieces.map (fill s)) := by
  have hsplit : bracket (some first) (some comma) (some last) pieces =
      [first].map some ++ [some comma].intercalate pieces ++ [last].map some := rfl
  rw [hsplit, fill_append, fill_append, fill_map_some, fill_map_some, fill_intercalate]
  rfl

theorem fill_fieldOutline (s : List Char) (key : String) (value : List (Option Char)) :
    fill s (fieldOutline key value) = quote key ++ ':' :: fill s value := by
  have hsplit : fieldOutline key value = (quote key).map some ++ ([':'].map some ++ value) := rfl
  rw [hsplit, fill_append, fill_append, fill_map_some, fill_map_some]
  rfl

theorem chars_cover (hide : String → Bool) (w v : Value) :
    chars (cover hide w v) = fill (chars w) (outline hide v) := by
  induction v using Value.induction with
  | null => exact (fill_map_some _ _).symm
  | bool b => exact (fill_map_some _ _).symm
  | number n => exact (fill_map_some _ _).symm
  | string s => exact (fill_map_some _ _).symm
  | array items ih =>
    rw [cover_array, chars_array, outline_array, fill_bracket, List.map_map, List.map_map]
    exact congrArg _ (List.map_congr_left ih)
  | object fields ih =>
    rw [cover_object, chars_object, outline_object, fill_bracket, List.map_map, List.map_map]
    refine congrArg _ (List.map_congr_left fun field hfield => ?_)
    rw [Function.comp_apply, Function.comp_apply, fill_fieldOutline]
    cases hhide : hide field.1 with
    | true => simp [fill]
    | false => simp [ih field hfield]

/-- A text that has something in every gap of an outline. -/
inductive Matches : List (Option Char) → List Char → Prop
  | nil : Matches [] []
  | visible (c : Char) {o : List (Option Char)} {t : List Char} : Matches o t → Matches (some c :: o) (c :: t)
  | hidden {s : List Char} (hs : s ≠ []) {o : List (Option Char)} {t : List Char} :
      Matches o t → Matches (none :: o) (s ++ t)

theorem Matches.append (h : Matches o s) (h' : Matches p t) : Matches (o ++ p) (s ++ t) := by
  induction h with
  | nil => exact h'
  | visible c _ ih => exact .visible c ih
  | hidden hs _ ih =>
    rw [List.cons_append, List.append_assoc]
    exact .hidden hs ih

theorem Matches.map_some (t : List Char) : Matches (t.map some) t := by
  induction t with
  | nil => exact .nil
  | cons c t ih => exact .visible c ih

theorem Matches.intercalate (c : Char) {outlines : List (List (Option Char))} {texts : List (List Char)}
    (h : List.Forall₂ Matches outlines texts) :
    Matches ([some c].intercalate outlines) ([c].intercalate texts) := by
  induction h with
  | nil => exact .nil
  | cons hfirst hrest ih =>
    cases hrest with
    | nil =>
      rw [List.intercalate_singleton, List.intercalate_singleton]
      exact hfirst
    | cons hnext hmore =>
      rw [List.intercalate_cons_cons, List.intercalate_cons_cons]
      exact (hfirst.append (.map_some [c])).append ih

theorem Matches.bracket {first comma last : Char} {outlines : List (List (Option Char))} {texts : List (List Char)}
    (h : List.Forall₂ Matches outlines texts) :
    Matches (bracket (some first) (some comma) (some last) outlines) (bracket first comma last texts) :=
  (Matches.append (.visible first (.intercalate comma h)) (.map_some [last]))

theorem Matches.field (key : String) (h : Matches o t) : Matches (fieldOutline key o) (quote key ++ ':' :: t) :=
  (Matches.map_some (quote key)).append (.visible ':' h)

theorem matches_outline (hide : String → Bool) (v : Value) : Matches (outline hide v) (chars v) := by
  induction v using Value.induction with
  | null => exact .map_some _
  | bool b => exact .map_some _
  | number n => exact .map_some _
  | string s => exact .map_some _
  | array items ih =>
    rw [outline_array, chars_array]
    refine .bracket ?_
    rw [List.forall₂_map_left_iff, List.forall₂_map_right_iff, List.forall₂_same]
    exact ih
  | object fields ih =>
    rw [outline_object, chars_object]
    refine .bracket ?_
    rw [List.forall₂_map_left_iff, List.forall₂_map_right_iff, List.forall₂_same]
    intro field hfield
    refine .field field.1 ?_
    split
    · rw [← List.append_nil (chars field.2)]
      exact .hidden (chars_ne_nil field.2) .nil
    · exact ih field hfield

end Fillings

section Fronts

def visible (o : List (Option Char)) : List Char := (o.takeWhile Option.isSome).reduceOption

theorem visible_cases (o : List (Option Char)) :
    (none ∉ o ∧ o = (visible o).map some) ∨ ∃ rest, o = (visible o).map some ++ none :: rest := by
  induction o with
  | nil => exact .inl ⟨List.not_mem_nil, rfl⟩
  | cons c o ih =>
    cases c with
    | none => exact .inr ⟨o, rfl⟩
    | some c =>
      have hvisible : visible (some c :: o) = c :: visible o := rfl
      rw [hvisible, List.map_cons]
      obtain ⟨hnone, heq⟩ | ⟨rest, heq⟩ := ih
      · exact .inl ⟨by simpa using hnone, congrArg _ heq⟩
      · exact .inr ⟨rest, congrArg _ heq⟩

theorem Matches.eq_of_map_some (h : Matches (s.map some) t) : t = s := by
  induction s generalizing t with
  | nil =>
    cases h
    rfl
  | cons c s ih =>
    cases h with
    | visible _ hrest => rw [ih hrest]

theorem Matches.exists_append (h : Matches (s.map some ++ none :: o) t) : ∃ back, back ≠ [] ∧ t = s ++ back := by
  induction s generalizing t with
  | nil =>
    cases h with
    | hidden hs hrest => exact ⟨_, by simp [hs], rfl⟩
  | cons c s ih =>
    cases h with
    | visible _ hrest =>
      obtain ⟨back, hback, rfl⟩ := ih hrest
      exact ⟨back, hback, rfl⟩

end Fronts

end Lib.Outlines
