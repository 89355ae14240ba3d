import CoreVpn.Lib.Text

namespace Lib.Json

open Lib.Text

structure Number where
  text : String
  nonempty : text ≠ ""
  chars : ∀ c ∈ text.toList, c.isDigit = true ∨ c ∈ ['-', '+', '.', 'e', 'E']

def integer (n : Int) : String := (if n < 0 then "-" else "") ++ Nat.repr n.natAbs

theorem toList_integer (n : Int) :
    (integer n).toList = (if n < 0 then ['-'] else []) ++ Nat.toDigits 10 n.natAbs := by
  rw [integer, String.toList_append, Nat.toList_repr]
  split <;> rfl

theorem integer_ne_empty (n : Int) : integer n ≠ "" := by
  intro h
  have hlist := congrArg String.toList h
  rw [toList_integer] at hlist
  exact Nat.toDigits_ne_nil (List.append_eq_nil_iff.mp hlist).2

theorem mem_integer {n : Int} {c : Char} (h : c ∈ (integer n).toList) : c.isDigit = true ∨ c = '-' := by
  rw [toList_integer, List.mem_append] at h
  obtain hsign | hdigit := h
  · split at hsign
    · exact .inr (List.mem_singleton.mp hsign)
    · cases hsign
  · exact .inl (Nat.isDigit_of_mem_toDigits (by decide : 0 < 10) (by decide) hdigit)

theorem mem_integer_chars (n : Int) :
    ∀ c ∈ (integer n).toList, c.isDigit = true ∨ c ∈ ['-', '+', '.', 'e', 'E'] := by
  intro c hc
  obtain hdigit | rfl := mem_integer hc
  · exact .inl hdigit
  · exact .inr List.mem_cons_self

def Number.ofInt (n : Int) : Number := ⟨integer n, integer_ne_empty n, mem_integer_chars n⟩

inductive Value where
  | null
  | bool (b : Bool)
  | number (n : Number)
  | string (s : String)
  | array (items : List Value)
  | object (fields : List (String × Value))

section Printing

def shortEscapes : List (Char × Char) :=
  [('"', '"'), ('\\', '\\'), ('\x08', 'b'), ('\t', 't'), ('\n', 'n'), ('\x0c', 'f'), ('\r', 'r')]

def escapeChar (c : Char) : List Char :=
  match shortEscapes.lookup c with
  | some d => ['\\', d]
  | none => if c.toNat < 32 then '\\' :: 'u' :: (hexPadded 4 c.toNat).toList else [c]

def quote (s : String) : List Char := '"' :: s.toList.flatMap escapeChar ++ ['"']

mutual

/-- The text of a value, without any blanks. -/
def chars : Value → List Char
  | .null => "null".toList
  | .bool b => (if b then "true" else "false").toList
  | .number n => n.text.toList
  | .string s => quote s
  | .array items => '[' :: [','].intercalate (itemTexts items) ++ [']']
  | .object fields => '\x7b' :: [','].intercalate (fieldTexts fields) ++ ['\x7d']

def itemTexts : List Value → List (List Char)
  | [] => []
  | v :: items => chars v :: itemTexts items

def fieldTexts : List (String × Value) → List (List Char)
  | [] => []
  | (key, v) :: fields => (quote key ++ ':' :: chars v) :: fieldTexts fields

end

/-- The compact printer of serde_json. -/
def print (v : Value) : String := String.ofList (chars v)

end Printing

@[elab_as_elim]
theorem Value.induction {P : Value → Prop} (null : P .null) (bool : ∀ b, P (.bool b)) (number : ∀ n, P (.number n))
    (string : ∀ s, P (.string s)) (array : ∀ items, (∀ v ∈ items, P v) → P (.array items))
    (object : ∀ fields, (∀ field ∈ fields, P field.2) → P (.object fields)) (v : Value) : P v :=
  @Value.rec P (fun items => ∀ v ∈ items, P v) (fun fields => ∀ field ∈ fields, P field.2) (fun field => P field.2)
    null bool number string array object
    (List.forall_mem_nil _) (fun _ _ hv hitems => List.forall_mem_cons.mpr ⟨hv, hitems⟩)
    (List.forall_mem_nil _) (fun _ _ hv hfields => List.forall_mem_cons.mpr ⟨hv, hfields⟩)
    (fun _ _ hv => hv) v

section Printed

theorem itemTexts_eq (items : List Value) : itemTexts items = items.map chars := by
  induction items with
  | nil => rfl
  | cons v items ih => rw [itemTexts, ih, List.map_cons]

theorem fieldTexts_eq (fields : List (String × Value)) :
    fieldTexts fields = fields.map fun field => quote field.1 ++ ':' :: chars field.2 := by
  induction fields with
  | nil => rfl
  | cons field fields ih => rw [fieldTexts, ih, List.map_cons]

theorem le_of_mem_escapeChar {c d : Char} (h : d ∈ escapeChar c) : 32 ≤ d.toNat := by
  have hshort : shortEscapes.all (fun pair => decide (32 ≤ pair.2.toNat)) = true := by decide
  have hhex : ∀ n : Fin 32, (hexPadded 4 n).toList.all (fun d => decide (32 ≤ d.toNat)) = true := by decide +kernel
  unfold escapeChar at h
  split at h
  · rename_i second hsecond
    obtain ⟨before, after, heq, -⟩ := List.lookup_eq_some_iff.mp hsecond
    have hmem : (c, second) ∈ shortEscapes := by
      rw [heq]
      simp
    simp only [List.mem_cons, List.not_mem_nil, or_false] at h
    obtain rfl | rfl := h
    · decide
    · exact of_decide_eq_true (List.all_eq_true.mp hshort _ hmem)
  · split at h
    · rename_i hcontrol
      simp only [List.mem_cons] at h
      obtain rfl | rfl | h := h
      · decide
      · decide
      · exact forall_mem_toList (hhex ⟨c.toNat, hcontrol⟩) d h
    · rename_i hplain
      rw [List.mem_singleton.mp h]
      omega

theorem le_of_mem_quote {s : String} {c : Char} (h : c ∈ quote s) : 32 ≤ c.toNat := by
  simp only [quote, List.mem_append, List.mem_cons, List.mem_flatMap, List.not_mem_nil, or_false] at h
  obtain (rfl | ⟨d, -, hd⟩) | rfl := h
  · decide
  · exact le_of_mem_escapeChar hd
  · decide

theorem mem_intercalate {α : Type} {separator : List α} {pieces : List (List α)} {a : α}
    (h : a ∈ separator.intercalate pieces) : a ∈ separator ∨ ∃ piece ∈ pieces, a ∈ piece := by
  induction pieces with
  | nil => cases h
  | cons piece pieces ih =>
    cases pieces with
    | nil => exact .inr ⟨piece, List.mem_cons_self, by rwa [List.intercalate_singleton] at h⟩
    | cons next pieces =>
      rw [List.intercalate_cons_cons, List.mem_append, List.mem_append] at h
      obtain (hpiece | hseparator) | hrest := h
      · exact .inr ⟨piece, List.mem_cons_self, hpiece⟩
      · exact .inl hseparator
      · obtain hseparator | ⟨other, hother, ha⟩ := ih hrest
        · exact .inl hseparator
        · exact .inr ⟨other, List.mem_cons_of_mem _ hother, ha⟩

theorem le_of_mem_list {first last : Char} {pieces : List (List Char)} (hfirst : 32 ≤ first.toNat)
    (hlast : 32 ≤ last.toNat) (h : ∀ piece ∈ pieces, ∀ c ∈ piece, 32 ≤ c.toNat) :
    ∀ c ∈ first :: [','].intercalate pieces ++ [last], 32 ≤ c.toNat := by
  intro c hc
  simp only [List.mem_append, List.mem_cons, List.not_mem_nil, or_false] at hc
  obtain (rfl | hmem) | rfl := hc
  · exact hfirst
  · obtain hcomma | ⟨piece, hpiece, hc⟩ := mem_intercalate hmem
    · rw [List.mem_singleton.mp hcomma]
      decide
    · exact h piece hpiece c hc
  · exact hlast

theorem le_of_mem_chars (v : Value) : ∀ c ∈ chars v, 32 ≤ c.toNat := by
  induction v using Value.induction with
  | null => exact forall_mem_toList (s := "null") (by decide)
  | bool b => cases b with
    | true => exact forall_mem_toList (s := "true") (by decide)
    | false => exact forall_mem_toList (s := "false") (by decide)
  | number n =>
    intro c hc
    obtain hdigit | hmark := n.chars c hc
    · delta Char.isDigit at hdigit
      simp only [Bool.and_eq_true, decide_eq_true_eq] at hdigit
      exact le_trans (by decide) hdigit.1
    · simp only [List.mem_cons, List.not_mem_nil, or_false] at hmark
      obtain rfl | rfl | rfl | rfl | rfl := hmark <;> decide
  | string s => exact fun c hc => le_of_mem_quote hc
  | array items ih =>
    rw [chars, itemTexts_eq]
    refine le_of_mem_list (by decide) (by decide) fun piece hpiece => ?_
    obtain ⟨v, hv, rfl⟩ := List.mem_map.mp hpiece
    exact ih v hv
  | object fields ih =>
    rw [chars, fieldTexts_eq]
    refine le_of_mem_list (by decide) (by decide) fun piece hpiece c hc => ?_
    obtain ⟨field, hfield, rfl⟩ := List.mem_map.mp hpiece
    rw [List.mem_append, List.mem_cons] at hc
    obtain hkey | rfl | hvalue := hc
    · exact le_of_mem_quote hkey
    · decide
    · exact ih field hfield c hvalue

end Printed

end Lib.Json
