import CoreVpn.Lib.Text
import Mathlib.Data.List.DropRight

namespace Lib.Escapes

open Lib.Text

/-- Characters, and the codes that stand for them behind a backslash. -/
abbrev Table := List (Char × Char)

variable {table : Table} {s rest : List Char} {c d separator : Char}

section Escaping

def escapeChar (table : Table) (c : Char) : List Char :=
  match table.lookup c with
  | some d => ['\\', d]
  | none => [c]

def escape (table : Table) (s : List Char) : List Char := s.flatMap (escapeChar table)

theorem escapeChar_of_some (h : table.lookup c = some d) : escapeChar table c = ['\\', d] := by
  rw [escapeChar, h]

theorem escapeChar_of_none (h : table.lookup c = none) : escapeChar table c = [c] := by
  rw [escapeChar, h]

theorem escape_cons (table : Table) (c : Char) (s : List Char) :
    escape table (c :: s) = escapeChar table c ++ escape table s :=
  List.flatMap_cons

theorem escape_concat (table : Table) (s : List Char) (c : Char) :
    escape table (s ++ [c]) = escape table s ++ escapeChar table c := by
  rw [escape, List.flatMap_append, List.flatMap_singleton, escape]

def replaceAll (table : Table) (s : String) : String :=
  table.foldl (fun s entry => replaceChar s entry.1 (String.ofList ['\\', entry.2])) s

/-- What is put in is left alone by what follows. -/
def Chained : Table → Prop
  | [] => True
  | entry :: rest => rest.lookup '\\' = none ∧ rest.lookup entry.2 = none ∧ Chained rest

instance Chained.decidable : (table : Table) → Decidable (Chained table)
  | [] => inferInstanceAs (Decidable True)
  | entry :: rest =>
    have := Chained.decidable rest
    inferInstanceAs (Decidable (rest.lookup '\\' = none ∧ rest.lookup entry.2 = none ∧ Chained rest))

theorem toList_replaceAll (h : Chained table) (s : String) :
    (replaceAll table s).toList = escape table s.toList := by
  induction table generalizing s with
  | nil => exact (List.flatMap_singleton' s.toList).symm
  | cons entry rest ih =>
    obtain ⟨hslash, hcode, hrest⟩ := h
    have hstep : replaceAll (entry :: rest) s =
        replaceAll rest (replaceChar s entry.1 (String.ofList ['\\', entry.2])) := rfl
    rw [hstep, ih hrest, replaceChar, String.toList_ofList, String.toList_ofList, escape, escape, List.flatMap_assoc]
    refine congrArg (List.flatMap · s.toList) (funext fun c => ?_)
    by_cases hc : c = entry.1
    · have hlookup : (entry :: rest).lookup c = some entry.2 := by
        rw [hc, List.lookup_cons_self]
      rw [if_pos hc, escapeChar_of_some hlookup, List.flatMap_cons, List.flatMap_singleton, escapeChar_of_none hslash,
        escapeChar_of_none hcode]
      rfl
    · have hlookup : (entry :: rest).lookup c = rest.lookup c := by
        rw [List.lookup_cons, beq_eq_false_iff_ne.mpr hc]
      rw [if_neg hc, List.flatMap_singleton, escapeChar, escapeChar, hlookup]

theorem eq_of_mem_escapeChar {a : Char} (hslash : c ≠ '\\') (hcode : ∀ entry ∈ table, entry.2 ≠ c)
    (h : c ∈ escapeChar table a) : a = c ∧ table.lookup c = none := by
  cases hlookup : table.lookup a with
  | some d =>
    rw [escapeChar_of_some hlookup] at h
    obtain ⟨before, after, heq, -⟩ := List.lookup_eq_some_iff.mp hlookup
    have hentry : (a, d) ∈ table := by
      rw [heq]
      simp
    simp only [List.mem_cons, List.not_mem_nil, or_false] at h
    obtain rfl | rfl := h
    · exact absurd rfl hslash
    · exact absurd rfl (hcode _ hentry)
  | none =>
    rw [escapeChar_of_none hlookup, List.mem_singleton] at h
    rw [h]
    exact ⟨rfl, hlookup⟩

theorem notMem_escape (h : (table.lookup c).isSome) (hslash : c ≠ '\\') (hcode : ∀ entry ∈ table, entry.2 ≠ c)
    (s : List Char) : c ∉ escape table s := by
  intro hmem
  obtain ⟨a, -, ha⟩ := List.mem_flatMap.mp hmem
  rw [(eq_of_mem_escapeChar hslash hcode ha).2] at h
  cases h

theorem mem_escape_iff (h : table.lookup c = none) (hslash : c ≠ '\\') (hcode : ∀ entry ∈ table, entry.2 ≠ c)
    (s : List Char) : c ∈ escape table s ↔ c ∈ s := by
  constructor
  · intro hmem
    obtain ⟨a, hmem, ha⟩ := List.mem_flatMap.mp hmem
    rwa [(eq_of_mem_escapeChar hslash hcode ha).1] at hmem
  · intro hmem
    refine List.mem_flatMap.mpr ⟨c, hmem, ?_⟩
    rw [escapeChar_of_none h]
    exact List.mem_singleton_self c

end Escaping

section Unescaping

def decode (table : Table) (d : Char) : Option Char := (table.find? fun entry => entry.2 == d).map Prod.fst

/-- A backslash before anything else than a code stands for itself. -/
def unescape (table : Table) : List Char → List Char
  | [] => []
  | [c] => [c]
  | c :: d :: rest =>
    if c = '\\' then
      match decode table d with
      | some a => a :: unescape table rest
      | none => c :: unescape table (d :: rest)
    else c :: unescape table (d :: rest)

theorem unescape_cons_of_ne (h : c ≠ '\\') (rest : List Char) :
    unescape table (c :: rest) = c :: unescape table rest := by
  cases rest with
  | nil => rfl
  | cons d rest => rw [unescape, if_neg h]

theorem unescape_code {a : Char} (h : decode table d = some a) (rest : List Char) :
    unescape table ('\\' :: d :: rest) = a :: unescape table rest := by
  rw [unescape, if_pos rfl, h]

/-- The codes tell the characters, and the backslash has a code too. -/
structure Invertible (table : Table) : Prop where
  decode_lookup : ∀ entry ∈ table, decode table entry.2 = some entry.1
  slash : (table.lookup '\\').isSome

theorem unescape_escape (h : Invertible table) (s : List Char) : unescape table (escape table s) = s := by
  induction s with
  | nil => rfl
  | cons c s ih =>
    rw [escape_cons]
    cases hlookup : table.lookup c with
    | some d =>
      obtain ⟨before, after, heq, -⟩ := List.lookup_eq_some_iff.mp hlookup
      have hentry : (c, d) ∈ table := by
        rw [heq]
        simp
      rw [escapeChar_of_some hlookup]
      exact (unescape_code (h.decode_lookup _ hentry) _).trans (congrArg _ ih)
    | none =>
      have hne : c ≠ '\\' := by
        rintro rfl
        have hslash := h.slash
        rw [hlookup] at hslash
        cases hslash
      rw [escapeChar_of_none hlookup, List.singleton_append, unescape_cons_of_ne hne, ih]

def restoreAll (table : Table) (s : String) : String := String.ofList (unescape table s.toList)

theorem leftInverse_restoreAll (hchained : Chained table) (h : Invertible table) :
    Function.LeftInverse (restoreAll table) (replaceAll table) := by
  intro s
  rw [restoreAll, toList_replaceAll hchained, unescape_escape h, String.ofList_toList]

def Plain (table : Table) (s : List Char) : Prop := ∀ d, (decode table d).isSome → ¬ ['\\', d] <:+: s

theorem length_unescape_le (table : Table) (s : List Char) : (unescape table s).length ≤ s.length := by
  fun_induction unescape table s with
  | case1 => exact le_rfl
  | case2 => exact le_rfl
  | case3 d rest a hdecode ih => simp only [List.length_cons]; omega
  | case4 d rest hdecode ih => simp only [List.length_cons] at ih ⊢; omega
  | case5 c d rest hc ih => simp only [List.length_cons] at ih ⊢; omega

theorem plain_cons : Plain table (c :: d :: rest) ↔
    ¬ (c = '\\' ∧ (decode table d).isSome) ∧ Plain table (d :: rest) := by
  constructor
  · intro h
    refine ⟨?_, fun e he hin => h e he (hin.trans (List.suffix_cons c _).isInfix)⟩
    rintro ⟨rfl, hd⟩
    exact h d hd ⟨[], rest, rfl⟩
  · rintro ⟨hfirst, hrest⟩ e he hin
    obtain hpre | hin := List.infix_cons_iff.mp hin
    · obtain ⟨hc, hpre⟩ := List.cons_prefix_cons.mp hpre
      obtain ⟨hd, -⟩ := List.cons_prefix_cons.mp hpre
      exact hfirst ⟨hc.symm, hd ▸ he⟩
    · exact hrest e he hin

theorem unescape_eq_self_iff : unescape table s = s ↔ Plain table s := by
  fun_induction unescape table s with
  | case1 =>
    refine iff_of_true rfl fun d _ hin => ?_
    cases List.infix_nil.mp hin
  | case2 c =>
    refine iff_of_true rfl fun d _ hin => ?_
    have hlength := hin.length_le
    simp at hlength
  | case3 d rest a hdecode ih =>
    refine iff_of_false (fun h => ?_) fun h => ?_
    · have hlength := congrArg List.length h
      have hle := length_unescape_le table rest
      simp only [List.length_cons] at hlength
      omega
    · exact (plain_cons.mp h).1 ⟨rfl, by rw [hdecode]; rfl⟩
  | case4 d rest hdecode ih =>
    rw [List.cons_inj_right, ih, plain_cons, hdecode]
    simp
  | case5 c d rest hc ih =>
    rw [List.cons_inj_right, ih, plain_cons]
    simp [hc]

end Unescaping

section Runs

def slashes (s : List Char) : Nat := (s.rtakeWhile (· == '\\')).length

/-- Wherever the character stands, the number of backslashes right before it is odd. -/
def Guarded (c : Char) (s : List Char) : Prop := ∀ before after, s = before ++ c :: after → Odd (slashes before)

theorem slashes_concat_slash (s : List Char) : slashes (s ++ ['\\']) = slashes s + 1 := by
  rw [slashes, List.rtakeWhile_concat_pos _ _ _ rfl, List.length_append]
  rfl

theorem slashes_concat_of_ne (h : c ≠ '\\') (s : List Char) : slashes (s ++ [c]) = 0 := by
  rw [slashes, List.rtakeWhile_concat_neg _ _ _ (by simpa using h)]
  rfl

theorem even_slashes_escape (hslash : (table.lookup '\\').isSome) (s : List Char) :
    Even (slashes (escape table s)) := by
  induction s using List.reverseRecOn with
  | nil => exact Even.zero
  | append_singleton s c ih =>
    rw [escape_concat]
    cases hlookup : table.lookup c with
    | some d =>
      have hpair : escape table s ++ ['\\', d] = escape table s ++ ['\\'] ++ [d] := by simp
      rw [escapeChar_of_some hlookup, hpair]
      by_cases hd : d = '\\'
      · rw [hd, slashes_concat_slash, slashes_concat_slash]
        exact ih.add even_two
      · rw [slashes_concat_of_ne hd]
        exact Even.zero
    | none =>
      have hne : c ≠ '\\' := by
        rintro rfl
        rw [hlookup] at hslash
        cases hslash
      rw [escapeChar_of_none hlookup, slashes_concat_of_ne hne]
      exact Even.zero

theorem eq_slash_of_escapeChar {a : Char} {before after : List Char} (h : (table.lookup c).isSome) (hne : c ≠ '\\')
    (heq : escapeChar table a = before ++ c :: after) : before = ['\\'] := by
  cases hlookup : table.lookup a with
  | some d =>
    rw [escapeChar_of_some hlookup] at heq
    cases before with
    | nil => exact absurd (List.cons.inj heq).1.symm hne
    | cons b rest =>
      obtain ⟨rfl, heq⟩ := List.cons.inj heq
      have hlength := congrArg List.length heq
      simp only [List.length_append, List.length_cons, List.length_nil] at hlength
      rw [List.length_eq_zero_iff.mp (show rest.length = 0 by omega)]
  | none =>
    have hmem : c ∈ escapeChar table a := by
      rw [heq]
      simp
    rw [escapeChar_of_none hlookup, List.mem_singleton] at hmem
    rw [hmem, hlookup] at h
    cases h

/-- Induction on the last character: the place is in what came before, or it is that
of a code, where the backslashes before its own are even in number. -/
theorem guarded_escape (h : (table.lookup c).isSome) (hslash : (table.lookup '\\').isSome) (hne : c ≠ '\\')
    (s : List Char) : Guarded c (escape table s) := by
  induction s using List.reverseRecOn with
  | nil =>
    intro before after heq
    simp [escape] at heq
  | append_singleton s a ih =>
    intro before after heq
    rw [escape_concat] at heq
    obtain ⟨middle, rfl, hlast⟩ | ⟨middle, hfirst, hlast⟩ := List.append_eq_append_iff.mp heq
    · rw [eq_slash_of_escapeChar h hne hlast, slashes_concat_slash]
      exact (even_slashes_escape hslash s).add_one
    · cases middle with
      | nil =>
        have hcode : escapeChar table a = [] ++ c :: after := hlast.symm
        cases eq_slash_of_escapeChar h hne hcode
      | cons m middle =>
        rw [List.cons_append] at hlast
        obtain ⟨rfl, -⟩ := List.cons.inj hlast
        exact ih before middle hfirst

end Runs

section Separators

/-- The text up to the first separator that is not behind a backslash, and what
comes after the separator. -/
def takeField (separator : Char) : List Char → Option (List Char × List Char)
  | [] => none
  | [c] => if c = separator then some ([], []) else none
  | c :: d :: rest =>
    if c = separator then some ([], d :: rest)
    else if c = '\\' then (takeField separator rest).map fun field => (c :: d :: field.1, field.2)
    else (takeField separator (d :: rest)).map fun field => (c :: field.1, field.2)

def Closed (separator : Char) (field : List Char) : Prop :=
  ∀ rest, takeField separator (field ++ separator :: rest) = some (field, rest)

theorem closed_nil (separator : Char) : Closed separator [] := by
  intro rest
  cases rest <;> simp [takeField]

theorem Closed.cons (h : Closed separator s) (hc : c ≠ separator) (hslash : c ≠ '\\') :
    Closed separator (c :: s) := by
  intro rest
  cases s with
  | nil =>
    have hrest := h rest
    rw [List.nil_append] at hrest
    rw [List.singleton_append, takeField, if_neg hc, if_neg hslash, hrest]
    rfl
  | cons d s =>
    have hrest := h rest
    rw [List.cons_append] at hrest
    rw [List.cons_append, List.cons_append, takeField, if_neg hc, if_neg hslash, hrest]
    rfl

theorem Closed.cons_code (h : Closed separator s) (hslash : '\\' ≠ separator) (d : Char) :
    Closed separator ('\\' :: d :: s) := by
  intro rest
  rw [List.cons_append, List.cons_append, takeField, if_neg hslash, if_pos rfl, h rest]
  rfl

theorem closed_of_notMem (hseparator : separator ∉ s) (hslash : '\\' ∉ s) : Closed separator s := by
  induction s with
  | nil => exact closed_nil separator
  | cons c s ih =>
    rw [List.mem_cons, not_or] at hseparator hslash
    exact (ih hseparator.2 hslash.2).cons (Ne.symm hseparator.1) (Ne.symm hslash.1)

theorem closed_escape (h : (table.lookup separator).isSome) (hslash : (table.lookup '\\').isSome)
    (hne : '\\' ≠ separator) (s : List Char) : Closed separator (escape table s) := by
  induction s with
  | nil => exact closed_nil separator
  | cons c s ih =>
    rw [escape_cons]
    cases hlookup : table.lookup c with
    | some d =>
      rw [escapeChar_of_some hlookup]
      exact ih.cons_code hne d
    | none =>
      rw [escapeChar_of_none hlookup]
      refine ih.cons ?_ ?_
      · rintro rfl
        rw [hlookup] at h
        cases h
      · rintro rfl
        rw [hlookup] at hslash
        cases hslash

def takeFields (separator : Char) : Nat → List Char → Option (List (List Char) × List Char)
  | 0, s => some ([], s)
  | n + 1, s => do
    let field ← takeField separator s
    let fields ← takeFields separator n field.2
    return (field.1 :: fields.1, fields.2)

theorem takeFields_flatMap {fields : List (List Char)} (h : ∀ field ∈ fields, Closed separator field)
    (rest : List Char) :
    takeFields separator fields.length (fields.flatMap (· ++ [separator]) ++ rest) = some (fields, rest) := by
  induction fields with
  | nil => rfl
  | cons field fields ih =>
    obtain ⟨hfield, hfields⟩ := List.forall_mem_cons.mp h
    rw [List.flatMap_cons, List.append_assoc, List.append_assoc, List.singleton_append, List.length_cons, takeFields,
      hfield]
    simp [ih hfields]

end Separators

end Lib.Escapes
