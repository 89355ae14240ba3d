import Mathlib.Tactic

namespace Lib.KeyValues

variable {s t key : List Char} {texts : List (List Char)} {c : Char} {β : Type}

def endsKey : List Char → Bool
  | [] => false
  | c :: s => c == '=' || c.isAlphanum && endsKey s

def startsKey : List Char → Bool
  | [] => false
  | c :: s => c.isAlphanum && endsKey s

/-- A text is cut at every space that is followed by a key. -/
def pieces : List Char → List (List Char)
  | [] => [[]]
  | c :: s => if c = ' ' ∧ startsKey s = true then [] :: pieces s else (pieces s).modifyHead (c :: ·)

def entry (piece : List Char) : List Char × List Char :=
  (piece.takeWhile (· != '='), (piece.dropWhile (· != '=')).drop 1)

theorem entry_append (hkey : '=' ∉ key) (s : List Char) : entry (key ++ '=' :: s) = (key, s) := by
  have hall : ∀ c ∈ key, (c != '=') = true := by
    intro c hc
    rw [bne_iff_ne]
    rintro rfl
    exact hkey hc
  rw [entry, List.takeWhile_append_of_pos hall, List.dropWhile_append_of_pos hall]
  simp

theorem startsKey_append (hne : key ≠ []) (hkey : ∀ c ∈ key, c.isAlphanum = true) (s : List Char) :
    startsKey (key ++ '=' :: s) = true := by
  have hend : ∀ key : List Char, (∀ c ∈ key, c.isAlphanum = true) → endsKey (key ++ '=' :: s) = true := by
    intro key hkey
    induction key with
    | nil => rfl
    | cons c key ih =>
      obtain ⟨hc, hrest⟩ := List.forall_mem_cons.mp hkey
      rw [List.cons_append, endsKey, hc, ih hrest, Bool.and_self, Bool.or_true]
  cases key with
  | nil => exact absurd rfl hne
  | cons c key =>
    obtain ⟨hc, hrest⟩ := List.forall_mem_cons.mp hkey
    rw [List.cons_append, startsKey, hc, hend key hrest, Bool.and_self]

section Joining

theorem pieces_ne_nil (s : List Char) : pieces s ≠ [] := by
  cases s with
  | nil => exact List.cons_ne_nil _ _
  | cons c s =>
    rw [pieces]
    split
    · exact List.cons_ne_nil _ _
    · rw [ne_eq, List.modifyHead_eq_nil_iff]
      exact pieces_ne_nil s

theorem startsKey_append_space (s t : List Char) : startsKey (s ++ ' ' :: t) = startsKey s := by
  have hend : ∀ s, endsKey (s ++ ' ' :: t) = endsKey s := by
    intro s
    induction s with
    | nil => rfl
    | cons c s ih => rw [List.cons_append, endsKey, endsKey, ih]
  cases s with
  | nil => rfl
  | cons c s => rw [List.cons_append, startsKey, startsKey, hend]

theorem pieces_append_space (h : startsKey t = true) (s : List Char) :
    pieces (s ++ ' ' :: t) = pieces s ++ pieces t := by
  induction s with
  | nil => exact if_pos ⟨rfl, h⟩
  | cons c s ih =>
    rw [List.cons_append, pieces, startsKey_append_space, pieces, ih]
    split
    · rfl
    · obtain ⟨first, others, hcons⟩ := List.exists_cons_of_ne_nil (pieces_ne_nil s)
      rw [hcons]
      rfl

theorem pieces_intercalate (hne : texts ≠ []) (h : ∀ text ∈ texts, startsKey text = true) :
    pieces ([' '].intercalate texts) = texts.flatMap pieces := by
  induction texts with
  | nil => exact absurd rfl hne
  | cons text texts ih =>
    obtain ⟨-, hrest⟩ := List.forall_mem_cons.mp h
    cases texts with
    | nil => rw [List.intercalate_singleton, List.flatMap_singleton]
    | cons next texts =>
      have hjoined : startsKey ([' '].intercalate (next :: texts)) = true := by
        have hnext := (List.forall_mem_cons.mp hrest).1
        cases texts with
        | nil => rwa [List.intercalate_singleton]
        | cons other texts =>
          rw [List.intercalate_cons_cons, List.append_assoc, List.singleton_append, startsKey_append_space]
          exact hnext
      rw [List.intercalate_cons_cons, List.append_assoc, List.singleton_append, pieces_append_space hjoined,
        ih (List.cons_ne_nil _ _) hrest]
      rfl

end Joining

section Lookalikes

/-- No space in a text is followed by what looks like a key. -/
def Single (s : List Char) : Prop := ∀ rest, ' ' :: rest <:+ s → startsKey rest = false

theorem single_cons : Single (c :: s) ↔ ¬ (c = ' ' ∧ startsKey s = true) ∧ Single s := by
  constructor
  · intro h
    refine ⟨?_, fun rest hrest => h rest (hrest.trans (List.suffix_cons c s))⟩
    rintro ⟨rfl, hs⟩
    rw [h s List.suffix_rfl] at hs
    cases hs
  · rintro ⟨hfirst, hrest⟩ rest hsuffix
    obtain heq | hsuffix := List.suffix_cons_iff.mp hsuffix
    · obtain ⟨rfl, rfl⟩ := List.cons.inj heq
      exact Bool.eq_false_iff.mpr fun hs => hfirst ⟨rfl, hs⟩
    · exact hrest rest hsuffix

theorem pieces_of_single (h : Single s) : pieces s = [s] := by
  induction s with
  | nil => rfl
  | cons c s ih =>
    obtain ⟨hfirst, hrest⟩ := single_cons.mp h
    rw [pieces, if_neg hfirst, ih hrest]
    rfl

theorem single_of_length (h : (pieces s).length ≤ 1) : Single s := by
  induction s with
  | nil =>
    intro rest hsuffix
    cases List.suffix_nil.mp hsuffix
  | cons c s ih =>
    rw [pieces] at h
    split at h
    · have hpos := List.length_pos_iff.mpr (pieces_ne_nil s)
      rw [List.length_cons] at h
      omega
    · rename_i hfirst
      rw [List.length_modifyHead] at h
      exact single_cons.mpr ⟨hfirst, ih h⟩

theorem single_append_iff (h : ' ' ∉ key) : Single (key ++ s) ↔ Single s := by
  induction key with
  | nil => rfl
  | cons c key ih =>
    rw [List.mem_cons, not_or] at h
    rw [List.cons_append, single_cons, ih h.2, and_iff_right fun hc => h.1 hc.1.symm]

theorem length_le_flatMap (texts : List (List Char)) : texts.length ≤ (texts.flatMap pieces).length := by
  induction texts with
  | nil => exact le_rfl
  | cons text texts ih =>
    have hpos := List.length_pos_iff.mpr (pieces_ne_nil text)
    rw [List.flatMap_cons, List.length_append, List.length_cons]
    omega

theorem single_of_flatMap (h : (texts.flatMap pieces).length = texts.length) : ∀ text ∈ texts, Single text := by
  induction texts with
  | nil => exact List.forall_mem_nil _
  | cons text texts ih =>
    have hpos := List.length_pos_iff.mpr (pieces_ne_nil text)
    have hle := length_le_flatMap texts
    rw [List.flatMap_cons, List.length_append, List.length_cons] at h
    exact List.forall_mem_cons.mpr ⟨single_of_length (by omega), ih (by omega)⟩

theorem map_pieces_eq_iff (hne : texts ≠ []) (h : ∀ text ∈ texts, startsKey text = true) (f : List Char → β)
    {expected : List β} (hlength : expected.length = texts.length) :
    (pieces ([' '].intercalate texts)).map f = expected ↔
      (∀ text ∈ texts, Single text) ∧ texts.map f = expected := by
  have hsingle : (∀ text ∈ texts, Single text) → texts.flatMap pieces = texts := by
    intro hall
    have hmap : texts.map pieces = texts.map fun text => [text] :=
      List.map_congr_left fun text htext => pieces_of_single (hall text htext)
    rw [List.flatMap_def, hmap, ← List.flatMap_def]
    exact List.flatMap_singleton' texts
  rw [pieces_intercalate hne h]
  constructor
  · intro heq
    have hcount := congrArg List.length heq
    rw [List.length_map, hlength] at hcount
    have hall := single_of_flatMap hcount
    rw [hsingle hall] at heq
    exact ⟨hall, heq⟩
  · rintro ⟨hall, heq⟩
    rw [hsingle hall, heq]

end Lookalikes

end Lib.KeyValues
