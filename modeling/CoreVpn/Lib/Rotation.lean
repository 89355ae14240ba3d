import Mathlib.Data.List.Infix
import Mathlib.Tactic

namespace Lib.Rotation

variable {ν α β : Type} [DecidableEq ν]

abbrev Files (ν α : Type) := ν → Option α

/-- A renamed file takes the place of the one that had the new name. -/
def rename (a b : ν) (files : Files ν α) : Files ν α :=
  match files a with
  | some contents => Function.update (Function.update files a none) b (some contents)
  | none => files

def remove (a : ν) (files : Files ν α) : Files ν α := Function.update files a none

/-- A file that is opened for writing at its end is created if it is not there. -/
def create (a : ν) (empty : α) (files : Files ν α) : Files ν α :=
  match files a with
  | some _ => files
  | none => Function.update files a (some empty)

/-- Give each of the first files the next number, beginning with the last of them. -/
def shift (name : ℕ → ν) : ℕ → Files ν α → Files ν α
  | 0, files => files
  | k + 1, files => shift name k (rename (name k) (name (k + 1)) files)

/-- The numbered files are those of a list, the newest first. -/
def Numbered (name : ℕ → ν) (files : Files ν α) (contents : List α) : Prop :=
  ∀ i, files (name i) = contents[i]?

def readOut (name : ℕ → ν) : ℕ → Files ν (List β) → List β
  | 0, _ => []
  | n + 1, files => (files (name n)).getD [] ++ readOut name n files

section Renaming

variable {a b x : ν} {files : Files ν α} {contents : α}

theorem rename_of_some (h : files a = some contents) :
    rename a b files = Function.update (Function.update files a none) b (some contents) := by
  rw [rename, h]

theorem rename_of_none (h : files a = none) : rename a b files = files := by
  rw [rename, h]

theorem rename_of_ne (ha : x ≠ a) (hb : x ≠ b) : rename a b files x = files x := by
  cases h : files a with
  | none => rw [rename_of_none h]
  | some contents => rw [rename_of_some h, Function.update_of_ne hb, Function.update_of_ne ha]

theorem rename_source (hab : a ≠ b) : rename a b files a = none := by
  cases h : files a with
  | none => rw [rename_of_none h, h]
  | some contents => rw [rename_of_some h, Function.update_of_ne hab, Function.update_self]

theorem rename_remove (hab : a ≠ b) (h : files a = some contents) :
    rename a b (remove b files) = rename a b files := by
  have hkept : remove b files a = some contents := (Function.update_of_ne hab _ _).trans h
  rw [rename_of_some hkept, rename_of_some h, remove, Function.update_comm hab.symm, Function.update_idem]

theorem remove_of_none (h : files a = none) : remove a files = files := by
  rw [remove, ← h, Function.update_eq_self]

end Renaming

section Shifting

variable {name : ℕ → ν} {files : Files ν α} {contents : List α}

theorem shift_apply (hname : Function.Injective name) {k : ℕ} (h : ∀ i ≤ k, files (name i) = contents[i]?) :
    (∀ i < k, shift name k files (name (i + 1)) = contents[i]?) ∧
      (0 < k → shift name k files (name 0) = none) ∧
      ∀ x, (∀ i ≤ k, x ≠ name i) → shift name k files x = files x := by
  induction k generalizing files contents with
  | zero => exact ⟨nofun, nofun, fun _ _ => rfl⟩
  | succ k ih =>
    have hne : ∀ {i j}, i ≠ j → name i ≠ name j := fun hij he => hij (hname he)
    have hsource : rename (name k) (name (k + 1)) files (name k) = none := rename_source (hne (by omega))
    have hbelow : ∀ i ≤ k, rename (name k) (name (k + 1)) files (name i) = (contents.take k)[i]? := by
      intro i hi
      obtain rfl | hlt := Nat.eq_or_lt_of_le hi
      · rw [hsource, List.getElem?_take_eq_none le_rfl]
      · rw [rename_of_ne (hne (by omega)) (hne (by omega)), List.getElem?_take_of_lt hlt, h i (by omega)]
    have htop : rename (name k) (name (k + 1)) files (name (k + 1)) = contents[k]? := by
      cases hk : contents[k]? with
      | none =>
        rw [rename_of_none ((h k (by omega)).trans hk), h (k + 1) le_rfl]
        rw [List.getElem?_eq_none_iff] at hk ⊢
        omega
      | some c => rw [rename_of_some ((h k (by omega)).trans hk), Function.update_self]
    obtain ⟨hmoved, hfirst, hrest⟩ := ih hbelow
    refine ⟨fun i hi => ?_, fun _ => ?_, fun x hx => ?_⟩
    · obtain rfl | hlt := Nat.eq_or_lt_of_le (Nat.le_of_lt_succ hi)
      · rw [shift, hrest _ fun j hj => hne (by omega), htop]
      · rw [shift, hmoved i hlt, List.getElem?_take_of_lt hlt]
    · cases k with
      | zero => exact hsource
      | succ k => exact hfirst (Nat.succ_pos k)
    · rw [shift, hrest x fun i hi => hx i (by omega), rename_of_ne (hx k (by omega)) (hx (k + 1) le_rfl)]

theorem Numbered.rotate (hname : Function.Injective name) (h : Numbered name files contents) {k : ℕ}
    (hk : 0 < k) (hlength : contents.length ≤ k + 1) (empty : α) :
    Numbered name (create (name 0) empty (shift name k files)) (empty :: contents.take k) := by
  obtain ⟨hmoved, hfirst, hrest⟩ := shift_apply hname (fun i (_ : i ≤ k) => h i)
  have hcreate : create (name 0) empty (shift name k files) =
      Function.update (shift name k files) (name 0) (some empty) := by
    rw [create, hfirst hk]
  intro i
  rw [hcreate]
  cases i with
  | zero => exact Function.update_self ..
  | succ i =>
    rw [Function.update_of_ne (fun he => Nat.succ_ne_zero i (hname he)), List.getElem?_cons_succ]
    obtain hlt | hge := Nat.lt_or_ge i k
    · rw [hmoved i hlt, List.getElem?_take_of_lt hlt]
    · rw [hrest _ fun j hj he => absurd (hname he) (by omega), h, List.getElem?_take_eq_none hge,
        List.getElem?_eq_none_iff]
      omega

theorem Numbered.create (hname : Function.Injective name) (h : Numbered name files contents) (empty : α) :
    Numbered name (Rotation.create (name 0) empty files) (if contents = [] then [empty] else contents) := by
  cases contents with
  | nil =>
    intro i
    rw [Rotation.create, h 0]
    cases i with
    | zero => exact Function.update_self ..
    | succ i => exact (Function.update_of_ne (fun he => Nat.succ_ne_zero i (hname he)) _ _).trans (h (i + 1))
  | cons c rest =>
    rw [Rotation.create, h 0]
    exact h

theorem Numbered.write (hname : Function.Injective name) {c : α} (h : Numbered name files (c :: contents)) (d : α) :
    Numbered name (Function.update files (name 0) (some d)) (d :: contents) := by
  intro i
  cases i with
  | zero => exact Function.update_self ..
  | succ i => exact (Function.update_of_ne (fun he => Nat.succ_ne_zero i (hname he)) _ _).trans (h (i + 1))

omit [DecidableEq ν] in
theorem Numbered.isSome_iff (h : Numbered name files contents) (i : ℕ) :
    (files (name i)).isSome = true ↔ i < contents.length := by
  simp [h i]

end Shifting

omit [DecidableEq ν] in
theorem Numbered.readOut_eq {name : ℕ → ν} {files : Files ν (List β)} {contents : List (List β)}
    (h : Numbered name files contents) : readOut name contents.length files = contents.reverse.flatten := by
  have hread : ∀ n ≤ contents.length, readOut name n files = (contents.take n).reverse.flatten := by
    intro n hn
    induction n with
    | zero => rfl
    | succ n ih =>
      rw [readOut, ih (by omega), h n, List.getElem?_eq_getElem hn, Option.getD_some,
        List.take_succ_eq_append_getElem hn, List.reverse_append, List.reverse_singleton, List.singleton_append,
        List.flatten_cons]
  rw [hread _ le_rfl, List.take_length]

end Lib.Rotation
