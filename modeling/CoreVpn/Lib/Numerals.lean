import Mathlib.Tactic

namespace Lib.Numerals

variable {b k m n w : Nat} {c : Char}

section Digits

def digitValue (c : Char) : Nat := if c.toNat < 58 then c.toNat - 48 else c.toNat - 87

def number (b : Nat) (chars : List Char) : Nat := chars.foldl (fun n c => b * n + digitValue c) 0

theorem digitValue_digitChar (h : n < 16) : digitValue n.digitChar = n := by
  interval_cases n <;> rfl

theorem number_toDigits (hb : 1 < b) (hb' : b ≤ 16) (n : Nat) : number b (Nat.toDigits b n) = n := by
  induction n using Nat.strong_induction_on with
  | _ n ih =>
    rw [Nat.toDigits_eq_if hb]
    split
    · rename_i hsmall
      rw [number, List.foldl_cons, List.foldl_nil, Nat.mul_zero, Nat.zero_add]
      exact digitValue_digitChar (hsmall.trans_le hb')
    · rename_i hlarge
      have hpos : 0 < n := by omega
      have hrest := ih (n / b) (Nat.div_lt_self hpos hb)
      have hdigit : n % b < 16 := (Nat.mod_lt n (by omega)).trans_le hb'
      rw [number] at hrest
      rw [number, List.foldl_append, hrest, List.foldl_cons, List.foldl_nil, digitValue_digitChar hdigit]
      exact Nat.div_add_mod n b

theorem number_leftpad (b w : Nat) (chars : List Char) : number b (List.leftpad w '0' chars) = number b chars := by
  have hzeros : ∀ k, number b (List.replicate k '0') = 0 := by
    intro k
    induction k with
    | zero => rfl
    | succ k ih =>
      rw [List.replicate_succ', number, List.foldl_append, ← number, ih]
      rfl
  rw [List.leftpad, number, List.foldl_append, ← number, hzeros]
  rfl

theorem toDigits_injective (hb : 1 < b) (hb' : b ≤ 16) : Function.Injective (Nat.toDigits b) :=
  Function.LeftInverse.injective (number_toDigits hb hb')

theorem leftpad_toDigits_injective (hb : 1 < b) (hb' : b ≤ 16) (w : Nat) :
    Function.Injective fun n => List.leftpad w '0' (Nat.toDigits b n) :=
  Function.LeftInverse.injective (g := number b) fun n => by rw [number_leftpad, number_toDigits hb hb']

theorem exists_of_mem_toDigits (hb : 1 < b) (h : c ∈ Nat.toDigits b n) : ∃ d < b, c = d.digitChar := by
  induction n using Nat.strong_induction_on with
  | _ n ih =>
    rw [Nat.toDigits_eq_if hb] at h
    split at h
    · rename_i hsmall
      exact ⟨n, hsmall, List.mem_singleton.mp h⟩
    · rename_i hlarge
      have hpos : 0 < n := by omega
      obtain hfront | hlast := List.mem_append.mp h
      · exact ih (n / b) (Nat.div_lt_self hpos hb) hfront
      · exact ⟨n % b, Nat.mod_lt n (by omega), List.mem_singleton.mp hlast⟩

theorem notMem_toDigits (hb : 1 < b) (hb' : b ≤ 16) (hc : ∀ d < 16, Nat.digitChar d ≠ c) : c ∉ Nat.toDigits b n := by
  intro h
  obtain ⟨d, hd, rfl⟩ := exists_of_mem_toDigits hb h
  exact hc d (hd.trans_le hb') rfl

end Digits

section Parts

/-- The last digits of a number in any base, from the highest one on. -/
def parts (b : Nat) : Nat → Nat → List Nat
  | 0, _ => []
  | k + 1, n => parts b k (n / b) ++ [n % b]

theorem parts_ne_nil : parts b (k + 1) n ≠ [] := List.append_ne_nil_of_right_ne_nil _ (List.cons_ne_nil _ _)

theorem parts_inj (hm : m < b ^ k) (hn : n < b ^ k) (h : parts b k m = parts b k n) : m = n := by
  induction k generalizing m n with
  | zero =>
    rw [Nat.pow_zero, Nat.lt_one_iff] at hm hn
    rw [hm, hn]
  | succ k ih =>
    rw [Nat.pow_succ'] at hm hn
    obtain ⟨hfront, hlast⟩ := List.append_inj' h rfl
    have hdiv := ih (Nat.div_lt_of_lt_mul hm) (Nat.div_lt_of_lt_mul hn) hfront
    rw [← Nat.div_add_mod m b, ← Nat.div_add_mod n b, hdiv, List.singleton_inj.mp hlast]

end Parts

section Separators

theorem intercalate_inj {ls ms : List (List Char)} (hls : ls ≠ []) (hms : ms ≠ []) (hl : ∀ l ∈ ls, c ∉ l)
    (hm : ∀ m ∈ ms, c ∉ m) (h : [c].intercalate ls = [c].intercalate ms) : ls = ms := by
  rw [← List.splitOn_intercalate c hl hls, h, List.splitOn_intercalate c hm hms]

theorem mem_intercalate {sep : Char} {ls : List (List Char)} (h : c ∈ [sep].intercalate ls) :
    c = sep ∨ ∃ l ∈ ls, c ∈ l := by
  induction ls with
  | nil => cases h
  | cons l ls ih =>
    cases ls with
    | nil =>
      rw [List.intercalate_singleton] at h
      exact .inr ⟨l, List.mem_cons_self, h⟩
    | cons m ls =>
      rw [List.intercalate_cons_cons, List.append_assoc, List.mem_append, List.mem_append, List.mem_singleton] at h
      obtain hfirst | hsep | hrest := h
      · exact .inr ⟨l, List.mem_cons_self, hfirst⟩
      · exact .inl hsep
      · exact (ih hrest).imp_right fun ⟨l, hl, hc⟩ => ⟨l, List.mem_cons_of_mem _ hl, hc⟩

theorem append_cons_inj {x y z u : List Char} (hx : c ∉ x) (hy : c ∉ y) (h : x ++ c :: z = y ++ c :: u) :
    x = y ∧ z = u := by
  have hfront : ∀ {x : List Char} (z), c ∉ x → (x ++ c :: z).takeWhile (· != c) = x := by
    intro x z hx
    rw [List.takeWhile_append_of_pos, List.takeWhile_cons_of_neg (by simp), List.append_nil]
    exact fun d hd => bne_iff_ne.mpr fun hsame => hx (hsame ▸ hd)
  have hsame : x = y := by rw [← hfront z hx, h, hfront u hy]
  subst hsame
  exact ⟨rfl, (List.cons.inj (List.append_cancel_left h)).2⟩

end Separators

end Lib.Numerals
