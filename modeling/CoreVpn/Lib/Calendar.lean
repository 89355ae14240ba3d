import CoreVpn.Lib.Numerals
import CoreVpn.Lib.Text

namespace Lib.Calendar

open Lib.Wire Lib.Text Lib.Numerals

section Days

/-- The days from the first of year 0 to the first of another year. -/
def daysBefore (year : Int) : Int := 365 * year + (year + 3) / 4 - (year + 99) / 100 + (year + 399) / 400

/-- Days are counted from the first of year 0, and the calendar repeats itself every 400 years. -/
def yearOf (day : Int) : Int :=
  400 * (day / 146097) + Nat.findGreatest (fun y => daysBefore y ≤ day % 146097) 399

def leapDay (year : Int) : Int := daysBefore (year + 1) - daysBefore year - 365

def monthStart (year : Int) (month : Nat) : Int :=
  [0, 31, 59, 90, 120, 151, 181, 212, 243, 273, 304, 334].getD month 365 + if 2 ≤ month then leapDay year else 0

def ordinalOf (day : Int) : Int := day - daysBefore (yearOf day)

def monthOf (day : Int) : Nat := Nat.findGreatest (fun m => monthStart (yearOf day) m ≤ ordinalOf day) 11

def dayOf (day : Int) : Int := ordinalOf day - monthStart (yearOf day) (monthOf day)

theorem daysBefore_add (cycle year : Int) : daysBefore (400 * cycle + year) = 146097 * cycle + daysBefore year := by
  unfold daysBefore
  omega

theorem leapDay_cases (year : Int) : leapDay year = 0 ∨ leapDay year = 1 := by
  unfold leapDay daysBefore
  omega

theorem daysBefore_mono {a b : Int} (h : a ≤ b) : daysBefore a ≤ daysBefore b := by
  unfold daysBefore
  omega

/-- The first day of the earliest year that a clock has to offer. -/
def clockStart : Int := daysBefore (-262143)

theorem year_bounds (day : Int) : daysBefore (yearOf day) ≤ day ∧ day < daysBefore (yearOf day + 1) := by
  set y := Nat.findGreatest (fun y => daysBefore y ≤ day % 146097) 399 with hy
  have hday : 0 ≤ day % 146097 ∧ day % 146097 < 146097 :=
    ⟨Int.emod_nonneg day (by decide), Int.emod_lt_of_pos day (by decide)⟩
  have hspec : daysBefore y ≤ day % 146097 :=
    Nat.findGreatest_spec (P := fun y : Nat => daysBefore y ≤ day % 146097) (Nat.zero_le 399) hday.1
  have hnext : day % 146097 < daysBefore (y + 1) := by
    obtain hlast | hless := Nat.eq_or_lt_of_le (Nat.findGreatest_le (P := fun y => daysBefore y ≤ day % 146097) 399)
    · have hend : y = 399 := hlast
      rw [hend]
      exact hday.2
    · have hgreatest := Nat.findGreatest_is_greatest (P := fun y : Nat => daysBefore y ≤ day % 146097)
        (Nat.lt_succ_self y) hless
      exact Int.not_le.mp hgreatest
  have hyear : yearOf day = 400 * (day / 146097) + y := rfl
  have hsplit := Int.mul_ediv_add_emod day 146097
  rw [hyear, daysBefore_add, Int.add_assoc, daysBefore_add]
  omega

theorem ordinal_bounds (day : Int) : 0 ≤ ordinalOf day ∧ ordinalOf day < 365 + leapDay (yearOf day) := by
  have h := year_bounds day
  unfold ordinalOf leapDay
  omega

theorem month_bounds (day : Int) : monthOf day ≤ 11 ∧ monthStart (yearOf day) (monthOf day) ≤ ordinalOf day ∧
    ordinalOf day < monthStart (yearOf day) (monthOf day + 1) := by
  have hle : monthOf day ≤ 11 := Nat.findGreatest_le 11
  have hordinal := ordinal_bounds day
  refine ⟨hle, ?_, ?_⟩
  · exact Nat.findGreatest_spec (P := fun m => monthStart (yearOf day) m ≤ ordinalOf day) (Nat.zero_le 11) hordinal.1
  · obtain hlast | hless := Nat.eq_or_lt_of_le hle
    · rw [hlast]
      exact hordinal.2
    · have hgreatest := Nat.findGreatest_is_greatest (P := fun m => monthStart (yearOf day) m ≤ ordinalOf day)
        (Nat.lt_succ_self (monthOf day)) hless
      exact Int.not_le.mp hgreatest

theorem monthStart_mono (year : Int) {a b : Nat} (h : a ≤ b) (hb : b ≤ 12) : monthStart year a ≤ monthStart year b := by
  have hleap := leapDay_cases year
  unfold monthStart
  interval_cases b <;> interval_cases a <;> simp <;> omega

theorem day_bounds (day : Int) : 0 ≤ dayOf day ∧ dayOf day < 31 := by
  obtain ⟨hmonth, hstart, hnext⟩ := month_bounds day
  have hlength : monthStart (yearOf day) (monthOf day + 1) ≤ monthStart (yearOf day) (monthOf day) + 31 := by
    have hleap := leapDay_cases (yearOf day)
    unfold monthStart
    generalize monthOf day = m at hmonth
    interval_cases m <;> simp <;> omega
  unfold dayOf
  omega

theorem date_lt {a b : Int} (h : a < b) :
    yearOf a < yearOf b ∨ yearOf a = yearOf b ∧ (monthOf a < monthOf b ∨ monthOf a = monthOf b ∧ dayOf a < dayOf b) := by
  have hyear : ¬ yearOf b < yearOf a := by
    intro hlt
    have hmono := daysBefore_mono (Int.add_one_le_of_lt hlt)
    have ha := year_bounds a
    have hb := year_bounds b
    omega
  obtain hlt | heq := lt_or_eq_of_le (not_lt.mp hyear)
  · exact .inl hlt
  · refine .inr ⟨heq, ?_⟩
    have hordinal : ordinalOf a < ordinalOf b := by
      unfold ordinalOf
      rw [heq]
      omega
    have hmonth : ¬ monthOf b < monthOf a := by
      intro hlt
      have ha := month_bounds a
      have hb := month_bounds b
      have hnext : monthOf b + 1 ≤ monthOf a := hlt
      have hmono := monthStart_mono (yearOf a) hnext (by omega)
      rw [heq] at hmono ha
      omega
    obtain hlt | hsame := lt_or_eq_of_le (not_lt.mp hmonth)
    · exact .inl hlt
    · refine .inr ⟨hsame, ?_⟩
      unfold dayOf
      rw [heq, hsame]
      omega

end Days

section Digits

def digits : Nat → Nat → List Char
  | 0, _ => []
  | w + 1, n => Nat.digitChar (n / 10 ^ w % 10) :: digits w (n % 10 ^ w)

theorem digitChar_lt {a b : Nat} (h : a < b) (hb : b < 10) : Nat.digitChar a < Nat.digitChar b := by
  interval_cases b <;> interval_cases a <;> decide

theorem mem_digits {w n : Nat} {c : Char} (h : c ∈ digits w n) : 48 ≤ c.toNat ∧ c.toNat ≤ 57 := by
  induction w generalizing n with
  | zero => cases h
  | succ w ih =>
    obtain rfl | hrest := List.mem_cons.mp h
    · have hdigit : n / 10 ^ w % 10 < 10 := Nat.mod_lt _ (by decide)
      generalize n / 10 ^ w % 10 = d at hdigit
      interval_cases d <;> decide
    · exact ih hrest

theorem digits_add (v w n : Nat) : digits (v + w) n = digits v (n / 10 ^ w) ++ digits w (n % 10 ^ w) := by
  induction v generalizing n with
  | zero =>
    rw [Nat.zero_add]
    cases w with
    | zero => rfl
    | succ w =>
      rw [digits, digits, digits, List.nil_append]
      congr 2
      · rw [Nat.pow_succ, Nat.mod_mul_right_div_self, Nat.mod_mod]
      · rw [Nat.mod_mod_of_dvd n (Nat.pow_dvd_pow 10 (Nat.le_succ w))]
  | succ v ih =>
    have hsum : v + 1 + w = v + w + 1 := by omega
    have hpow : 10 ^ (v + w) = 10 ^ w * 10 ^ v := by rw [Nat.add_comm, Nat.pow_add]
    rw [hsum, digits, digits, ih, List.cons_append, hpow, Nat.div_div_eq_div_mul, Nat.mod_mul_right_div_self,
      Nat.mod_mod_of_dvd n (Nat.dvd_mul_right _ _)]

theorem length_digits (w n : Nat) : (digits w n).length = w := by
  induction w generalizing n with
  | zero => rfl
  | succ w ih => rw [digits, List.length_cons, ih]

theorem digits_append_lt {w n m : Nat} {x y : List Char} (hm : m < 10 ^ w) (h : n < m ∨ n = m ∧ x < y) :
    digits w n ++ x < digits w m ++ y := by
  obtain hlt | ⟨rfl, hrest⟩ := h
  · induction w generalizing n m with
    | zero => omega
    | succ w ih =>
      have hpos : 0 < 10 ^ w := Nat.pow_pos (by decide)
      rw [Nat.pow_succ] at hm
      have hdigit : m / 10 ^ w < 10 := Nat.div_lt_of_lt_mul hm
      have hle : n / 10 ^ w ≤ m / 10 ^ w := Nat.div_le_div_right hlt.le
      rw [digits, digits, List.cons_append, List.cons_append, List.cons_lt_cons_iff, Nat.mod_eq_of_lt hdigit,
        Nat.mod_eq_of_lt (lt_of_le_of_lt hle hdigit)]
      obtain hless | hsame := lt_or_eq_of_le hle
      · exact .inl (digitChar_lt hless hdigit)
      · refine .inr ⟨congrArg _ hsame, ih (Nat.mod_lt m hpos) ?_⟩
        have hn := Nat.div_add_mod n (10 ^ w)
        have hm' := Nat.div_add_mod m (10 ^ w)
        rw [hsame] at hn
        omega
  · exact List.append_left_lt hrest

theorem digits_inj {w n m : Nat} (hn : n < 10 ^ w) (hm : m < 10 ^ w) (h : digits w n = digits w m) : n = m := by
  have hirrefl : ∀ {a b}, b < 10 ^ w → digits w a = digits w b → ¬ a < b := by
    intro a b hb hsame hlt
    have hless := digits_append_lt (x := []) (y := []) hb (.inl hlt)
    rw [hsame] at hless
    exact List.lt_irrefl _ hless
  exact le_antisymm (not_lt.mp (hirrefl hn h.symm)) (not_lt.mp (hirrefl hm h))

end Digits

section Fractions

/-- The nanoseconds of an instant, with as few groups of three digits as are exact. -/
def fraction (nanos : Nat) : List Char :=
  if nanos = 0 then []
  else if nanos % 1000000 = 0 then '.' :: digits 3 (nanos / 1000000)
  else if nanos % 1000 = 0 then '.' :: digits 6 (nanos / 1000)
  else '.' :: digits 9 nanos

def groups : List Nat → List Char
  | [] => []
  | n :: ns => if (n :: ns).all (· == 0) then [] else digits 3 n ++ groups ns

theorem groups_of_zero {ns : List Nat} (h : ns.all (· == 0) = true) : groups ns = [] := by
  cases ns with
  | nil => rfl
  | cons n ns => rw [groups, if_pos h]

theorem groups_cons {n : Nat} {ns : List Nat} (h : (n :: ns).all (· == 0) = false) :
    groups (n :: ns) = digits 3 n ++ groups ns := by
  rw [groups, h, if_neg Bool.false_ne_true]

theorem fraction_eq {nanos : Nat} (h : nanos ≠ 0) :
    fraction nanos = '.' :: groups [nanos / 1000000, nanos / 1000 % 1000, nanos % 1000] := by
  rw [fraction, if_neg h]
  by_cases hmillis : nanos % 1000000 = 0
  · have hfirst : nanos / 1000000 ≠ 0 := by omega
    have hsecond : nanos / 1000 % 1000 = 0 := by omega
    have hthird : nanos % 1000 = 0 := by omega
    rw [if_pos hmillis, hsecond, hthird, groups_cons (by simp [hfirst]), groups_of_zero (by decide), List.append_nil]
  · rw [if_neg hmillis]
    by_cases hmicros : nanos % 1000 = 0
    · have hsecond : nanos / 1000 % 1000 ≠ 0 := by omega
      have hfront : nanos / 1000 / 10 ^ 3 = nanos / 1000000 := by omega
      have hsplit := digits_add 3 3 (nanos / 1000)
      rw [hfront] at hsplit
      rw [if_pos hmicros, hmicros, groups_cons (by simp [hsecond]), groups_cons (by simp [hsecond]),
        groups_of_zero (by decide), List.append_nil]
      exact congrArg _ hsplit
    · have hfront : nanos % 10 ^ 6 / 10 ^ 3 = nanos / 1000 % 1000 := by omega
      have hback : nanos % 10 ^ 6 % 10 ^ 3 = nanos % 1000 := by omega
      have hsplit := digits_add 3 6 nanos
      have hrest := digits_add 3 3 (nanos % 10 ^ 6)
      rw [hfront, hback] at hrest
      rw [if_neg hmicros, groups_cons (by simp [hmicros]), groups_cons (by simp [hmicros]),
        groups_cons (by simp [hmicros]), groups, List.append_nil, ← hrest]
      exact congrArg _ hsplit

theorem all_zero_of_lt {ns ms : List Nat} (hlength : ns.length = ms.length) (h : ns < ms) :
    ms.all (· == 0) = false := by
  induction ns generalizing ms with
  | nil =>
    rw [List.eq_nil_of_length_eq_zero hlength.symm] at h
    cases h
  | cons n ns ih =>
    cases ms with
    | nil => cases h
    | cons m ms =>
      rw [List.cons_lt_cons_iff] at h
      obtain hlt | ⟨-, hrest⟩ := h
      · have hne : m ≠ 0 := by omega
        simp [hne]
      · rw [List.all_cons, ih (Nat.succ.inj hlength) hrest, Bool.and_false]

theorem plus_lt_digits {w n : Nat} (x y : List Char) : '+' :: x < digits (w + 1) n ++ y := by
  rw [digits, List.cons_append, List.cons_lt_cons_iff]
  left
  have hdigit : n / 10 ^ w % 10 < 10 := Nat.mod_lt _ (by decide)
  generalize n / 10 ^ w % 10 = d at hdigit
  interval_cases d <;> decide

theorem groups_append_lt {ns ms : List Nat} (x : List Char) (hlength : ns.length = ms.length)
    (hms : ∀ m ∈ ms, m < 1000) (h : ns < ms) : groups ns ++ '+' :: x < groups ms ++ '+' :: x := by
  induction ns generalizing ms with
  | nil =>
    rw [List.eq_nil_of_length_eq_zero hlength.symm] at h
    cases h
  | cons n ns ih =>
    cases ms with
    | nil => cases h
    | cons m ms =>
      rw [groups_cons (all_zero_of_lt hlength h), List.append_assoc]
      rw [List.forall_mem_cons] at hms
      cases hzero : (n :: ns).all (· == 0) with
      | true =>
        rw [groups_of_zero hzero]
        exact plus_lt_digits _ _
      | false =>
        rw [groups_cons hzero, List.append_assoc]
        apply digits_append_lt hms.1
        obtain hlt | ⟨hsame, hrest⟩ := List.cons_lt_cons_iff.mp h
        · exact .inl hlt
        · exact .inr ⟨hsame, ih (Nat.succ.inj hlength) hms.2 hrest⟩

theorem fraction_append_lt {a b : Nat} (x : List Char) (hb : b < 1000000000) (h : a < b) :
    fraction a ++ '+' :: x < fraction b ++ '+' :: x := by
  have hb0 : b ≠ 0 := by omega
  rw [fraction_eq hb0]
  by_cases ha : a = 0
  · rw [fraction, if_pos ha, List.nil_append, List.cons_append, List.cons_lt_cons_iff]
    exact .inl (by decide)
  · rw [fraction_eq ha, List.cons_append, List.cons_append, List.cons_lt_cons_iff]
    refine .inr ⟨rfl, groups_append_lt x rfl ?_ ?_⟩
    · simp only [List.forall_mem_cons]
      exact ⟨by omega, by omega, by omega, List.forall_mem_nil _⟩
    · simp only [List.cons_lt_cons_iff]
      omega

end Fractions

section Texts

def yearText (year : Int) : List Char :=
  if 0 ≤ year ∧ year ≤ 9999 then digits 4 year.toNat
  else (if year < 0 then '-' else '+') :: List.leftpad 4 '0' (Nat.toDigits 10 year.natAbs)

def dateText (day : Int) : List Char :=
  yearText (yearOf day) ++ '-' :: (digits 2 (monthOf day + 1) ++ '-' :: digits 2 (dayOf day + 1).toNat)

def timeText (second : Nat) : List Char :=
  digits 2 (second / 3600) ++ ':' :: (digits 2 (second / 60 % 60) ++ ':' :: digits 2 (second % 60))

/-- An instant is given by the nanoseconds since the beginning of a day, the epoch. -/
def dayNumber (epoch : Int) (t : Nat) : Int := epoch + (t / 86400000000000 : Nat)

def secondOf (t : Nat) : Nat := t / 1000000000 % 86400

def nanosOf (t : Nat) : Nat := t % 1000000000

def toRfc3339 (epoch : Int) (t : Nat) : String :=
  String.ofList (dateText (dayNumber epoch t) ++ 'T' :: (timeText (secondOf t) ++ (fraction (nanosOf t) ++
    "+00:00".toList)))

def toIso8601 (epoch : Int) (t : Nat) : String :=
  String.ofList (dateText (dayNumber epoch t) ++ 'T' :: (timeText (secondOf t) ++ (fraction (nanosOf t) ++ ['Z'])))

def timestampMillis (epoch : Int) (t : Nat) : Int :=
  (dayNumber epoch t - daysBefore 1970) * 86400000 + (secondOf t * 1000 + nanosOf t / 1000000 : Nat)

/-- With a fixed number of digits for the fraction, of which the others are cut off. -/
def toRfc3339Opts (epoch : Int) (width : Nat) (t : Nat) : String :=
  String.ofList (dateText (dayNumber epoch t) ++ 'T' :: (timeText (secondOf t) ++
    '.' :: (digits width (nanosOf t / 10 ^ (9 - width)) ++ ['Z'])))

def FourDigits (epoch : Int) (t : Nat) : Prop :=
  0 ≤ yearOf (dayNumber epoch t) ∧ yearOf (dayNumber epoch t) ≤ 9999

instance (epoch : Int) (t : Nat) : Decidable (FourDigits epoch t) := inferInstanceAs (Decidable (_ ∧ _))

/-- Dates are written with digits and signs. -/
theorem mem_yearText {year : Int} {c : Char} (h : c ∈ yearText year) : 43 ≤ c.toNat ∧ c.toNat ≤ 57 := by
  unfold yearText at h
  split at h
  · exact ⟨le_trans (by decide) (mem_digits h).1, (mem_digits h).2⟩
  · rw [List.leftpad, List.mem_cons, List.mem_append, List.mem_replicate] at h
    obtain rfl | ⟨-, rfl⟩ | hdigit := h
    · split <;> decide
    · decide
    · have hisDigit := Nat.isDigit_of_mem_toDigits (by decide : 0 < 10) (by decide) hdigit
      exact (Char.isDigit_iff_toNat.mp hisDigit).imp_left (le_trans (by decide))

theorem mem_dateText {day : Int} {c : Char} (h : c ∈ dateText day) : 43 ≤ c.toNat ∧ c.toNat ≤ 57 := by
  have hdigits : ∀ {w n}, c ∈ digits w n → 43 ≤ c.toNat ∧ c.toNat ≤ 57 := fun hc =>
    (mem_digits hc).imp_left (le_trans (by decide))
  simp only [dateText, List.mem_append, List.mem_cons] at h
  obtain hyear | rfl | hmonth | rfl | hday := h
  · exact mem_yearText hyear
  · decide
  · exact hdigits hmonth
  · decide
  · exact hdigits hday

theorem le_of_mem_toRfc3339Opts (epoch : Int) (width t : Nat) :
    ∀ c ∈ (toRfc3339Opts epoch width t).toList, 32 ≤ c.toNat := by
  have hdigits : ∀ w n, ∀ c ∈ digits w n, 32 ≤ c.toNat := fun _ _ _ hc => le_trans (by decide) (mem_digits hc).1
  have hdate : ∀ c ∈ dateText (dayNumber epoch t), 32 ≤ c.toNat := fun _ hc => le_trans (by decide) (mem_dateText hc).1
  have htime : ∀ c ∈ timeText (secondOf t), 32 ≤ c.toNat := by
    simp only [timeText, List.forall_mem_append, List.forall_mem_cons]
    exact ⟨hdigits _ _, by decide, hdigits _ _, by decide, hdigits _ _⟩
  simp only [toRfc3339Opts, String.toList_ofList, List.forall_mem_append, List.forall_mem_cons]
  exact ⟨hdate, by decide, htime, by decide, hdigits _ _, by decide, List.forall_mem_nil _⟩

end Texts

section Order

variable {epoch : Int} {a b : Nat}

theorem instant_lt (h : a < b) : dayNumber epoch a < dayNumber epoch b ∨ dayNumber epoch a = dayNumber epoch b ∧
    (secondOf a < secondOf b ∨ secondOf a = secondOf b ∧ nanosOf a < nanosOf b) := by
  unfold dayNumber secondOf nanosOf
  omega

theorem cons_lt_cons {c : Char} {x y : List Char} (h : x < y) : c :: x < c :: y :=
  List.cons_lt_cons_iff.mpr (.inr ⟨rfl, h⟩)

theorem timeText_append_lt {m n : Nat} {x y : List Char} (hn : n < 86400) (h : m < n ∨ m = n ∧ x < y) :
    timeText m ++ x < timeText n ++ y := by
  obtain hlt | ⟨rfl, hrest⟩ := h
  · have hparts : m / 3600 < n / 3600 ∨ m / 3600 = n / 3600 ∧ (m / 60 % 60 < n / 60 % 60 ∨
        m / 60 % 60 = n / 60 % 60 ∧ m % 60 < n % 60) := by omega
    simp only [timeText, List.append_assoc, List.cons_append]
    obtain hhours | ⟨hhours, hparts⟩ := hparts
    · exact digits_append_lt (by omega) (.inl hhours)
    · refine digits_append_lt (by omega) (.inr ⟨hhours, cons_lt_cons ?_⟩)
      obtain hminutes | ⟨hminutes, hseconds⟩ := hparts
      · exact digits_append_lt (by omega) (.inl hminutes)
      · refine digits_append_lt (by omega) (.inr ⟨hminutes, cons_lt_cons ?_⟩)
        exact digits_append_lt (by omega) (.inl hseconds)
  · exact List.append_left_lt hrest

theorem dateText_append_lt {m n : Int} {x y : List Char} (hm : 0 ≤ yearOf m ∧ yearOf m ≤ 9999)
    (hn : 0 ≤ yearOf n ∧ yearOf n ≤ 9999) (h : m < n ∨ m = n ∧ x < y) : dateText m ++ x < dateText n ++ y := by
  obtain hlt | ⟨rfl, hrest⟩ := h
  · have hmonth := (month_bounds n).1
    have hday := day_bounds n
    have hday' := day_bounds m
    simp only [dateText, yearText, if_pos hm, if_pos hn, List.append_assoc, List.cons_append]
    obtain hyear | ⟨hyear, hdate⟩ := date_lt hlt
    · exact digits_append_lt (by omega) (.inl (by omega))
    · refine digits_append_lt (by omega) (.inr ⟨by rw [hyear], cons_lt_cons ?_⟩)
      obtain hmonths | ⟨hmonths, hdays⟩ := hdate
      · exact digits_append_lt (by omega) (.inl (by omega))
      · refine digits_append_lt (by omega) (.inr ⟨by rw [hmonths], cons_lt_cons ?_⟩)
        exact digits_append_lt (by omega) (.inl (by omega))
  · exact List.append_left_lt hrest

theorem rest_lt (hday : dayNumber epoch a = dayNumber epoch b) (h : a < b) :
    timeText (secondOf a) ++ (fraction (nanosOf a) ++ "+00:00".toList) <
      timeText (secondOf b) ++ (fraction (nanosOf b) ++ "+00:00".toList) := by
  have hsecond : secondOf b < 86400 := Nat.mod_lt _ (by decide)
  have hnanos : nanosOf b < 1000000000 := Nat.mod_lt _ (by decide)
  obtain hless | ⟨-, hseconds | ⟨hseconds, hfraction⟩⟩ := @instant_lt epoch a b h
  · exact absurd hday hless.ne
  · exact timeText_append_lt hsecond (.inl hseconds)
  · exact timeText_append_lt hsecond (.inr ⟨hseconds, fraction_append_lt _ hnanos hfraction⟩)

theorem toList_lt_of_lt (ha : FourDigits epoch a) (hb : FourDigits epoch b) (h : a < b) :
    (toRfc3339 epoch a).toList < (toRfc3339 epoch b).toList := by
  simp only [toRfc3339, String.toList_ofList]
  apply dateText_append_lt ha hb
  obtain hday | ⟨hday, -⟩ := instant_lt h
  · exact .inl hday
  · exact .inr ⟨hday, cons_lt_cons (rest_lt hday h)⟩

theorem digits_ne_sign {n : Nat} {year : Int} {rest : List Char} :
    digits 4 n ≠ (if year < 0 then '-' else '+') :: rest := by
  intro h
  have hdigit := (mem_digits (h ▸ List.mem_cons_self : (if year < 0 then '-' else '+') ∈ digits 4 n)).1
  split at hdigit <;> exact absurd hdigit (by decide)

theorem yearText_injective : Function.Injective yearText := by
  intro x y h
  by_cases hx : 0 ≤ x ∧ x ≤ 9999
  · by_cases hy : 0 ≤ y ∧ y ≤ 9999
    · rw [yearText, yearText, if_pos hx, if_pos hy] at h
      have hnat := digits_inj (by omega) (by omega) h
      omega
    · rw [yearText, yearText, if_pos hx, if_neg hy] at h
      exact absurd h digits_ne_sign
  · by_cases hy : 0 ≤ y ∧ y ≤ 9999
    · rw [yearText, yearText, if_neg hx, if_pos hy] at h
      exact absurd h.symm digits_ne_sign
    · rw [yearText, yearText, if_neg hx, if_neg hy] at h
      obtain ⟨hsign, hrest⟩ := List.cons.inj h
      have hnat : x.natAbs = y.natAbs := leftpad_toDigits_injective (by decide) (by decide) 4 hrest
      have hsame : x < 0 ↔ y < 0 := by
        by_contra hne
        split at hsign <;> split at hsign <;> simp_all
      omega

theorem dateText_injective : Function.Injective dateText := by
  intro m n h
  obtain ⟨hyear, hrest⟩ := List.append_inj' h (by simp [length_digits])
  obtain ⟨hmonth, hday⟩ := List.append_inj (List.cons.inj hrest).2 (by rw [length_digits, length_digits])
  have hmonths := And.intro (month_bounds m).1 (month_bounds n).1
  have hdays := And.intro (day_bounds m) (day_bounds n)
  have hmonth' := digits_inj (by omega) (by omega) hmonth
  have hday' := digits_inj (by omega) (by omega) (List.cons.inj hday).2
  have hyears : yearOf m = yearOf n := yearText_injective hyear
  have hsame : monthOf m = monthOf n := Nat.succ.inj hmonth'
  have hdayOf : dayOf m = dayOf n := by omega
  unfold dayOf ordinalOf at hdayOf
  rw [hyears, hsame] at hdayOf
  omega

theorem toRfc3339_injective (epoch : Int) : Function.Injective (toRfc3339 epoch) := by
  have hT : ∀ t, 'T' ∉ dateText (dayNumber epoch t) := fun t h => absurd (mem_dateText h).2 (by decide)
  have hirrefl : ∀ {a b}, toRfc3339 epoch a = toRfc3339 epoch b → ¬ a < b := by
    intro a b h hlt
    obtain ⟨hdate, hrest⟩ := append_cons_inj (hT a) (hT b) (String.ofList_injective h)
    have hless := rest_lt (dateText_injective hdate) hlt
    rw [hrest] at hless
    exact List.lt_irrefl _ hless
  intro a b h
  exact le_antisymm (not_lt.mp (hirrefl h.symm)) (not_lt.mp (hirrefl h))

def Ascii (chars : List Char) : Prop := ∀ c ∈ chars, c.toNat < 128

theorem Ascii.append {x y : List Char} (hx : Ascii x) (hy : Ascii y) : Ascii (x ++ y) :=
  List.forall_mem_append.mpr ⟨hx, hy⟩

theorem Ascii.cons {c : Char} {x : List Char} (hc : c.toNat < 128) (hx : Ascii x) : Ascii (c :: x) :=
  List.forall_mem_cons.mpr ⟨hc, hx⟩

theorem ascii_digits (w n : Nat) : Ascii (digits w n) := fun _ hc =>
  lt_of_le_of_lt (mem_digits hc).2 (by decide)

theorem ascii_fraction (n : Nat) : Ascii (fraction n) := by
  unfold fraction
  split_ifs
  · exact List.forall_mem_nil _
  all_goals exact (ascii_digits _ _).cons (by decide)

theorem ascii_toRfc3339 (h : FourDigits epoch a) : Ascii (toRfc3339 epoch a).toList := by
  have hyear : Ascii (yearText (yearOf (dayNumber epoch a))) := by
    have hrange : 0 ≤ yearOf (dayNumber epoch a) ∧ yearOf (dayNumber epoch a) ≤ 9999 := h
    rw [yearText, if_pos hrange]
    exact ascii_digits _ _
  have hoffset : Ascii "+00:00".toList := forall_mem_toList (by decide)
  have hdate : Ascii (dateText (dayNumber epoch a)) :=
    hyear.append (((ascii_digits _ _).append ((ascii_digits _ _).cons (by decide))).cons (by decide))
  have htime : Ascii (timeText (secondOf a)) :=
    (ascii_digits _ _).append (((ascii_digits _ _).append ((ascii_digits _ _).cons (by decide))).cons (by decide))
  rw [toRfc3339, String.toList_ofList]
  exact hdate.append ((htime.append ((ascii_fraction _).append hoffset)).cons (by decide))

theorem utf8_lt_of_lt {x y : List Char} (hx : Ascii x) (hy : Ascii y) (h : x < y) :
    x.flatMap String.utf8EncodeChar < y.flatMap String.utf8EncodeChar := by
  have hbyte : ∀ c : Char, c.toNat < 128 → String.utf8EncodeChar c = [c.val.toUInt8] := by
    intro c hc
    apply String.utf8EncodeChar_eq_singleton
    rw [Char.utf8Size, if_pos]
    exact UInt32.le_iff_toNat_le.mpr (Nat.le_of_lt_succ hc)
  induction x generalizing y with
  | nil =>
    cases y with
    | nil => cases h
    | cons d y =>
      rw [List.flatMap_cons, hbyte d (hy d List.mem_cons_self)]
      exact List.nil_lt_cons _ _
  | cons c x ih =>
    cases y with
    | nil => cases h
    | cons d y =>
      rw [Ascii, List.forall_mem_cons] at hx hy
      rw [List.flatMap_cons, List.flatMap_cons, hbyte c hx.1, hbyte d hy.1, List.singleton_append,
        List.singleton_append, List.cons_lt_cons_iff]
      obtain hlt | ⟨rfl, hrest⟩ := List.cons_lt_cons_iff.mp h
      · left
        have hval : c.toNat < d.toNat := hlt
        rw [UInt8.lt_iff_toNat_lt, UInt32.toNat_toUInt8, UInt32.toNat_toUInt8]
        change c.toNat % 256 < d.toNat % 256
        omega
      · exact .inr ⟨rfl, ih hx.2 hy.2 hrest⟩

/-- Instants compare like their texts, byte by byte. -/
theorem asBytes_toRfc3339_lt_iff (ha : FourDigits epoch a) (hb : FourDigits epoch b) :
    asBytes (toRfc3339 epoch a) < asBytes (toRfc3339 epoch b) ↔ a < b := by
  have hmono : ∀ {a b}, FourDigits epoch a → FourDigits epoch b → a < b →
      asBytes (toRfc3339 epoch a) < asBytes (toRfc3339 epoch b) := by
    intro a b ha hb hlt
    rw [asBytes_eq, asBytes_eq]
    exact utf8_lt_of_lt (ascii_toRfc3339 ha) (ascii_toRfc3339 hb) (toList_lt_of_lt ha hb hlt)
  refine ⟨fun h => ?_, hmono ha hb⟩
  obtain hlt | rfl | hgt := Nat.lt_trichotomy a b
  · exact hlt
  · exact absurd h (List.lt_irrefl _)
  · exact absurd h (List.lt_asymm (hmono hb ha hgt))

end Order

end Lib.Calendar
