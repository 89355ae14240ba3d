import CoreVpn.ConnectionLog.Anonymizers
import CoreVpn.Lib.Machine

namespace CoreVpn.ConnectionLog.DailySalts

open Lib.Wire Lib.Machine Server.Events Anonymizers

variable (H : Hashes) {a : Anonymizer} {secret : ByteVec 32}

def step (a : Anonymizer) (call : Date × ConnectionEvent) : ByteVec 32 × Anonymizer :=
  let a := (anonymize H call.1 call.2 a).2
  (a.dailySalt, a)

def salted (a : Anonymizer) (calls : List (Date × ConnectionEvent)) : List (Date × ByteVec 32) :=
  (calls.map Prod.fst).zip (outputs (step H) a calls)

/-- Two calls use one salt if and only if they fall on one day. -/
def Unlinkable (a : Anonymizer) (calls : List (Date × ConnectionEvent)) : Prop :=
  ∀ p ∈ salted H a calls, ∀ q ∈ salted H a calls, p.2 = q.2 ↔ p.1 = q.1

/-- The calls of a run that fall on days of one number fall on one day. -/
def NoAnniversary (calls : List (Date × ConnectionEvent)) : Prop :=
  ∀ p ∈ calls, ∀ q ∈ calls, p.1.ordinal = q.1.ordinal → p.1 = q.1

/-- The hash tells the days of a year apart. -/
def SaltsDiffer (secret : ByteVec 32) : Prop :=
  ∀ date date' : Date, H.sha256 (saltInput date.day secret) = H.sha256 (saltInput date'.day secret) →
    saltInput date.day secret = saltInput date'.day secret

structure Current (secret : ByteVec 32) (a : Anonymizer) : Prop where
  instanceSecret : a.instanceSecret = secret
  dailySalt : a.dailySalt = generateSalt H a.currentDay secret

theorem current_new (config : ConnectionLogAnonymization) (today : Date) (secret : ByteVec 32) :
    Current H secret (Anonymizer.new H config today secret) := ⟨rfl, rfl⟩

variable {H}

theorem Current.rotate (h : Current H secret a) (today : Date) :
    Current H secret (rotateSaltIfNeeded H today a) ∧
      (rotateSaltIfNeeded H today a).dailySalt = generateSalt H today.day secret := by
  rw [rotateSaltIfNeeded]
  split
  · exact ⟨⟨h.instanceSecret, by rw [h.instanceSecret]⟩, by rw [h.instanceSecret]⟩
  · rename_i hsame
    refine ⟨h, ?_⟩
    rw [h.dailySalt, not_not.mp hsame]

theorem outputs_eq (h : Current H secret a) (calls : List (Date × ConnectionEvent)) :
    outputs (step H) a calls = calls.map fun call => generateSalt H call.1.day secret := by
  induction calls generalizing a with
  | nil => rfl
  | cons call calls ih =>
    obtain ⟨hnext, hsalt⟩ := h.rotate call.1
    rw [outputs_cons, List.map_cons, ← ih hnext]
    exact congrArg (· :: _) hsalt

theorem salted_eq (h : Current H secret a) (calls : List (Date × ConnectionEvent)) :
    salted H a calls = calls.map fun call => (call.1, generateSalt H call.1.day secret) := by
  rw [salted, outputs_eq h, List.zip_map']

theorem toLe32_injective : Function.Injective toLe32 := by
  intro m n h
  have hbyte : ∀ k : UInt32, k.toUInt8.toNat = k.toNat % 256 := fun k => UInt32.toNat_toUInt8 k
  simp only [toLe32, List.cons.injEq, and_true, ← UInt8.toNat_inj, hbyte, UInt32.toNat_shiftRight,
    Nat.shiftRight_eq_div_pow] at h
  have hm := m.toNat_lt
  have hn := n.toNat_lt
  apply UInt32.toNat_inj.mp
  simp only [UInt32.reduceToNat, Nat.reduceMod, Nat.reducePow] at h
  omega

theorem toNat_day (date : Date) : date.day.toNat = date.ordinal := by
  have hle := date.ordinal_le
  apply UInt32.toNat_ofNat_of_lt'
  split at hle
  · exact hle.trans_lt (by decide)
  · exact hle.trans_lt (by decide)

theorem day_inj {date date' : Date} : date.day = date'.day ↔ date.ordinal = date'.ordinal := by
  rw [← UInt32.toNat_inj, toNat_day, toNat_day]

/-- The salts of two days are the same exactly if the days have the same number
in their years. -/
theorem generateSalt_inj (hsha : SaltsDiffer H secret) {date date' : Date} :
    generateSalt H date.day secret = generateSalt H date'.day secret ↔ date.ordinal = date'.ordinal := by
  rw [← day_inj]
  constructor
  · intro hsalt
    have hinput := hsha date date' hsalt
    rw [saltInput, saltInput, List.append_left_inj, List.append_right_inj] at hinput
    exact toLe32_injective hinput
  · intro hday
    rw [hday]

/-- Two calls of a run use one salt exactly if they fall on one day, if and only
if no two of them fall on days of one number in different years. -/
theorem salts_unlinkable_iff (hsha : SaltsDiffer H secret) (config : ConnectionLogAnonymization) (today : Date)
    (calls : List (Date × ConnectionEvent)) :
    Unlinkable H (Anonymizer.new H config today secret) calls ↔ NoAnniversary calls := by
  rw [Unlinkable, salted_eq (current_new H config today secret)]
  simp only [List.forall_mem_map, generateSalt_inj hsha]
  constructor
  · exact fun h p hp q hq => (h p hp q hq).mp
  · intro h p hp q hq
    exact ⟨h p hp q hq, congrArg Date.ordinal⟩

def sampleHashes : Hashes where
  sha256 data := ⟨(data.drop 32).take 4 ++ List.replicate (32 - ((data.drop 32).take 4).length) 0, by
    rw [List.length_append, List.length_replicate, List.length_take]
    omega⟩
  hmac _ _ := zeros 32

theorem saltsDiffer_sampleHashes : SaltsDiffer sampleHashes (zeros 32) := by
  intro date date' hhash
  have hday : ∀ date : Date, ((saltInput date.day (zeros 32)).drop 32).take 4 = toLe32 date.day := by
    intro date
    rw [saltInput, List.append_assoc, List.drop_left' (List.Vector.toList_length _)]
    exact List.take_left' rfl
  have hbytes := congrArg List.Vector.toList hhash
  have hlength : ∀ n, (toLe32 n).length = 4 := fun n => rfl
  simp only [sampleHashes, List.Vector.toList_mk, hday, hlength, List.append_left_inj] at hbytes
  rw [saltInput, saltInput, hbytes]

def newYear (year : Int) : Date := ⟨year, 1, by decide, by split <;> decide⟩

def sampleAttempt : ConnectionEvent := .connectionAttempt 1 0 (.v4 0 1194) none

theorem salts_of_two_days :
    SaltsDiffer sampleHashes (zeros 32) ∧
      Unlinkable sampleHashes (Anonymizer.new sampleHashes {} (newYear 2026) (zeros 32))
        [(newYear 2026, sampleAttempt), (⟨2026, 2, by decide, by decide⟩, sampleAttempt),
          (newYear 2026, sampleAttempt)] := by
  refine ⟨saltsDiffer_sampleHashes, (salts_unlinkable_iff saltsDiffer_sampleHashes _ _ _).mpr ?_⟩
  rw [NoAnniversary]
  decide

/-- A year later the salt of the same day is used again. -/
theorem salt_reused_after_a_year :
    SaltsDiffer sampleHashes (zeros 32) ∧
      ¬ Unlinkable sampleHashes (Anonymizer.new sampleHashes {} (newYear 2026) (zeros 32))
        [(newYear 2026, sampleAttempt), (newYear 2027, sampleAttempt)] := by
  refine ⟨saltsDiffer_sampleHashes, fun hunlinkable => ?_⟩
  have hsame := (hunlinkable _ (List.mem_cons_self) _ (List.mem_cons_of_mem _ List.mem_cons_self)).mp (by decide)
  exact absurd hsame (by decide)

end CoreVpn.ConnectionLog.DailySalts
