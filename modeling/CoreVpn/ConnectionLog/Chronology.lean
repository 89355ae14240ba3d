import CoreVpn.ConnectionLog.EventRows

namespace CoreVpn.ConnectionLog.Chronology

open Lib.Computation Lib.Text Lib.Calendar Server.Events DatabaseLoggers
open EventRows (standardTexts)

variable {T : Texts} {events : List ConnectionEvent} {cutoff : Timestamp}

def InYears (t : Timestamp) : Prop := FourDigits clockStart t

instance (t : Timestamp) : Decidable (InYears t) := inferInstanceAs (Decidable (FourDigits clockStart t))

/-- The texts of instants are those of RFC 3339. -/
def Texts.Standard (T : Texts) : Prop := T.rfc3339 = toRfc3339 clockStart

theorem timestamp_insertEvent (T : Texts) (event : ConnectionEvent) :
    (insertEvent T event).timestamp = .text (T.rfc3339 event.timestamp) := by
  cases event <;> rfl

theorem lt_iff (hT : Texts.Standard T) {a b : Timestamp} (ha : InYears a) (hb : InYears b) :
    asBytes (T.rfc3339 a) < asBytes (T.rfc3339 b) ↔ a < b := by
  rw [hT]
  exact asBytes_toRfc3339_lt_iff ha hb

theorem isBefore_eq (hT : Texts.Standard T) {event : ConnectionEvent} (hevent : InYears event.timestamp)
    (hcutoff : InYears cutoff) :
    (insertEvent T event).timestamp.isBefore (T.rfc3339 cutoff) = decide (event.timestamp < cutoff) := by
  rw [timestamp_insertEvent, Column.isBefore]
  exact decide_eq_decide.mpr (lt_iff hT hevent hcutoff)

theorem isRecent_eq (hT : Texts.Standard T) {a b : ConnectionEvent} (ha : InYears a.timestamp)
    (hb : InYears b.timestamp) :
    isRecent (insertEvent T a) (insertEvent T b) = decide (b.timestamp ≤ a.timestamp) := by
  rw [isRecent, timestamp_insertEvent, timestamp_insertEvent]
  refine decide_eq_decide.mpr ?_
  rw [← List.not_lt, ← Nat.not_lt]
  exact not_congr (lt_iff hT ha hb)

theorem purgeOldEvents_eq {ε : Type} (hT : Texts.Standard T) (hevents : ∀ event ∈ events, InYears event.timestamp)
    {days : UInt32} {now : Timestamp} (hdays : days ≠ 0) (hnow : days.toNat * nanosPerDay ≤ now)
    (hcutoff : InYears (now - days.toNat * nanosPerDay)) :
    (purgeOldEvents T days now (events.map (insertEvent T)) : Outcome ε Nat × List Row) =
      (.ok (events.countP fun event => decide (event.timestamp < now - days.toNat * nanosPerDay)),
        (events.filter fun event => !decide (event.timestamp < now - days.toNat * nanosPerDay)).map
          (insertEvent T)) := by
  have hbefore : ∀ event ∈ events, (insertEvent T event).timestamp.isBefore
      (T.rfc3339 (now - days.toNat * nanosPerDay)) = decide (event.timestamp < now - days.toNat * nanosPerDay) :=
    fun event hevent => isBefore_eq hT (hevents event hevent) hcutoff
  have hcount : (events.map (insertEvent T)).countP
      (fun row => row.timestamp.isBefore (T.rfc3339 (now - days.toNat * nanosPerDay))) =
        events.countP fun event => decide (event.timestamp < now - days.toNat * nanosPerDay) := by
    rw [List.countP_map]
    exact List.countP_congr fun event hevent => by rw [Function.comp_apply, hbefore event hevent]
  have hkept : (events.map (insertEvent T)).filter
      (fun row => !row.timestamp.isBefore (T.rfc3339 (now - days.toNat * nanosPerDay))) =
        (events.filter fun event => !decide (event.timestamp < now - days.toNat * nanosPerDay)).map
          (insertEvent T) := by
    rw [List.filter_map]
    exact congrArg _ (List.filter_congr fun event hevent => by rw [Function.comp_apply, hbefore event hevent])
  simp only [purgeOldEvents, if_neg hdays, if_neg (Nat.not_lt.mpr hnow), bind_apply, get_apply, modify_apply,
    pure_apply]
  rw [hcount, hkept]

theorem recentRows_eq (hT : Texts.Standard T) (hevents : ∀ event ∈ events, InYears event.timestamp) (limit : Nat) :
    recentRows limit (events.map (insertEvent T)) =
      ((events.mergeSort fun a b => decide (b.timestamp ≤ a.timestamp)).take limit).map (insertEvent T) := by
  rw [recentRows, ← List.map_mergeSort fun a ha b hb => (isRecent_eq hT (hevents a ha) (hevents b hb)).symm,
    List.map_take]

/-- Texts of instants compare like the instants. So what is purged is what is
older than the cutoff, and the order of the rows is that of time. -/
theorem text_order_chronological {ε : Type} (T : Texts) (hT : Texts.Standard T) :
    (∀ a b, InYears a → InYears b → (asBytes (T.rfc3339 a) < asBytes (T.rfc3339 b) ↔ a < b)) ∧
      ∀ events : List ConnectionEvent, (∀ event ∈ events, InYears event.timestamp) →
        (∀ (days : UInt32) (now : Timestamp), days ≠ 0 → days.toNat * nanosPerDay ≤ now →
          InYears (now - days.toNat * nanosPerDay) →
          (purgeOldEvents T days now (events.map (insertEvent T)) : Outcome ε Nat × List Row) =
            (.ok (events.countP fun event => decide (event.timestamp < now - days.toNat * nanosPerDay)),
              (events.filter fun event => !decide (event.timestamp < now - days.toNat * nanosPerDay)).map
                (insertEvent T))) ∧
        ∀ limit, recentRows limit (events.map (insertEvent T)) =
          ((events.mergeSort fun a b => decide (b.timestamp ≤ a.timestamp)).take limit).map (insertEvent T) :=
  ⟨fun _ _ ha hb => lt_iff hT ha hb, fun _ hevents =>
    ⟨fun _ _ hdays hnow hcutoff => purgeOldEvents_eq hT hevents hdays hnow hcutoff, recentRows_eq hT hevents⟩⟩

def renegotiationAt (t : Timestamp) : ConnectionEvent := .renegotiation 1 t (.v4 0 1194) true

/-- Two events half a second apart, one with a fraction in its text and one
without, and a cutoff between them. -/
theorem purge_of_two_events :
    (purgeOldEvents standardTexts 1 8336305382400250000000
        ([renegotiationAt 8336305296000000000000, renegotiationAt 8336305296000500000000].map
          (insertEvent standardTexts)) : Outcome Empty Nat × List Row) =
      (.ok 1, [insertEvent standardTexts (renegotiationAt 8336305296000500000000)]) := by
  have hyears : ∀ event ∈ [renegotiationAt 8336305296000000000000, renegotiationAt 8336305296000500000000],
      InYears event.timestamp := by decide +kernel
  have hpurge := ((text_order_chronological (ε := Empty) standardTexts rfl).2 _ hyears).1
    1 8336305382400250000000 (by decide) (by decide +kernel) (by decide +kernel)
  have hcount : ([renegotiationAt 8336305296000000000000, renegotiationAt 8336305296000500000000].countP fun event =>
      decide (event.timestamp < 8336305382400250000000 - UInt32.toNat 1 * nanosPerDay)) = 1 := by decide +kernel
  have hkept : ([renegotiationAt 8336305296000000000000, renegotiationAt 8336305296000500000000].filter fun event =>
      !decide (event.timestamp < 8336305382400250000000 - UInt32.toNat 1 * nanosPerDay)) =
        [renegotiationAt 8336305296000500000000] := by decide +kernel
  rw [hpurge, hcount, hkept, List.map_singleton]

end CoreVpn.ConnectionLog.Chronology
