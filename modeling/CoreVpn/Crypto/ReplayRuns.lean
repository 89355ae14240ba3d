import CoreVpn.Crypto.Replay

namespace CoreVpn.Crypto.ReplayRuns

open Lib Lib.Computation Lib.Machine Replay

variable {n w : Nat}

def step (W : BitVec n) (s : ReplayWindow n w) (p : BitVec n) :
    Outcome Empty Bool × ReplayWindow n w := ReplayWindow.checkAndUpdate W p s

def accepted (ids : List (BitVec n)) (results : List (Outcome Empty Bool)) : List (BitVec n) :=
  (ids.zip results).filterMap fun
    | (p, .ok true) => some p
    | _ => none

def highestId (ids : List (BitVec n)) : Nat := (ids.map BitVec.toNat).foldr max 0

theorem tracks_exec {W : BitVec n} (hW : W.toNat = w) (hw : 0 < w) {s : ReplayWindow n w}
    {A : Finset Nat} (ht : Tracks s A) (ids : List (BitVec n)) :
    Tracks (exec (step W) s ids) (exec (Lib.Replay.filter w) A (ids.map BitVec.toNat)) := by
  induction ids generalizing s A with
  | nil => exact ht
  | cons p ids ih => exact ih (checkAndUpdate_spec hW hw ht p).2

theorem accepted_eq_passed {W : BitVec n} (hW : W.toNat = w) (hw : 0 < w) {s : ReplayWindow n w}
    {A : Finset Nat} (ht : Tracks s A) (ids : List (BitVec n)) :
    (accepted ids (outputs (step W) s ids)).map BitVec.toNat =
      Lib.Replay.passed (ids.map BitVec.toNat)
        (outputs (Lib.Replay.filter w) A (ids.map BitVec.toNat)) := by
  induction ids generalizing s A with
  | nil => rfl
  | cons p ids ih =>
    obtain ⟨ho, ht'⟩ := checkAndUpdate_spec (ε := Empty) hW hw ht p
    have hi := ih (s := (step W s p).2) ht'
    have hs : (step W s p).1 = .ok (Lib.Replay.filter w A p.toNat).1 := ho
    cases hr : (Lib.Replay.filter w A p.toNat).1 <;>
      simpa [accepted, Lib.Replay.passed, hs, hr] using hi

/-- The bitmap is a lossy encoding of the accepted set, yet from a fresh window
every call answers as if the whole set were remembered. -/
theorem checkAndUpdate_exact {W : BitVec n} (hW : W.toNat = w) (hw : 0 < w)
    (ids : List (BitVec n)) (p : BitVec n) :
    (step W (exec (step W) (ReplayWindow.new : ReplayWindow n w) ids) p).1 =
      .ok (decide (p ≠ 0#n ∧ p ∉ accepted ids (outputs (step W) (ReplayWindow.new (w := w)) ids) ∧
        highestId (accepted ids (outputs (step W) (ReplayWindow.new (w := w)) ids)) < p.toNat + w)) := by
  have hexec := tracks_exec hW hw (tracks_new (n := n) (w := w)) ids
  have hacc := accepted_eq_passed hW hw (tracks_new (n := n) (w := w)) ids
  obtain ⟨ho, -⟩ := checkAndUpdate_spec (ε := Empty) hW hw hexec p
  refine ho.trans ?_
  have hset := Lib.Replay.exec_filter (W := w) ∅ (ids.map BitVec.toNat)
  rw [Finset.empty_union, ← hacc] at hset
  have hmem : p.toNat ∈ exec (Lib.Replay.filter w) ∅ (ids.map BitVec.toNat) ↔
      p ∈ accepted ids (outputs (step W) (ReplayWindow.new (w := w)) ids) := by
    rw [hset, List.mem_toFinset, List.mem_map_of_injective (fun a b => BitVec.eq_of_toNat_eq)]
  have hadm : Lib.Replay.Admits w (exec (Lib.Replay.filter w) ∅ (ids.map BitVec.toNat)) p.toNat ↔
      p ≠ 0#n ∧ p ∉ accepted ids (outputs (step W) (ReplayWindow.new (w := w)) ids) ∧
        highestId (accepted ids (outputs (step W) (ReplayWindow.new (w := w)) ids)) <
          p.toNat + w := by
    have h0 : p.toNat ≠ 0 ↔ p ≠ 0#n := by
      rw [not_iff_not, ← BitVec.toNat_inj]
      simp
    rw [Lib.Replay.Admits, hmem, h0, hset, Lib.Replay.highest_toFinset, highestId]
  by_cases ha : Lib.Replay.Admits w (exec (Lib.Replay.filter w) ∅ (ids.map BitVec.toNat)) p.toNat
  · rw [Lib.Replay.filter_true ha, decide_eq_true (hadm.mp ha)]
  · rw [Lib.Replay.filter_false ha, decide_eq_false (fun h => ha (hadm.mpr h))]

theorem accepted_nodup {W : BitVec n} (hW : W.toNat = w) (hw : 0 < w) (ids : List (BitVec n)) :
    (accepted ids (outputs (step W) (ReplayWindow.new : ReplayWindow n w) ids)).Nodup := by
  have hacc := accepted_eq_passed hW hw (tracks_new (n := n) (w := w)) ids
  have hn := (Lib.Replay.passed_nodup (W := w) ∅ (ids.map BitVec.toNat)).1
  rw [← hacc] at hn
  exact hn.of_map _

/-- Both replay windows of the source, the data channel's and the tls-auth
one: on every run from a fresh window, a call returns true exactly on a nonzero
id that was not accepted before and lies within the window below the highest
accepted id. No id is accepted twice, and no call panics, so no shift or
subtraction leaves its range. -/
theorem replay_windows_exact :
    (∀ (ids : List (BitVec 64)) (p : BitVec 64),
      let call : DataWindow → BitVec 64 → Outcome Empty Bool × DataWindow :=
        fun s p => DataWindow.checkAndUpdate p s
      let before := accepted ids (outputs call ReplayWindow.new ids)
      (call (exec call ReplayWindow.new ids) p).1 =
          .ok (decide (p ≠ 0#64 ∧ p ∉ before ∧ highestId before < p.toNat + 128)) ∧
        before.Nodup) ∧
    (∀ (ids : List (BitVec 32)) (p : BitVec 32),
      let call : TlsAuthWindow → BitVec 32 → Outcome Empty Bool × TlsAuthWindow :=
        fun s p => TlsAuthWindow.checkAndUpdate p s
      let before := accepted ids (outputs call ReplayWindow.new ids)
      (call (exec call ReplayWindow.new ids) p).1 =
          .ok (decide (p ≠ 0#32 ∧ p ∉ before ∧ highestId before < p.toNat + 64)) ∧
        before.Nodup) :=
  ⟨fun ids p => ⟨checkAndUpdate_exact (W := 128) rfl (by decide) ids p,
      accepted_nodup (W := 128) rfl (by decide) ids⟩,
    fun ids p => ⟨checkAndUpdate_exact (W := 64) rfl (by decide) ids p,
      accepted_nodup (W := 64) rfl (by decide) ids⟩⟩

end CoreVpn.Crypto.ReplayRuns
