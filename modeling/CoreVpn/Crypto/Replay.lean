import CoreVpn.Lib.BitWindow
import CoreVpn.Lib.Checked

namespace CoreVpn.Crypto.Replay

open Lib Lib.Computation Lib.Machine

variable {ε : Type} {n w : Nat}

/-- The sliding window of the source, over ids of `n` bits and a bitmap of `w`
bits. The data channel and tls-auth each have a copy of it. -/
structure ReplayWindow (n w : Nat) where
  highest : BitVec n
  bitmap : BitVec w
  deriving DecidableEq, Repr

namespace ReplayWindow

def new : ReplayWindow n w := ⟨0#n, 0#w⟩

def checkAndUpdate (windowSize packetId : BitVec n) : Program (ReplayWindow n w) ε Bool := do
  let self ← get
  -- Packet id 0 is invalid, since the counter starts at 1.
  if packetId = 0#n then return false
  if packetId > self.highest then
    let shift ← lift (Checked.sub packetId self.highest)
    if shift ≥ windowSize then
      modify fun s => { s with bitmap := 1#w }
    else
      let shifted ← lift (Checked.shl self.bitmap shift)
      modify fun s => { s with bitmap := shifted ||| 1#w }
    modify fun s => { s with highest := packetId }
    return true
  else
    let diff ← lift (Checked.sub self.highest packetId)
    if diff ≥ windowSize then return false
    let mask ← lift (Checked.shl 1#w diff)
    if self.bitmap &&& mask ≠ 0#w then return false
    modify fun s => { s with bitmap := s.bitmap ||| mask }
    return true

def reset (_ : ReplayWindow n w) : ReplayWindow n w := new

end ReplayWindow

abbrev DataWindow := ReplayWindow 64 128

def DataWindow.checkAndUpdate (packetId : BitVec 64) : Program DataWindow ε Bool :=
  ReplayWindow.checkAndUpdate 128 packetId

abbrev TlsAuthWindow := ReplayWindow 32 64

def TlsAuthWindow.checkAndUpdate (packetId : BitVec 32) : Program TlsAuthWindow ε Bool :=
  ReplayWindow.checkAndUpdate 64 packetId

/-- The window stands for a set of accepted ids. -/
def Tracks (s : ReplayWindow n w) (A : Finset Nat) : Prop :=
  BitWindow.Tracks s.bitmap s.highest.toNat A

theorem tracks_new : Tracks (ReplayWindow.new : ReplayWindow n w) ∅ := by
  simpa [Tracks, ReplayWindow.new] using BitWindow.tracks_empty

theorem checkAndUpdate_ahead {W p : BitVec n} {s : ReplayWindow n w} (hp : s.highest < p) :
    ReplayWindow.checkAndUpdate (ε := ε) W p s =
      if p.toNat - s.highest.toNat ≥ W.toNat then (.ok true, ⟨p, 1#w⟩)
      else if p.toNat - s.highest.toNat < w then
        (.ok true, ⟨p, (s.bitmap <<< (p.toNat - s.highest.toNat)) ||| 1#w⟩)
      else (.error .panic, s) := by
  have h0 : p ≠ 0#n := by rintro rfl; simp at hp
  have hsub : (p - s.highest).toNat = p.toNat - s.highest.toNat :=
    BitVec.toNat_sub_of_le (BitVec.le_of_lt hp)
  have hge : (p - s.highest ≥ W) ↔ p.toNat - s.highest.toNat ≥ W.toNat := by
    rw [ge_iff_le, BitVec.le_def, hsub]
  by_cases hW : p.toNat - s.highest.toNat ≥ W.toNat
  · simp [ReplayWindow.checkAndUpdate, bind_apply, h0, hp, Checked.sub_of_le (BitVec.le_of_lt hp),
      hge.mpr hW, hW]
  · by_cases hw : p.toNat - s.highest.toNat < w
    · simp [ReplayWindow.checkAndUpdate, bind_apply, h0, hp,
        Checked.sub_of_le (BitVec.le_of_lt hp), Checked.shl, hsub, hge, hW, hw]
    · simp [ReplayWindow.checkAndUpdate, bind_apply, h0, hp,
        Checked.sub_of_le (BitVec.le_of_lt hp), Checked.shl, hsub, hge, hW, hw]

theorem and_mask_eq_zero_iff (b : BitVec w) {d : Nat} (hd : d < w) :
    b &&& (1#w <<< d) = 0#w ↔ b.getLsbD d = false := by
  have hm : (1#w <<< d) = BitVec.twoPow w d := (BitVec.twoPow_eq w d).symm
  rw [hm, BitVec.and_twoPow]
  cases b.getLsbD d with
  | false => simp
  | true =>
    have hne : BitVec.twoPow w d ≠ 0#w := fun h => by
      have := congrArg (fun x => x.getLsbD d) h
      simp [hd] at this
    simp [hne]

theorem checkAndUpdate_behind {W p : BitVec n} {s : ReplayWindow n w} (h0 : p ≠ 0#n)
    (hp : p ≤ s.highest) :
    ReplayWindow.checkAndUpdate (ε := ε) W p s =
      if s.highest.toNat - p.toNat ≥ W.toNat then (.ok false, s)
      else if s.highest.toNat - p.toNat < w then
        if s.bitmap.getLsbD (s.highest.toNat - p.toNat) then (.ok false, s)
        else (.ok true, ⟨s.highest, s.bitmap ||| (1#w <<< (s.highest.toNat - p.toNat))⟩)
      else (.error .panic, s) := by
  have hnlt : ¬ p > s.highest := BitVec.not_lt.mpr hp
  have hsub : (s.highest - p).toNat = s.highest.toNat - p.toNat := BitVec.toNat_sub_of_le hp
  have hge : (s.highest - p ≥ W) ↔ s.highest.toNat - p.toNat ≥ W.toNat := by
    rw [ge_iff_le, BitVec.le_def, hsub]
  by_cases hW : s.highest.toNat - p.toNat ≥ W.toNat
  · simp [ReplayWindow.checkAndUpdate, bind_apply, h0, hnlt, Checked.sub_of_le hp, hge.mpr hW, hW]
  · by_cases hw : s.highest.toNat - p.toNat < w
    · have hz := and_mask_eq_zero_iff s.bitmap hw
      cases hb : s.bitmap.getLsbD (s.highest.toNat - p.toNat) with
      | false =>
        simp [ReplayWindow.checkAndUpdate, bind_apply, h0, hnlt, Checked.sub_of_le hp, Checked.shl,
          hsub, hge, hW, hw, hz.mpr hb]
      | true =>
        have hz' : ¬ s.bitmap &&& 1#w <<< (s.highest.toNat - p.toNat) = 0#w := by simp [hz, hb]
        simp [ReplayWindow.checkAndUpdate, bind_apply, h0, hnlt, Checked.sub_of_le hp, Checked.shl,
          hsub, hge, hW, hw, hz']
    · simp [ReplayWindow.checkAndUpdate, bind_apply, h0, hnlt, Checked.sub_of_le hp, Checked.shl,
        hsub, hge, hW, hw]

/-- One call of the window is one step of the abstract filter: it answers as
the filter does, never panics, and the bitmap keeps tracking the accepted set. -/
theorem checkAndUpdate_spec {W : BitVec n} (hW : W.toNat = w) (hw : 0 < w) {s : ReplayWindow n w}
    {A : Finset Nat} (ht : Tracks s A) (p : BitVec n) :
    (ReplayWindow.checkAndUpdate (ε := ε) W p s).1 = .ok (Replay.filter w A p.toNat).1 ∧
      Tracks (ReplayWindow.checkAndUpdate (ε := ε) W p s).2 (Replay.filter w A p.toNat).2 := by
  have hmax := ht.highest_eq
  by_cases h0 : p = 0#n
  · subst h0
    have hn : ¬ Replay.Admits w A (0#n).toNat := fun h => h.1 (by simp)
    have hc : ReplayWindow.checkAndUpdate (ε := ε) W 0#n s = (.ok false, s) := by
      simp [ReplayWindow.checkAndUpdate, bind_apply]
    rw [Replay.filter_false hn, hc]
    exact ⟨rfl, ht⟩
  have hne : p.toNat ≠ 0 := fun h => h0 (BitVec.eq_of_toNat_eq (by simpa using h))
  by_cases hlt : s.highest < p
  · have hlt' : s.highest.toNat < p.toNat := BitVec.lt_def.mp hlt
    have ha : Replay.Admits w A p.toNat := ⟨hne, ht.notMem_of_lt hlt', by omega⟩
    rw [checkAndUpdate_ahead hlt, Replay.filter_true ha, hW]
    by_cases hj : p.toNat - s.highest.toNat ≥ w
    · have hjump : s.highest.toNat + w ≤ p.toNat := by omega
      rw [if_pos hj]
      exact ⟨rfl, BitWindow.Tracks.jump ht hjump hw⟩
    · have hin : p.toNat - s.highest.toNat < w := by omega
      rw [if_neg hj, if_pos hin]
      exact ⟨rfl, BitWindow.Tracks.advance ht hlt' hin⟩
  · have hle : p ≤ s.highest := BitVec.not_lt.mp hlt
    have hle' : p.toNat ≤ s.highest.toNat := BitVec.le_def.mp hle
    rw [checkAndUpdate_behind h0 hle, hW]
    by_cases hold : s.highest.toNat - p.toNat ≥ w
    · have hn : ¬ Replay.Admits w A p.toNat := fun h => by have := h.2.2; omega
      rw [if_pos hold, Replay.filter_false hn]
      exact ⟨rfl, ht⟩
    · have hin : s.highest.toNat - p.toNat < w := by omega
      have hbit := BitWindow.Tracks.clear_iff ht hle' hne hin
      rw [if_neg hold, if_pos hin]
      cases hb : s.bitmap.getLsbD (s.highest.toNat - p.toNat) with
      | true =>
        have hn : ¬ Replay.Admits w A p.toNat := fun h => by
          simp [hbit.mpr h.2.1] at hb
        rw [if_pos rfl, Replay.filter_false hn]
        exact ⟨rfl, ht⟩
      | false =>
        have ha : Replay.Admits w A p.toNat := ⟨hne, hbit.mp hb, by omega⟩
        rw [if_neg Bool.false_ne_true, Replay.filter_true ha]
        exact ⟨rfl, BitWindow.Tracks.mark ht hle' hne hin⟩

end CoreVpn.Crypto.Replay
