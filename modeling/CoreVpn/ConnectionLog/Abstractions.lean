import CoreVpn.ConnectionLog.Anonymizers

namespace CoreVpn.ConnectionLog.Abstractions

open Lib.Wire Lib.Text Core.Networks Config.Addresses Server.Events Anonymizers

variable (H : Hashes)

def SameHour (t t' : Timestamp) : Prop := t / (60 * minute) = t' / (60 * minute)

/-- Two addresses of one network of the size that truncation keeps. -/
def SamePrefix : IpAddr → IpAddr → Prop
  | .v4 addr, .v4 addr' => addr >>> 8 = addr' >>> 8
  | .v6 addr, .v6 addr' => addr >>> 80 = addr' >>> 80
  | _, _ => False

def SameFamily : IpAddr → IpAddr → Prop
  | .v4 _, .v4 _ => True
  | .v6 _, .v6 _ => True
  | _, _ => False

/-- The sizes from which on a number of bytes is told from smaller ones. -/
def thresholds : List Nat := [1024, 10240, 102400, 1048576, 10485760, 104857600, 1073741824]

def sizeClass (bytes : UInt64) : Nat := thresholds.countP fun size => decide (size ≤ bytes.toNat)

section Fields

variable (config : ConnectionLogAnonymization) (salt : ByteVec 32)

def TimestampsAgree (t t' : Timestamp) : Prop := if config.roundTimestamps then SameHour t t' else t = t'

def AddressesAgree (addr addr' : IpAddr) : Prop :=
  if config.hashClientIps then
    H.hmac salt.toList (ipBytes addr) = H.hmac salt.toList (ipBytes addr') ∧ SameFamily addr addr'
  else if config.truncateClientIps then SamePrefix addr addr'
  else addr = addr'

def UsernamesAgree (username username' : Option String) : Prop :=
  if config.hashUsernames then
    username.map (fun user => H.hmac salt.toList (asBytes user)) =
      username'.map fun user => H.hmac salt.toList (asBytes user)
  else username = username'

def StatsAgree (stats stats' : Option TransferStats) : Prop :=
  if config.aggregateTransferStats then
    stats.map (fun s => (sizeClass s.bytesRx, sizeClass s.bytesTx)) =
      stats'.map fun s => (sizeClass s.bytesRx, sizeClass s.bytesTx)
  else stats = stats'

/-- Two events of one kind that differ in nothing but what the configuration hides. -/
inductive Agree : ConnectionEvent → ConnectionEvent → Prop
  | connectionAttempt {id t t' addr addr' protocolVersion} (ht : TimestampsAgree config t t')
      (haddr : AddressesAgree H config salt (ip addr) (ip addr')) :
      Agree (.connectionAttempt id t addr protocolVersion) (.connectionAttempt id t' addr' protocolVersion)
  | authentication {id t t' addr addr' user user' method result details details'} (ht : TimestampsAgree config t t')
      (haddr : AddressesAgree H config salt (ip addr) (ip addr')) (huser : UsernamesAgree H config salt user user') :
      Agree (.authentication id t addr user method result details) (.authentication id t' addr' user' method result details')
  | connected {id t t' addr addr' user user' vpnIp method info info'} (ht : TimestampsAgree config t t')
      (haddr : AddressesAgree H config salt (ip addr) (ip addr')) (huser : UsernamesAgree H config salt user user') :
      Agree (.connected id t addr user vpnIp method info) (.connected id t' addr' user' vpnIp method info')
  | disconnected {id t t' addr addr' user user' reason duration stats stats'} (ht : TimestampsAgree config t t')
      (haddr : AddressesAgree H config salt (ip addr) (ip addr')) (huser : UsernamesAgree H config salt user user')
      (hstats : StatsAgree config stats stats') :
      Agree (.disconnected id t addr user reason duration stats) (.disconnected id t' addr' user' reason duration stats')
  | ipChange {id t t' old old' new new' user user'} (ht : TimestampsAgree config t t')
      (hold : AddressesAgree H config salt (ip old) (ip old')) (hnew : AddressesAgree H config salt (ip new) (ip new'))
      (huser : UsernamesAgree H config salt user user') :
      Agree (.ipChange id t old new user) (.ipChange id t' old' new' user')
  | renegotiation {id t t' addr addr' success} (ht : TimestampsAgree config t t')
      (haddr : AddressesAgree H config salt (ip addr) (ip addr')) :
      Agree (.renegotiation id t addr success) (.renegotiation id t' addr' success)

end Fields

section Timestamps

theorem hour_eq {t u v : Nat} (hu : u = t - t / 60000000000 % 60 * 60000000000)
    (hv : v = u - u / 1000000000 % 60 * 1000000000) :
    v - v % 1000000000 = t / 3600000000000 * 3600000000000 := by
  omega

theorem round_eq (t : Timestamp) :
    (((withMinute 0 t).bind (withSecond 0)).bind (withNanosecond 0)).getD t = t / (60 * minute) * (60 * minute) := by
  have hminute : withMinute 0 t = some (t - t / minute % 60 * minute) := by
    rw [withMinute, if_pos (by decide), Nat.zero_mul, Nat.add_zero]
  have hsecond : ∀ u, withSecond 0 u = some (u - u / 1000000000 % 60 * 1000000000) := by
    intro u
    rw [withSecond, if_pos (by decide), Nat.zero_mul, Nat.add_zero]
  have hnanosecond : ∀ u, withNanosecond 0 u = some (u - u % 1000000000) := by
    intro u
    rw [withNanosecond, if_pos (by decide), Nat.add_zero]
  rw [hminute, Option.bind_some, hsecond, Option.bind_some, hnanosecond, Option.getD_some]
  exact hour_eq rfl rfl

theorem anonymizeTimestamp_eq {config : ConnectionLogAnonymization} {t t' : Timestamp}
    (h : TimestampsAgree config t t') : anonymizeTimestamp config t = anonymizeTimestamp config t' := by
  rw [TimestampsAgree] at h
  rw [anonymizeTimestamp, anonymizeTimestamp]
  split
  · rename_i hround
    rw [if_pos hround, SameHour] at h
    rw [round_eq, round_eq, h]
  · rename_i hexact
    rwa [if_neg hexact] at h

end Timestamps

section Addresses

theorem octet_eq {addr addr' : Ipv4Addr} (h : addr >>> 8 = addr' >>> 8) {i : Nat} (hi : i < 3) :
    octet addr i = octet addr' i := by
  have hshift : ∀ a : Ipv4Addr, a >>> (24 - 8 * i) = a >>> 8 >>> (16 - 8 * i) := by
    intro a
    rw [← BitVec.shiftRight_add]
    congr 1
    omega
  rw [octet, octet, hshift, hshift, h]

theorem segments_eq {addr addr' : Ipv6Addr} (h : addr >>> 80 = addr' >>> 80) {i : Nat} (hi : i < 3) :
    segments addr i = segments addr' i := by
  have hshift : ∀ a : Ipv6Addr, a >>> (112 - 16 * i) = a >>> 80 >>> (32 - 16 * i) := by
    intro a
    rw [← BitVec.shiftRight_add]
    congr 1
    omega
  rw [segments, segments, hshift, hshift, h]

theorem truncateIp_eq {addr addr' : IpAddr} (h : SamePrefix addr addr') : truncateIp addr = truncateIp addr' := by
  cases addr with
  | v4 a =>
    cases addr' with
    | v4 b =>
      rw [truncateIp, truncateIp, octet_eq h (i := 0) (by decide), octet_eq h (i := 1) (by decide),
        octet_eq h (i := 2) (by decide)]
    | v6 b => cases h
  | v6 a =>
    cases addr' with
    | v4 b => cases h
    | v6 b =>
      rw [truncateIp, truncateIp, segments_eq h (i := 0) (by decide), segments_eq h (i := 1) (by decide),
        segments_eq h (i := 2) (by decide)]

variable {H}

theorem hashIp_eq {salt : ByteVec 32} {addr addr' : IpAddr}
    (hhash : H.hmac salt.toList (ipBytes addr) = H.hmac salt.toList (ipBytes addr'))
    (hfamily : SameFamily addr addr') : hashIp H salt addr = hashIp H salt addr' := by
  cases addr with
  | v4 a =>
    cases addr' with
    | v4 b => simp only [hashIp, hhash]
    | v6 b => cases hfamily
  | v6 a =>
    cases addr' with
    | v4 b => cases hfamily
    | v6 b => simp only [hashIp, hhash]

theorem anonymizeSocketAddr_eq {a : Anonymizer} {addr addr' : SocketAddr}
    (h : AddressesAgree H a.config a.dailySalt (ip addr) (ip addr')) :
    anonymizeSocketAddr H a addr = anonymizeSocketAddr H a addr' := by
  rw [AddressesAgree] at h
  rw [anonymizeSocketAddr, anonymizeSocketAddr]
  split
  · rename_i hhashed
    rw [if_pos hhashed] at h
    rw [hashIp_eq h.1 h.2]
  · rename_i hplain
    rw [if_neg hplain] at h
    split
    · rename_i htruncated
      rw [if_pos htruncated] at h
      rw [truncateIp_eq h]
    · rename_i hkept
      rw [if_neg hkept] at h
      rw [h]

end Addresses

section Others

variable {H}

theorem anonymizeUsername_eq {a : Anonymizer} {user user' : Option String}
    (h : UsernamesAgree H a.config a.dailySalt user user') : anonymizeUsername H a user = anonymizeUsername H a user' := by
  rw [UsernamesAgree] at h
  rw [anonymizeUsername, anonymizeUsername]
  split
  · rename_i hhashed
    rw [if_pos hhashed] at h
    have hname := congrArg (Option.map fun hash : ByteVec 32 => "user_" ++ hexPadded 16 (fromLe64 hash.toList).toNat) h
    simpa only [Option.map_map, Function.comp_def] using hname
  · rename_i hplain
    rwa [if_neg hplain] at h

def classValues : List UInt64 :=
  [512, 5 * 1024, 50 * 1024, 500 * 1024, 5 * 1024 * 1024, 50 * 1024 * 1024, 500 * 1024 * 1024, 1024 * 1024 * 1024]

theorem bucket_eq (bytes : UInt64) : bucket bytes = classValues.getD (sizeClass bytes) 0 := by
  have hclass : sizeClass bytes = sizeClass bytes := rfl
  conv_rhs at hclass => simp only [sizeClass, thresholds, List.countP_cons, List.countP_nil, decide_eq_true_eq]
  generalize sizeClass bytes = c at hclass
  simp only [bucket, UInt64.le_iff_toNat_le, UInt64.reduceToNat]
  generalize bytes.toNat = n at hclass
  split_ifs <;> simp (disch := omega) only [if_pos, if_neg] at hclass <;> rw [hclass] <;> rfl

theorem anonymizeStats_eq {config : ConnectionLogAnonymization} {stats stats' : Option TransferStats}
    (h : StatsAgree config stats stats') : anonymizeStats config stats = anonymizeStats config stats' := by
  rw [StatsAgree] at h
  rw [anonymizeStats, anonymizeStats]
  split
  · rename_i haggregated
    rw [if_pos haggregated] at h
    have hvalues := congrArg (Option.map fun classes : Nat × Nat =>
      ({ bytesRx := classValues.getD classes.1 0, bytesTx := classValues.getD classes.2 0 } : TransferStats)) h
    simpa only [Option.map_map, Function.comp_def, ← bucket_eq] using hvalues
  · rename_i hexact
    rwa [if_neg hexact] at h

end Others

theorem config_rotateSaltIfNeeded (today : Date) (a : Anonymizer) :
    (rotateSaltIfNeeded H today a).config = a.config := by
  rw [rotateSaltIfNeeded]
  split <;> rfl

section Runs

variable {H}

theorem anonymized_congr {a a' : Anonymizer} (hconfig : a'.config = a.config) (hsalt : a'.dailySalt = a.dailySalt)
    (event : ConnectionEvent) : anonymized H a' event = anonymized H a event := by
  have haddr : ∀ addr, anonymizeSocketAddr H a' addr = anonymizeSocketAddr H a addr := by
    intro addr
    rw [anonymizeSocketAddr, anonymizeSocketAddr, hconfig, hsalt]
  have huser : ∀ user, anonymizeUsername H a' user = anonymizeUsername H a user := by
    intro user
    rw [anonymizeUsername, anonymizeUsername, hconfig, hsalt]
  cases event <;> simp only [anonymized, haddr, huser, hconfig]

theorem anonymized_eq {a : Anonymizer} {event event' : ConnectionEvent}
    (h : Agree H a.config a.dailySalt event event') : anonymized H a event = anonymized H a event' := by
  cases h with
  | connectionAttempt ht haddr =>
    rw [anonymized, anonymized, anonymizeTimestamp_eq ht, anonymizeSocketAddr_eq haddr]
  | authentication ht haddr huser =>
    rw [anonymized, anonymized, anonymizeTimestamp_eq ht, anonymizeSocketAddr_eq haddr, anonymizeUsername_eq huser]
  | connected ht haddr huser =>
    rw [anonymized, anonymized, anonymizeTimestamp_eq ht, anonymizeSocketAddr_eq haddr, anonymizeUsername_eq huser]
  | disconnected ht haddr huser hstats =>
    rw [anonymized, anonymized, anonymizeTimestamp_eq ht, anonymizeSocketAddr_eq haddr, anonymizeUsername_eq huser,
      anonymizeStats_eq hstats]
  | ipChange ht hold hnew huser =>
    rw [anonymized, anonymized, anonymizeTimestamp_eq ht, anonymizeSocketAddr_eq hold, anonymizeSocketAddr_eq hnew,
      anonymizeUsername_eq huser]
  | renegotiation ht haddr =>
    rw [anonymized, anonymized, anonymizeTimestamp_eq ht, anonymizeSocketAddr_eq haddr]

end Runs

/-- Events that agree up to what the configuration hides are the same once they
are anonymized with one salt, whenever and by whichever anonymizer that is done. -/
theorem anonymized_events_equal {today today' : Date} {a a' : Anonymizer} {event event' : ConnectionEvent}
    (hconfig : a'.config = a.config)
    (hsalt : (rotateSaltIfNeeded H today' a').dailySalt = (rotateSaltIfNeeded H today a).dailySalt)
    (h : Agree H a.config (rotateSaltIfNeeded H today a).dailySalt event event') :
    (anonymize H today event a).1 = (anonymize H today' event' a').1 := by
  have hconfigs : (rotateSaltIfNeeded H today' a').config = (rotateSaltIfNeeded H today a).config := by
    rw [config_rotateSaltIfNeeded, config_rotateSaltIfNeeded, hconfig]
  rw [← config_rotateSaltIfNeeded H today a] at h
  calc (anonymize H today event a).1
      = anonymized H (rotateSaltIfNeeded H today a) event := rfl
    _ = anonymized H (rotateSaltIfNeeded H today a) event' := anonymized_eq h
    _ = anonymized H (rotateSaltIfNeeded H today' a') event' := (anonymized_congr hconfigs hsalt event').symm

def sampleHashes : Hashes := ⟨fun _ => zeros 32, fun _ _ => zeros 32⟩

def sampleDate : Date := ⟨2026, 15, by decide, by decide⟩

def sampleAnonymizer : Anonymizer :=
  Anonymizer.new sampleHashes { truncateClientIps := true, roundTimestamps := true, aggregateTransferStats := true }
    sampleDate (zeros 32)

def sampleEvent (minutes : Nat) (host : UInt8) (port : UInt16) (bytes : UInt64) : ConnectionEvent :=
  .disconnected 1 ((60 * 500000 + minutes) * minute) (.v4 (ofOctets 192 0 2 host) port) (some "alice")
    .clientDisconnect 300 (some { bytesRx := bytes, packetsRx := bytes / 100 })

theorem sample_events_equal :
    Agree sampleHashes sampleAnonymizer.config
        (rotateSaltIfNeeded sampleHashes sampleDate sampleAnonymizer).dailySalt
        (sampleEvent 5 7 1194 2000) (sampleEvent 55 99 40000 9000) ∧
      (anonymize sampleHashes sampleDate (sampleEvent 5 7 1194 2000) sampleAnonymizer).1 =
        (anonymize sampleHashes sampleDate (sampleEvent 55 99 40000 9000) sampleAnonymizer).1 := by
  have hagree : Agree sampleHashes sampleAnonymizer.config
      (rotateSaltIfNeeded sampleHashes sampleDate sampleAnonymizer).dailySalt
      (sampleEvent 5 7 1194 2000) (sampleEvent 55 99 40000 9000) := by
    refine .disconnected ?_ ?_ ?_ ?_
    · change _ / _ = _ / _
      decide
    · have hpre : ofOctets 192 0 2 7 >>> 8 = ofOctets 192 0 2 99 >>> 8 := by decide
      exact hpre
    · exact rfl
    · change Option.map _ _ = Option.map _ _
      decide
  exact ⟨hagree, anonymized_events_equal sampleHashes rfl rfl hagree⟩

end CoreVpn.ConnectionLog.Abstractions
