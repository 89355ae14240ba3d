import CoreVpn.Config.Addresses
import CoreVpn.Server.Events

namespace CoreVpn.ConnectionLog.Anonymizers

open Lib.Wire Lib.Text Core.Networks Config.Addresses Server.Events

structure ConnectionLogAnonymization where
  hashClientIps : Bool := false
  truncateClientIps : Bool := false
  hashUsernames : Bool := false
  roundTimestamps : Bool := false
  aggregateTransferStats : Bool := false
  deriving DecidableEq

def isLeapYear (year : Int) : Bool := year % 4 == 0 && (year % 100 != 0 || year % 400 == 0)

/-- A day of the calendar, by its year and its number in the year. -/
structure Date where
  year : Int
  ordinal : Nat
  ordinal_pos : 0 < ordinal
  ordinal_le : ordinal ≤ if isLeapYear year then 366 else 365
  deriving DecidableEq

/-- SHA-256, and HMAC-SHA256, which takes a key and the data. -/
structure Hashes where
  sha256 : Bytes → ByteVec 32
  hmac : Bytes → Bytes → ByteVec 32

structure Anonymizer where
  config : ConnectionLogAnonymization
  dailySalt : ByteVec 32
  currentDay : UInt32
  instanceSecret : ByteVec 32
  deriving DecidableEq

def toLe32 (n : UInt32) : Bytes := [n.toUInt8, (n >>> 8).toUInt8, (n >>> 16).toUInt8, (n >>> 24).toUInt8]

def fromLe64 (data : Bytes) : UInt64 := (data.take 8).foldr (fun byte n => n <<< 8 ||| byte.toUInt64) 0

section Salt

variable (H : Hashes)

def saltInput (day : UInt32) (instanceSecret : ByteVec 32) : Bytes :=
  instanceSecret.toList ++ toLe32 day ++ asBytes "corevpn-anonymizer-salt"

def generateSalt (day : UInt32) (instanceSecret : ByteVec 32) : ByteVec 32 := H.sha256 (saltInput day instanceSecret)

def Date.day (date : Date) : UInt32 := UInt32.ofNat date.ordinal

/-- The secret is drawn at random. Of the time only the day is read. -/
def Anonymizer.new (config : ConnectionLogAnonymization) (today : Date) (instanceSecret : ByteVec 32) : Anonymizer where
  config := config
  dailySalt := generateSalt H today.day instanceSecret
  currentDay := today.day
  instanceSecret := instanceSecret

def rotateSaltIfNeeded (today : Date) (a : Anonymizer) : Anonymizer :=
  if today.day ≠ a.currentDay then
    { a with dailySalt := generateSalt H today.day a.instanceSecret, currentDay := today.day }
  else a

end Salt

section Timestamps

def minute : Nat := 60 * 1000000000

def withMinute (value : Nat) (t : Timestamp) : Option Timestamp :=
  if value < 60 then some (t - t / minute % 60 * minute + value * minute) else none

def withSecond (value : Nat) (t : Timestamp) : Option Timestamp :=
  if value < 60 then some (t - t / 1000000000 % 60 * 1000000000 + value * 1000000000) else none

def withNanosecond (value : Nat) (t : Timestamp) : Option Timestamp :=
  if value < 2000000000 then some (t - t % 1000000000 + value) else none

def anonymizeTimestamp (config : ConnectionLogAnonymization) (timestamp : Timestamp) : Timestamp :=
  if config.roundTimestamps then
    (((withMinute 0 timestamp).bind (withSecond 0)).bind (withNanosecond 0)).getD timestamp
  else timestamp

end Timestamps

section Addresses

variable (H : Hashes)

def octets (addr : Ipv4Addr) : Bytes := (List.range 4).map fun i => UInt8.ofNat (octet addr i)

def octetsV6 (addr : Ipv6Addr) : Bytes := (List.range 16).map fun i => UInt8.ofNat (addr >>> (120 - 8 * i)).toNat

def ofOctetsV6 (data : Bytes) : Ipv6Addr := BitVec.ofNat 128 (data.foldl (fun n byte => n * 256 + byte.toNat) 0)

def segments (addr : Ipv6Addr) (i : Nat) : Nat := (addr >>> (112 - 16 * i)).toNat % 65536

/-- What is hashed of an address. Those of the shorter family are filled up. -/
def ipBytes : IpAddr → Bytes
  | .v4 addr => octets addr ++ List.replicate 12 0
  | .v6 addr => octetsV6 addr

def hashIp (salt : ByteVec 32) (addr : IpAddr) : IpAddr :=
  let hash := fromLe64 (H.hmac salt.toList (ipBytes addr)).toList
  match addr with
  | .v4 _ => .v4 (ofOctets 0 (hash >>> 8).toUInt8 (hash >>> 16).toUInt8 (hash >>> 24).toUInt8)
  | .v6 _ => .v6 (ofOctetsV6 [0x20, 0x01, 0x0d, 0xb8, (hash >>> 32).toUInt8, (hash >>> 40).toUInt8,
      (hash >>> 48).toUInt8, (hash >>> 56).toUInt8, hash.toUInt8, (hash >>> 8).toUInt8, (hash >>> 16).toUInt8,
      (hash >>> 24).toUInt8, 0, 0, 0, 0])

def truncateIp : IpAddr → IpAddr
  | .v4 addr =>
    .v4 (ofOctets (UInt8.ofNat (octet addr 0)) (UInt8.ofNat (octet addr 1)) (UInt8.ofNat (octet addr 2)) 0)
  | .v6 addr => .v6 (ofGroups [segments addr 0, segments addr 1, segments addr 2, 0, 0, 0, 0, 0])

def socketAddr (addr : IpAddr) (port : UInt16) : SocketAddr :=
  match addr with
  | .v4 addr => .v4 addr port
  | .v6 addr => .v6 addr port 0 0

/-- The port is left out whatever the configuration. -/
def anonymizeSocketAddr (a : Anonymizer) (addr : SocketAddr) : SocketAddr :=
  let addr :=
    if a.config.hashClientIps then hashIp H a.dailySalt (ip addr)
    else if a.config.truncateClientIps then truncateIp (ip addr)
    else ip addr
  socketAddr addr 0

end Addresses

section Events

variable (H : Hashes)

def anonymizeUsername (a : Anonymizer) (username : Option String) : Option String :=
  if a.config.hashUsernames then
    username.map fun user =>
      "user_" ++ hexPadded 16 (fromLe64 (H.hmac a.dailySalt.toList (asBytes user)).toList).toNat
  else username

def bucket (bytes : UInt64) : UInt64 :=
  if bytes ≤ 1023 then 512
  else if bytes ≤ 10239 then 5 * 1024
  else if bytes ≤ 102399 then 50 * 1024
  else if bytes ≤ 1048575 then 500 * 1024
  else if bytes ≤ 10485759 then 5 * 1024 * 1024
  else if bytes ≤ 104857599 then 50 * 1024 * 1024
  else if bytes ≤ 1073741823 then 500 * 1024 * 1024
  else 1024 * 1024 * 1024

def anonymizeStats (config : ConnectionLogAnonymization) (stats : Option TransferStats) : Option TransferStats :=
  if config.aggregateTransferStats then
    stats.map fun s => { bytesRx := bucket s.bytesRx, bytesTx := bucket s.bytesTx, packetsRx := 0, packetsTx := 0 }
  else stats

def anonymized (a : Anonymizer) : ConnectionEvent → ConnectionEvent
  | .connectionAttempt id timestamp clientAddr protocolVersion =>
    .connectionAttempt id (anonymizeTimestamp a.config timestamp) (anonymizeSocketAddr H a clientAddr) protocolVersion
  | .authentication id timestamp clientAddr username authMethod result _ =>
    .authentication id (anonymizeTimestamp a.config timestamp) (anonymizeSocketAddr H a clientAddr)
      (anonymizeUsername H a username) authMethod result none
  | .connected id timestamp clientAddr username vpnIp authMethod _ =>
    .connected id (anonymizeTimestamp a.config timestamp) (anonymizeSocketAddr H a clientAddr)
      (anonymizeUsername H a username) vpnIp authMethod none
  | .disconnected id timestamp clientAddr username reason duration stats =>
    .disconnected id (anonymizeTimestamp a.config timestamp) (anonymizeSocketAddr H a clientAddr)
      (anonymizeUsername H a username) reason duration (anonymizeStats a.config stats)
  | .ipChange id timestamp oldAddr newAddr username =>
    .ipChange id (anonymizeTimestamp a.config timestamp) (anonymizeSocketAddr H a oldAddr)
      (anonymizeSocketAddr H a newAddr) (anonymizeUsername H a username)
  | .renegotiation id timestamp clientAddr success =>
    .renegotiation id (anonymizeTimestamp a.config timestamp) (anonymizeSocketAddr H a clientAddr) success

def anonymize (today : Date) (event : ConnectionEvent) (a : Anonymizer) : ConnectionEvent × Anonymizer :=
  let a := rotateSaltIfNeeded H today a
  (anonymized H a event, a)

end Events

end CoreVpn.ConnectionLog.Anonymizers
