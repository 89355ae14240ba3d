import Mathlib.Data.Finset.Card
import CoreVpn.Lib.Wire
import CoreVpn.Protocol.Errors

namespace CoreVpn.Protocol.Reliable

open Lib.Computation Lib.Wire Errors

abbrev Instant := Nat
abbrev Duration := Nat

abbrev BTreeMap (α : Type) := Std.ExtTreeMap UInt32 α

/-- The floating-point time arithmetic the transport relies on: the backed-off
and capped retransmit timeout, and the two smoothing formulas for the RTT. -/
structure FloatTime where
  backoff : (rto maxRto : Duration) → Duration
  smoothRttvar : (rttvar diff : Duration) → Duration
  smoothSrtt : (srtt rtt : Duration) → Duration

structure ReliableConfig where
  initialRto : Duration := 2000000000
  maxRto : Duration := 60000000000
  maxRetransmits : UInt32 := 10
  windowSize : UInt32 := 8
  ackDelay : Duration := 100000000

structure PendingPacket where
  data : Bytes
  sentAt : Instant
  nextRetransmit : Instant
  rto : Duration
  retransmits : UInt32

structure ReliableTransport where
  config : ReliableConfig
  nextSendId : UInt32
  nextRecvId : UInt32
  pending : BTreeMap PendingPacket
  pendingAcks : List UInt32
  outOfOrder : BTreeMap Bytes
  lastAckSent : Option Instant
  srtt : Option Duration
  rttvar : Duration

namespace ReliableTransport

def new (config : ReliableConfig) : ReliableTransport where
  config := config
  nextSendId := 0
  nextRecvId := 0
  pending := ∅
  pendingAcks := []
  outOfOrder := ∅
  lastAckSent := none
  srtt := none
  rttvar := 500000000

def calculateRto (t : ReliableTransport) : Duration :=
  match t.srtt with
  | some srtt => min (max (srtt + t.rttvar * 4) t.config.initialRto) t.config.maxRto
  | none => t.config.initialRto

def updateRtt (F : FloatTime) (rtt : Duration) (t : ReliableTransport) : ReliableTransport :=
  match t.srtt with
  | some srtt =>
    { t with
      rttvar := F.smoothRttvar t.rttvar (max rtt srtt - min rtt srtt)
      srtt := some (F.smoothSrtt srtt rtt) }
  | none => { t with srtt := some rtt, rttvar := rtt / 2 }

def send (now : Instant) (data : Bytes) :
    Program ReliableTransport ProtocolError (UInt32 × Bytes) := do
  let self ← get
  if self.pending.size ≥ self.config.windowSize.toNat then
    fail (.invalidPacket "send window full")
  else
    let rto := self.calculateRto
    let packet : PendingPacket :=
      { data, sentAt := now, nextRetransmit := now + rto, rto, retransmits := 0 }
    modify fun t => { t with
      nextSendId := t.nextSendId + 1
      pending := t.pending.insert self.nextSendId packet }
    return (self.nextSendId, data)

def maxOutOfOrder : Nat := 100

/-- The loop that runs once the expected packet has come in: the buffered
successors are removed and counted as received. Their payloads are dropped, as
in the source. Each turn removes an entry, so the buffer size bounds the turns. -/
def drain : Nat → ReliableTransport → ReliableTransport
  | 0, t => t
  | fuel + 1, t =>
    match t.outOfOrder[t.nextRecvId]? with
    | none => t
    | some _ => drain fuel { t with
        nextRecvId := t.nextRecvId + 1
        outOfOrder := t.outOfOrder.erase t.nextRecvId }

def receive (packetId : UInt32) (data : Bytes) :
    Program ReliableTransport ProtocolError (Option Bytes) := do
  modify fun t => { t with pendingAcks := t.pendingAcks ++ [packetId] }
  let self ← get
  if packetId = self.nextRecvId then
    modify fun t => { t with nextRecvId := t.nextRecvId + 1 }
    modify fun t => drain t.outOfOrder.size t
    return some data
  else if packetId > self.nextRecvId then
    if self.outOfOrder.size ≥ maxOutOfOrder then
      fail (.invalidPacket "too many out-of-order packets")
    else
      modify fun t => { t with outOfOrder := t.outOfOrder.insert packetId data }
      return none
  else
    return none

def processAck (F : FloatTime) (now : Instant) (t : ReliableTransport) (ackId : UInt32) :
    ReliableTransport :=
  match t.pending[ackId]? with
  | some packet =>
    let t := { t with pending := t.pending.erase ackId }
    if packet.retransmits = 0 then t.updateRtt F (now - packet.sentAt) else t
  | none => t

def processAcks (F : FloatTime) (now : Instant) (acks : List UInt32) (t : ReliableTransport) :
    ReliableTransport := acks.foldl (processAck F now) t

def getAcks (t : ReliableTransport) : List UInt32 × ReliableTransport :=
  (t.pendingAcks, { t with pendingAcks := [] })

def shouldSendAck (now : Instant) (t : ReliableTransport) : Bool :=
  if t.pendingAcks.isEmpty then false
  else match t.lastAckSent with
    | some last => decide (now - last ≥ t.config.ackDelay)
    | none => true

def ackSent (now : Instant) (t : ReliableTransport) : ReliableTransport :=
  { t with lastAckSent := some now }

/-- A pending packet is sent again when its timer has run out and it has
retransmissions left. -/
def isDue (config : ReliableConfig) (now : Instant) (packet : PendingPacket) : Bool :=
  decide (now ≥ packet.nextRetransmit) && decide (packet.retransmits < config.maxRetransmits)

def resend (F : FloatTime) (config : ReliableConfig) (now : Instant) (packet : PendingPacket) :
    PendingPacket :=
  let rto := F.backoff packet.rto config.maxRto
  { packet with retransmits := packet.retransmits + 1, rto, nextRetransmit := now + rto }

def getRetransmits (F : FloatTime) (now : Instant) (t : ReliableTransport) :
    List (UInt32 × Bytes) × ReliableTransport :=
  ((t.pending.toList.filter fun p => isDue t.config now p.2).map fun p => (p.1, p.2.data),
    { t with pending := t.pending.map fun _ packet =>
        if isDue t.config now packet then resend F t.config now packet else packet })

end ReliableTransport

end CoreVpn.Protocol.Reliable
