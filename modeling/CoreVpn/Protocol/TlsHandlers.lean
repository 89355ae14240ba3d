import CoreVpn.Lib.Wire
import CoreVpn.Protocol.Errors

namespace CoreVpn.Protocol.TlsHandlers

open Lib.Computation Lib.Wire Errors

inductive IoError where
  | wouldBlock
  | other (reason : String)
  deriving DecidableEq, Repr

/-- The TLS library, seen from outside: `C` is the type of its server
connections. What it has to send is counted by `backlog`, and writing some of it
makes that smaller. -/
structure TlsEngine (C : Type) where
  new : Except String C
  readTls : Bytes → C → Except IoError Nat × C
  processNewPackets : C → Except String Unit × C
  isHandshaking : C → Bool
  wantsWrite : C → Bool
  writeTls : C → Except IoError Bytes × C
  read : Nat → C → Except IoError Bytes × C
  write : Bytes → C → Except IoError Nat × C
  backlog : C → Nat
  backlog_lt : ∀ {c d bytes}, writeTls c = (.ok bytes, d) → bytes ≠ [] → backlog d < backlog c

/-- A library without any cryptography, as a stand-in: the handshake is over at
once, a record's body is its plaintext, and nothing is ever sent. -/
def TlsEngine.plain : TlsEngine Bytes where
  new := .ok []
  readTls bytes c := (.ok bytes.length, c ++ bytes)
  processNewPackets c := (.ok (), c)
  isHandshaking _ := false
  wantsWrite _ := false
  writeTls c := (.ok [], c)
  read limit c := (.ok ((c.drop 5).take limit), [])
  write data c := (.ok data.length, c)
  backlog _ := 0
  backlog_lt h hne := by
    cases h
    exact absurd rfl hne

variable {C : Type}

structure TlsHandler (C : Type) where
  conn : C
  incoming : Bytes
  handshakeComplete : Bool

def tlsError {α : Type} : IoError → Outcome ProtocolError α
  | .wouldBlock => .error (.error (.tlsError "operation would block"))
  | .other reason => .error (.error (.tlsError reason))

namespace TlsHandler

def new (E : TlsEngine C) : Outcome ProtocolError (TlsHandler C) :=
  match E.new with
  | .ok conn => .ok ⟨conn, [], false⟩
  | .error reason => .error (.error (.tlsError reason))

def onConn {ε α : Type} (f : C → Except ε α × C) :
    Program (TlsHandler C) ProtocolError (Except ε α) := fun s =>
  let r := f s.conn
  (.ok r.1, { s with conn := r.2 })

/-- One read of the bytes collected so far, which need not take all of them. -/
def readIncoming (E : TlsEngine C) : Program (TlsHandler C) ProtocolError Unit := do
  let self ← get
  match ← onConn (E.readTls self.incoming) with
  | .ok n =>
    if n ≤ self.incoming.length then modify fun s => { s with incoming := s.incoming.drop n }
    else lift (.error .panic)
  | .error .wouldBlock => return ()
  | .error e => lift (tlsError e)

def processTls (E : TlsEngine C) : Program (TlsHandler C) ProtocolError Unit := do
  readIncoming E
  match ← onConn E.processNewPackets with
  | .ok () => modify fun s =>
      if !s.handshakeComplete && !E.isHandshaking s.conn then { s with handshakeComplete := true } else s
  | .error reason => lift (.error (.error (.tlsError reason)))

def processIncoming (E : TlsEngine C) (data : Bytes) : Program (TlsHandler C) ProtocolError Unit := do
  modify fun s => { s with incoming := s.incoming ++ data }
  processTls E

def processTlsRecords (E : TlsEngine C) (records : List Bytes) :
    Program (TlsHandler C) ProtocolError Unit := do
  modify fun s => { s with incoming := s.incoming ++ records.flatten }
  processTls E

def getOutgoing (E : TlsEngine C) : Program (TlsHandler C) ProtocolError (Option Bytes) := do
  match ← onConn E.writeTls with
  | .ok bytes => return if bytes.isEmpty then none else some bytes
  | .error .wouldBlock => return none
  | .error e => lift (tlsError e)

def readPlaintext (E : TlsEngine C) (limit : Nat) : Program (TlsHandler C) ProtocolError Bytes := do
  match ← onConn (E.read limit) with
  | .ok bytes => return bytes
  | .error .wouldBlock => return []
  | .error e => lift (tlsError e)

def writePlaintext (E : TlsEngine C) (data : Bytes) : Program (TlsHandler C) ProtocolError Nat := do
  match ← onConn (E.write data) with
  | .ok n => return n
  | .error e => lift (tlsError e)

end TlsHandler

/-- The handler of the client has the same fields and the same bodies, over the
client's connections. -/
abbrev TlsClientHandler := TlsHandler

namespace TlsClientHandler

def processTls (E : TlsEngine C) : Program (TlsClientHandler C) ProtocolError Unit := TlsHandler.processTls E

def processIncoming (E : TlsEngine C) (data : Bytes) : Program (TlsClientHandler C) ProtocolError Unit :=
  TlsHandler.processIncoming E data

def processTlsRecords (E : TlsEngine C) (records : List Bytes) :
    Program (TlsClientHandler C) ProtocolError Unit := TlsHandler.processTlsRecords E records

end TlsClientHandler

theorem getOutgoing_backlog {E : TlsEngine C} {s t : TlsHandler C} {bytes : Bytes}
    (h : TlsHandler.getOutgoing E s = (.ok (some bytes), t)) : E.backlog t.conn < E.backlog s.conn := by
  obtain ⟨r, u, hw, h⟩ := bind_eq_ok h
  cases hw
  cases hr : E.writeTls s.conn with
  | mk result c =>
    rw [hr] at h
    cases result with
    | ok out =>
      cases out with
      | nil => cases h
      | cons b out =>
        cases h
        exact E.backlog_lt hr (List.cons_ne_nil b out)
    | error e => cases e <;> cases h

end CoreVpn.Protocol.TlsHandlers
