import CoreVpn.Server.HandlerEffects

namespace CoreVpn.Server.SessionRelations

open Lib.Computation Lib.Wire Core.Networks Protocol.Sessions Protocol.SessionFrames Protocol.TlsHandlers
open Connections KeyExchange ControlPackets HandlerFrames HandlerEffects

variable {C : Type}

/-- A relation between sessions that stands whatever a handler does to the
session of its connection. -/
class Lasts (R : ProtocolSession → ProtocolSession → Prop) : Prop extends IsPreorder ProtocolSession R where
  setup : ∀ s t, SameSetup s t → R s t
  incoming : ∀ P clock data, Frames R (ProtocolSession.processPacket P clock data)
  setState : ∀ s now state, R s (s.setState now state)
  setCipherSuite : ∀ s suite, R s (s.setCipherSuite suite)

def OnSession (R : ProtocolSession → ProtocolSession → Prop) (s t : Ctx C) : Prop :=
  R s.conn.protocol t.conn.protocol

variable {R : ProtocolSession → ProtocolSession → Prop} [Lasts R]

instance : IsPreorder (Ctx C) (OnSession R) where
  refl s := refl_of R s.conn.protocol
  trans _ _ _ h h' := trans_of R h h'

theorem onSession_of_eq {s t : Ctx C} (h : t.conn.protocol = s.conn.protocol) : OnSession R s t := by
  rw [OnSession, h]
  exact refl_of R _

instance {E : TlsEngine C} : ThroughTls E (OnSession R) := ⟨fun _ _ _ _ _ => onSession_of_eq rfl⟩

instance : IgnoresLog (OnSession (C := C) R) := ⟨fun _ _ => onSession_of_eq rfl⟩

instance : Handled (OnSession (C := C) R) where
  session s _ h := Lasts.setup s.conn.protocol _ h
  stats _ _ := onSession_of_eq rfl
  packets _ _ := onSession_of_eq rfl
  username _ _ := onSession_of_eq rfl
  setCipherSuite s suite := Lasts.setCipherSuite s.conn.protocol suite
  conn _ _ h _ _ := onSession_of_eq h
  incoming P clock data s := Lasts.incoming P clock data s.conn.protocol
  setState s now state := Lasts.setState s.conn.protocol now state

theorem onSession_controlBody (H : Host C) (env : Env) (peerAddr : SocketAddr) (data : Bytes) :
    Frames (OnSession R) (controlBody H env peerAddr data) :=
  frames_controlBody H env peerAddr data (fun _ _ _ => onSession_of_eq rfl) fun _ _ _ => onSession_of_eq rfl

end CoreVpn.Server.SessionRelations
