import Mathlib.Logic.Relation
import CoreVpn.Protocol.TlsHandlers

namespace CoreVpn.Protocol.TlsFrames

open Lib.Computation Lib.Wire Errors TlsHandlers

variable {C : Type}

/-- One thing that can happen to a handler: an operation of the library, a
change of the bytes collected, or the note that the handshake is over. -/
inductive Operation (E : TlsEngine C) : TlsHandler C → TlsHandler C → Prop
  | collect (s : TlsHandler C) (incoming : Bytes) : Operation E s { s with incoming }
  | readTls (s : TlsHandler C) (bytes : Bytes) : Operation E s { s with conn := (E.readTls bytes s.conn).2 }
  | processNewPackets (s : TlsHandler C) : Operation E s { s with conn := (E.processNewPackets s.conn).2 }
  | writeTls (s : TlsHandler C) : Operation E s { s with conn := (E.writeTls s.conn).2 }
  | read (s : TlsHandler C) (limit : Nat) : Operation E s { s with conn := (E.read limit s.conn).2 }
  | write (s : TlsHandler C) (data : Bytes) : Operation E s { s with conn := (E.write data s.conn).2 }
  | complete (s : TlsHandler C) (h : E.isHandshaking s.conn = false) :
      Operation E s { s with handshakeComplete := true }

def Works (E : TlsEngine C) : TlsHandler C → TlsHandler C → Prop := Relation.ReflTransGen (Operation E)

instance (E : TlsEngine C) : IsPreorder (TlsHandler C) (Works E) where
  refl _ := .refl
  trans _ _ _ h h' := h.trans h'

variable {E : TlsEngine C} {s t : TlsHandler C}

theorem Works.induct {P : TlsHandler C → Prop} (hstep : ∀ {s t}, Operation E s t → P s → P t)
    (h : Works E s t) (hs : P s) : P t := by
  induction h with
  | refl => exact hs
  | tail _ hop ih => exact hstep hop ih

theorem Works.handshakeComplete (h : Works E s t) (hs : s.handshakeComplete = true) :
    t.handshakeComplete = true := by
  refine h.induct (P := fun s => s.handshakeComplete = true) (fun hop hs => ?_) hs
  cases hop with
  | complete => rfl
  | _ => exact hs

theorem works_getOutgoing : Frames (Works E) (TlsHandler.getOutgoing E) := by
  refine frames_bind (fun s => .single (.writeTls s)) fun result => ?_
  split
  · exact frames_pure _
  · exact frames_pure _
  · exact frames_lift _

theorem works_readPlaintext (limit : Nat) : Frames (Works E) (TlsHandler.readPlaintext E limit) := by
  refine frames_bind (fun s => .single (.read s limit)) fun result => ?_
  split
  · exact frames_pure _
  · exact frames_pure _
  · exact frames_lift _

theorem works_writePlaintext (data : Bytes) : Frames (Works E) (TlsHandler.writePlaintext E data) := by
  refine frames_bind (fun s => .single (.write s data)) fun result => ?_
  split
  · exact frames_pure _
  · exact frames_lift _

theorem works_readIncoming : Frames (Works E) (TlsHandler.readIncoming E) := by
  refine frames_bind frames_get fun self => frames_bind (fun s => .single (.readTls s _)) fun result => ?_
  split
  · split
    · exact frames_modify fun s => .single (.collect s _)
    · exact frames_lift _
  · exact frames_pure _
  · exact frames_lift _

theorem works_processTlsRecords (records : List Bytes) :
    Frames (Works E) (TlsHandler.processTlsRecords E records) := by
  refine frames_bind (frames_modify fun s => .single (.collect s _)) fun _ => ?_
  refine frames_bind works_readIncoming fun _ => ?_
  refine frames_bind (fun s => .single (.processNewPackets s)) fun result => ?_
  split
  · refine frames_modify fun s => ?_
    split
    · rename_i hdone
      exact .single (.complete s (by simpa using (Bool.and_eq_true_iff.mp hdone).2))
    · exact .refl
  · exact frames_lift _

end CoreVpn.Protocol.TlsFrames
