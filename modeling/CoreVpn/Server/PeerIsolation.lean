import CoreVpn.Lib.Unwinding
import CoreVpn.Server.Routing

namespace CoreVpn.Server.PeerIsolation

open Lib.Computation Lib.Machine Lib.Wire Core.Networks Protocol.Errors Protocol.Opcodes Protocol.Sessions
open Protocol.TlsHandlers
open Protocol.Reliable (Duration)
open Events Connections KeyExchange ControlPackets Handlers HandlerEffects AddressLeases Routing PlainHost

variable {C : Type}

section Private

variable {α β : Type}

/-- What a handler does with a connection does not depend on what the connections share. -/
def PrivateAt (p : Handler C α) (ctx : Ctx C) : Prop :=
  ∀ addressPool pendingOauths, p { ctx with addressPool, pendingOauths } =
    ((p ctx).1, { (p ctx).2 with addressPool, pendingOauths })

def Private (p : Handler C α) : Prop := ∀ ctx, PrivateAt p ctx

theorem PrivateAt.bind {p : Handler C α} {f : α → Handler C β} {ctx : Ctx C} (hp : PrivateAt p ctx)
    (hf : ∀ a after, p ctx = (.ok a, after) → PrivateAt (f a) after) : PrivateAt (p >>= f) ctx := by
  intro addressPool pendingOauths
  rw [bind_apply, bind_apply, hp]
  cases hrun : p ctx with
  | mk result after =>
    cases result with
    | error e => rfl
    | ok a => exact hf a after hrun addressPool pendingOauths

theorem Private.bind {p : Handler C α} {f : α → Handler C β} (hp : Private p) (hf : ∀ a, Private (f a)) :
    Private (p >>= f) := fun ctx => (hp ctx).bind fun a after _ => hf a after

theorem private_pure (a : α) : Private (pure a : Handler C α) := fun _ _ _ => rfl

theorem private_lift (o : Outcome ServerError α) : Private (lift o : Handler C α) := fun _ _ _ => rfl

theorem private_onConn (f : Connection C → Connection C) : Private (onConn f) := fun _ _ _ => rfl

theorem private_sendLater (packets : List Bytes) : Private (sendLater packets : Handler C Unit) := fun _ _ _ => rfl

theorem private_logEvent (event : ConnectionEvent) : Private (logEvent event : Handler C Unit) := fun _ _ _ => rfl

theorem private_onProtocol (p : Program ProtocolSession ProtocolError α) : Private (onProtocol p : Handler C α) :=
  fun _ _ _ => rfl

theorem private_onTls (wrap : ProtocolError → ServerError) (p : Program (TlsHandler C) ProtocolError α) :
    Private (onTls wrap p) := by
  intro ctx addressPool pendingOauths
  unfold onTls
  dsimp only
  split <;> rfl

theorem private_attempt {p : Handler C α} (hp : Private p) :
    Private (attempt p : Handler C (Except ServerError α)) := by
  intro ctx addressPool pendingOauths
  unfold attempt
  rw [hp]
  cases hrun : p ctx with
  | mk result after => rcases result with ⟨⟨⟩⟩ | a <;> rfl

/-- Of the state that it reads, a handler may use the connection. -/
theorem private_get {f : Ctx C → Handler C α} (hconn : ∀ s s', s.conn = s'.conn → f s = f s')
    (hf : ∀ s, Private (f s)) : Private (get >>= f) := by
  intro ctx addressPool pendingOauths
  rw [bind_apply, bind_apply, get_apply, get_apply]
  dsimp only
  rw [hconn { ctx with addressPool, pendingOauths } ctx rfl]
  exact hf ctx ctx addressPool pendingOauths

end Private

section Bodies

variable (H : Host C) (env : Env) (peerAddr : SocketAddr)

theorem private_flush (clock : Clock) (fuel : Nat) : Private (flush H clock fuel) := by
  induction fuel with
  | zero => exact private_pure ()
  | succ fuel ih =>
    refine private_get (fun s s' h => by rw [wantsWrite, wantsWrite, h]) fun s => ?_
    split
    · refine (private_onTls _ _).bind fun out => ?_
      cases out with
      | none => exact private_pure ()
      | some tlsOut => exact (private_onProtocol _).bind fun _ => (private_sendLater _).bind fun _ => ih
    · exact private_pure ()

theorem private_flushTls (clock : Clock) : Private (flushTls H clock) :=
  private_get (fun s s' h => by rw [backlog, backlog, h]) fun _ => private_flush H clock _

theorem private_tryWrite (data : Bytes) : Private (tryWrite H data) := by
  refine (private_attempt (private_onTls _ _)).bind fun result => ?_
  cases result <;> exact private_pure _

theorem private_readKeyMethod : Private (readKeyMethod H) := by
  refine (private_attempt (private_onTls _ _)).bind fun result => ?_
  split
  · exact private_pure _
  · split
    · exact private_pure _
    · exact private_lift _
    · exact private_pure _
  · exact private_pure _

theorem private_tryKeyExchange : Private (tryKeyExchange H env) := by
  refine (private_onConn _).bind fun _ => (private_readKeyMethod H).bind fun message => ?_
  cases message with
  | none => exact private_pure _
  | some clientKm =>
    have hexchange : Private (exchangeKeys H env clientKm) :=
      (private_onConn _).bind fun _ => (private_onConn _).bind fun _ => (private_tryWrite H _).bind fun _ =>
        (private_flushTls H _).bind fun _ => private_get (fun s s' h => by rw [h]) fun _ =>
          (private_lift _).bind fun _ => (private_onProtocol _).bind fun _ => private_pure _
    exact hexchange.bind fun _ => private_pure _

theorem private_takeRecords (records : List Bytes) : Private (takeRecords H env records) := by
  refine private_get (fun s s' h => by rw [h]) fun s => ?_
  split
  · refine (private_onTls _ _).bind fun _ => (private_flushTls H _).bind fun _ => ?_
    refine private_get (fun s s' h => by rw [shouldTryKm, shouldTryKm, isHandshakeComplete, isHandshakeComplete, h])
      fun s => ?_
    split
    · exact private_tryKeyExchange H env
    · exact private_pure _
  · exact private_pure _

theorem private_intake (data : Bytes) : Private (intake H env peerAddr data) := by
  refine (private_onConn _).bind fun _ => (private_onProtocol _).bind fun packet => ?_
  cases packet with
  | tlsData records => exact private_takeRecords H env records
  | softReset =>
    refine Private.bind (private_get (fun s s' h => by rw [h]) fun s => ?_) fun _ => private_pure _
    split
    · exact private_logEvent _
    · exact private_pure _
  | _ => exact private_pure _

theorem private_answerPushRequest : Private (answerPushRequest H env) := by
  refine private_get (fun s s' h => by rw [isHandshakeComplete, isHandshakeComplete, h]) fun s => ?_
  split
  · refine (private_attempt (private_onTls _ _)).bind fun result => ?_
    cases result with
    | error e => exact private_pure _
    | ok bytes =>
      dsimp only
      split
      · unfold repeatReply
        split
        · refine (private_tryWrite H _).bind fun written => ?_
          split
          · exact private_flushTls H _
          · exact private_pure _
        · exact private_pure _
      · exact private_pure _
  · exact private_pure _

/-- The packet completes the key exchange, and an address is taken from the pool. -/
def assigns (data : Bytes) (s : VpnServer C) : Bool :=
  match s.connections peerAddr with
  | some conn =>
    match (intake H env peerAddr data ⟨conn, s.addressPool, s.pendingOauths, [], []⟩).1 with
    | .ok (.keyExchange (some _)) => true
    | _ => false
  | none => false

theorem private_settle {stage : Stage} (h : ∀ cipher, stage ≠ .keyExchange (some cipher)) :
    Private (settle H env peerAddr stage) := by
  cases stage with
  | idle => exact private_pure _
  | records => exact private_answerPushRequest H env
  | keyExchange cipher =>
    cases cipher with
    | some cipher => exact absurd rfl (h cipher)
    | none =>
      refine (private_pure ()).bind fun _ => Private.bind (private_get (fun s s' h => by rw [h]) fun s => ?_) fun _ =>
        private_answerPushRequest H env
      split
      · exact private_logEvent _
      · exact private_pure _

theorem privateAt_controlBody {data : Bytes} {ctx : Ctx C}
    (h : ∀ cipher, (intake H env peerAddr data ctx).1 ≠ .ok (.keyExchange (some cipher))) :
    PrivateAt (controlBody H env peerAddr data) ctx := by
  refine (private_intake H env peerAddr data ctx).bind fun stage after hintake => ?_
  have hstage : ∀ cipher, stage ≠ .keyExchange (some cipher) := by
    rintro cipher rfl
    exact h cipher (by rw [hintake])
  refine ((private_settle H env peerAddr hstage).bind fun _ => Private.bind ?_ fun _ => ?_) after
  · refine private_get (fun s s' h => by rw [h]) fun s => ?_
    split
    · exact (private_onProtocol _).bind fun _ => private_sendLater _
    · exact private_pure _
  · exact (private_onProtocol _).bind fun _ => private_sendLater _

theorem private_encryptFor (data : Bytes) : Private (encryptFor H data) := by
  refine (private_attempt (private_onProtocol _)).bind fun result => ?_
  cases result with
  | error e => exact private_pure ()
  | ok encrypted => exact (private_onConn _).bind fun _ => private_sendLater _

theorem private_dataBody (data : Bytes) : Private (dataBody H env data) := by
  refine (private_onConn _).bind fun _ => private_get (fun s s' h => by rw [h]) fun s => ?_
  split
  · refine (private_onConn _).bind fun _ => (private_onProtocol _).bind fun packet => ?_
    cases packet with
    | data ipPacket =>
      dsimp only [dispatchData]
      split
      · exact (private_encryptFor H _).bind fun _ => private_pure _
      · exact private_pure _
    | _ => exact private_pure _
  · exact private_pure _

end Bodies

section Handlers

variable {α : Type} {H : Host C} {addr : SocketAddr} {s t : VpnServer C}

/-- Two runs of a handler give the same answer and leave the peer the same connection. -/
def AgreeAt (addr : SocketAddr) (r r' : α × VpnServer C) : Prop :=
  r'.1 = r.1 ∧ r'.2.connections addr = r.2.connections addr

theorem agreeAt_onConnection {p : Handler C α} {conn : Connection C}
    (hp : PrivateAt p ⟨conn, s.addressPool, s.pendingOauths, [], []⟩) :
    (onConnection t addr conn p).1 = ((onConnection s addr conn p).1.1,
      { (onConnection s addr conn p).1.2 with addressPool := t.addressPool, pendingOauths := t.pendingOauths }) ∧
    (onConnection t addr conn p).2.connections addr = (onConnection s addr conn p).2.connections addr := by
  have hrun := hp t.addressPool t.pendingOauths
  simp only [onConnection, hrun, Function.update_self, and_self]

theorem agreeAt_encryptTo (h : t.connections addr = s.connections addr) (data : Bytes) :
    AgreeAt addr (encryptTo H data addr s) (encryptTo H data addr t) := by
  unfold encryptTo
  rw [h]
  cases s.connections addr with
  | none => exact ⟨rfl, h⟩
  | some conn =>
    obtain ⟨hrun, hafter⟩ := agreeAt_onConnection (s := s) (t := t) (private_encryptFor H data _)
    refine ⟨?_, hafter⟩
    dsimp only
    rw [hrun]

theorem agreeAt_handleHardReset (h : t.connections addr = s.connections addr) (env : Env) (data : Bytes) :
    AgreeAt addr (handleHardReset H env addr data s) (handleHardReset H env addr data t) := by
  unfold handleHardReset cachedResponse
  rw [h]
  split
  · exact ⟨rfl, h⟩
  · split
    · split
      · exact ⟨rfl, by simp only [Function.update_self]⟩
      · exact ⟨rfl, h⟩
    · exact ⟨rfl, h⟩

theorem agreeAt_handleControlPacket (h : t.connections addr = s.connections addr) (env : Env) {data : Bytes}
    (hassigns : assigns H env addr data s = false) :
    AgreeAt addr (handleControlPacket H env addr data s) (handleControlPacket H env addr data t) := by
  unfold handleControlPacket
  rw [h]
  cases hconn : s.connections addr with
  | none => exact ⟨rfl, h⟩
  | some conn =>
    rw [assigns, hconn] at hassigns
    have hstage : ∀ cipher, (intake H env addr data ⟨conn, s.addressPool, s.pendingOauths, [], []⟩).1 ≠
        .ok (.keyExchange (some cipher)) := by
      intro cipher hcipher
      simp only [hcipher, Bool.true_eq_false] at hassigns
    obtain ⟨hrun, hafter⟩ := agreeAt_onConnection (t := t) (privateAt_controlBody H env addr hstage)
    refine ⟨?_, hafter⟩
    dsimp only
    rw [hrun]
    rfl

theorem agreeAt_handleDataPacket (h : t.connections addr = s.connections addr) (env : Env) (data : Bytes) :
    AgreeAt addr (handleDataPacket H env addr data s) (handleDataPacket H env addr data t) := by
  unfold handleDataPacket
  rw [h]
  cases s.connections addr with
  | none => exact ⟨rfl, h⟩
  | some conn =>
    obtain ⟨hrun, hafter⟩ := agreeAt_onConnection (s := s) (t := t) (private_dataBody H env data _)
    dsimp only
    rw [hrun]
    dsimp only
    split <;> exact ⟨rfl, hafter⟩

theorem agreeAt_handlePacket (h : t.connections addr = s.connections addr) (env : Env) {data : Bytes}
    (hassigns : assigns H env addr data s = false) :
    AgreeAt addr (handlePacket H env addr data s) (handlePacket H env addr data t) := by
  cases data with
  | nil => exact ⟨rfl, h⟩
  | cons first rest =>
    unfold handlePacket
    dsimp only
    cases OpCode.fromByte first with
    | error e => exact ⟨rfl, h⟩
    | ok opcode =>
      cases opcode with
      | hardResetClientV2 | hardResetClientV3 => exact agreeAt_handleHardReset h env _
      | controlV1 | ackV1 | softResetV1 => exact agreeAt_handleControlPacket h env hassigns
      | dataV1 | dataV2 => exact agreeAt_handleDataPacket h env _
      | _ => exact ⟨rfl, h⟩

theorem agreeAt_pingOne (h : t.connections addr = s.connections addr) :
    AgreeAt addr (pingOne H addr s) (pingOne H addr t) := by
  unfold pingOne
  rw [h]
  split
  · split
    · exact agreeAt_encryptTo h pingPayload
    · exact ⟨rfl, h⟩
  · exact ⟨rfl, h⟩

theorem encryptTo_of_ne {a : SocketAddr} (ha : a ≠ addr) (data : Bytes) : SameAt addr s (encryptTo H data a s).2 := by
  unfold encryptTo
  split
  · exact Function.update_of_ne ha.symm _ _
  · rfl

theorem pingOne_of_ne {a : SocketAddr} (ha : a ≠ addr) : SameAt addr s (pingOne H a s).2 := by
  unfold pingOne
  split
  · split
    · exact encryptTo_of_ne ha pingPayload
    · rfl
  · rfl

/-- A completed authentication concerns nobody but the client that it was asked of. -/
theorem handleAuthCompleted_of_ne (env : Env) (auth : AuthCompleted)
    (h : ∀ pending ∈ s.pendingOauths auth.state, pending.peerAddr ≠ addr) :
    SameAt addr s (handleAuthCompleted H env auth s).2 := by
  unfold handleAuthCompleted
  split
  · rename_i pending hpending
    dsimp only
    split
    · exact Function.update_of_ne (h pending hpending).symm _ _
    · rfl
  · rfl

end Handlers

section Observations

variable (H : Host C) (addr : SocketAddr)

/-- What the server does for a peer: it answers a packet, makes a datagram, or
logs that the connection is stale. -/
inductive Act where
  | response (response : Response)
  | datagram (data : Bytes)
  | expiry (event : ConnectionEvent)

/-- Whose connection a packet from the TUN device is sent on. -/
def target (order : List SocketAddr) (ipPacket : Bytes) (s : VpnServer C) : Option SocketAddr :=
  (destination ipPacket).bind fun dest => order.find? (routesTo s dest)

def pingsFor : List SocketAddr → VpnServer C → List Bytes
  | [], _ => []
  | a :: rest, s => (if a = addr then (pingOne H a s).1.map Prod.snd else []) ++ pingsFor rest (pingOne H a s).2

def staleAt (stale : List StaleConnection) : List StaleConnection := stale.filter fun c => c.addr = addr

/-- The server with a note whether its cleanup task is between its two locked sections. -/
structure Noted (C : Type) where
  system : System C
  cleaning : Bool

def next (s : Noted C) (e : Event) : Response × Noted C :=
  let r := step H s.system e
  (r.1, ⟨r.2, match e with
    | .collectStale .. => true
    | .removeStale => false
    | _ => s.cleaning⟩)

def acts (s : Noted C) : Event → List Act
  | .packet env peerAddr data =>
    if peerAddr = addr then [.response (handlePacket H env peerAddr data s.system.server).1] else []
  | .tunPacket _ order ipPacket =>
    if target order ipPacket s.system.server = some addr then
      (encryptTo H ipPacket addr s.system.server).1.map fun p => .datagram p.2
    else []
  | .keepalive _ order => (pingsFor H addr order s.system.server).map .datagram
  | .collectStale env timeout order =>
    (staleAt addr (staleConnections env timeout order s.system.server)).map fun c => .expiry (noteDisconnection env c)
  | _ => []

/-- Packets from others, and completed authentications, are none of the peer's business. -/
def visible : Event → Bool
  | .packet _ peerAddr _ => peerAddr = addr
  | .authCompleted _ _ => false
  | _ => true

/-- Nothing that the connections share comes into play: the peer is not just given
its address, and no login of its own completes. The cleanup task finishes a round
before it starts another. -/
def Apart (s : Noted C) : Event → Prop
  | .packet env peerAddr data => peerAddr = addr → assigns H env addr data s.system.server = false
  | .authCompleted _ auth => ∀ pending ∈ s.system.server.pendingOauths auth.state, pending.peerAddr ≠ addr
  | .collectStale .. => s.cleaning = false
  | _ => True

/-- The peer's connection is the same in both, and the cleanup is equally far. -/
structure Alike (s t : Noted C) : Prop where
  connection : t.system.server.connections addr = s.system.server.connections addr
  cleaning : t.cleaning = s.cleaning
  stale : staleAt addr t.system.stale = staleAt addr s.system.stale
  idle : s.cleaning = false → s.system.stale = [] ∧ t.system.stale = []
  orderly : Orderly H s.system ∧ Orderly H t.system

end Observations

section Steps

variable {H : Host C} {addr : SocketAddr} {s t : Noted C}

theorem pingsFor_congr {s t : VpnServer C} (order : List SocketAddr) (h : t.connections addr = s.connections addr) :
    pingsFor H addr order t = pingsFor H addr order s ∧
      (pingEach H order t).2.connections addr = (pingEach H order s).2.connections addr := by
  induction order generalizing s t with
  | nil => exact ⟨rfl, h⟩
  | cons a rest ih =>
    simp only [pingsFor, pingEach]
    by_cases ha : a = addr
    · subst ha
      obtain ⟨hpackets, hafter⟩ := agreeAt_pingOne (H := H) h
      obtain ⟨hpings, hend⟩ := ih hafter
      exact ⟨by rw [hpackets, hpings], hend⟩
    · have hafter : (pingOne H a t).2.connections addr = (pingOne H a s).2.connections addr :=
        (pingOne_of_ne ha).trans (h.trans (pingOne_of_ne ha).symm)
      obtain ⟨hpings, hend⟩ := ih hafter
      exact ⟨by rw [if_neg ha, if_neg ha, hpings], hend⟩

theorem staleAt_singleton_of_ne {a : SocketAddr} (ha : a ≠ addr) (env : Env) (timeout : Duration) (s : VpnServer C) :
    staleAt addr (staleConnections env timeout [a] s) = [] := by
  rw [staleAt, List.filter_eq_nil_iff]
  intro c hc
  obtain ⟨b, hb, hstale⟩ := List.mem_filterMap.mp hc
  obtain rfl := List.mem_singleton.mp hb
  split at hstale
  · split at hstale
    · cases hstale
      exact decide_eq_true_iff.not.mpr ha
    · cases hstale
  · cases hstale

theorem staleAt_congr {s t : VpnServer C} (env : Env) (timeout : Duration) (order : List SocketAddr)
    (h : t.connections addr = s.connections addr) :
    staleAt addr (staleConnections env timeout order t) = staleAt addr (staleConnections env timeout order s) := by
  have hcons : ∀ (u : VpnServer C) a rest, staleAt addr (staleConnections env timeout (a :: rest) u) =
      staleAt addr (staleConnections env timeout [a] u) ++ staleAt addr (staleConnections env timeout rest u) := by
    intro u a rest
    rw [staleAt, staleAt, staleAt, ← List.filter_append]
    exact congrArg _ (List.filterMap_append (l := [a]))
  induction order with
  | nil => rfl
  | cons a rest ih =>
    rw [hcons t a rest, hcons s a rest, ih]
    by_cases ha : a = addr
    · subst ha
      simp only [staleConnections, List.filterMap_cons, List.filterMap_nil, h]
    · rw [staleAt_singleton_of_ne ha, staleAt_singleton_of_ne ha]

theorem connections_removeConnections (stale : List StaleConnection) (s : VpnServer C) :
    (removeConnections stale s).connections addr =
      if (staleAt addr stale).isEmpty then s.connections addr else none := by
  induction stale generalizing s with
  | nil => rfl
  | cons c stale ih =>
    change (removeConnections stale { s with connections := Function.update s.connections c.addr none }).connections
      addr = _
    rw [ih]
    dsimp only
    by_cases hc : c.addr = addr
    · have hstale : staleAt addr (c :: stale) = c :: staleAt addr stale := List.filter_cons_of_pos (decide_eq_true hc)
      rw [hstale, hc, Function.update_self, ite_self]
      rfl
    · have hstale : staleAt addr (c :: stale) = staleAt addr stale :=
        List.filter_cons_of_neg (by rw [decide_eq_true_iff]; exact hc)
      rw [hstale, Function.update_of_ne (Ne.symm hc)]

theorem target_iff {s : System C} (hs : Orderly H s) (order : List SocketAddr) (ipPacket : Bytes) :
    target order ipPacket s.server = some addr ↔
      ∃ dest, destination ipPacket = some dest ∧ addr ∈ order ∧ routesTo s.server dest addr = true := by
  rw [target, Option.bind_eq_some_iff]
  refine exists_congr fun dest => and_congr_right fun _ => ⟨fun hfind => ?_, fun ⟨hmem, hroutes⟩ => ?_⟩
  · exact ⟨List.mem_of_find?_eq_some hfind, List.find?_some hfind⟩
  · exact find?_eq_of_only hroutes hmem fun b hb => Routing.Orderly.routesTo_unique hs hb hroutes

/-- Addresses are unique, so that it does not matter who else is listed. -/
theorem Alike.target_iff (h : Alike H addr s t) (order : List SocketAddr) (ipPacket : Bytes) :
    target order ipPacket t.system.server = some addr ↔ target order ipPacket s.system.server = some addr := by
  rw [PeerIsolation.target_iff h.orderly.1, PeerIsolation.target_iff h.orderly.2]
  simp only [routesTo, h.connection]

theorem handleTunPacket_snd (env : Env) (order : List SocketAddr) (ipPacket : Bytes) (s : VpnServer C) :
    (handleTunPacket H env order ipPacket s).2 =
      ((target order ipPacket s).map fun a => (encryptTo H ipPacket a s).2).getD s := by
  unfold handleTunPacket target
  cases destination ipPacket with
  | none => rfl
  | some dest =>
    rw [Option.bind_some]
    dsimp only
    cases order.find? (routesTo s dest) <;> rfl

/-- The rest of what makes two servers alike stays as it is where the cleanup does nothing. -/
theorem Alike.of_connection (h : Alike H addr s t) {u v : VpnServer C} (hu : Orderly H ⟨u, s.system.stale⟩)
    (hv : Orderly H ⟨v, t.system.stale⟩) (hconnection : v.connections addr = u.connections addr) :
    Alike H addr ⟨⟨u, s.system.stale⟩, s.cleaning⟩ ⟨⟨v, t.system.stale⟩, t.cleaning⟩ :=
  ⟨hconnection, h.cleaning, h.stale, h.idle, hu, hv⟩

theorem alike_hidden {e : Event} (he : visible addr e = false) (hapart : Apart H addr s e) (h : Alike H addr s t) :
    acts H addr s e = [] ∧ Alike H addr (next H s e).2 t := by
  have hs := h.orderly.1.step e
  cases e with
  | packet env peerAddr data =>
    have hpeer : peerAddr ≠ addr := of_decide_eq_false he
    have hsame : SameAt addr s.system.server _ := handlePacket_of_ne H env peerAddr data hpeer.symm s.system.server
    exact ⟨if_neg hpeer, h.of_connection hs h.orderly.2 (h.connection.trans hsame.symm)⟩
  | authCompleted env auth =>
    have hsame : SameAt addr s.system.server _ := handleAuthCompleted_of_ne (H := H) env auth hapart
    exact ⟨rfl, h.of_connection hs h.orderly.2 (h.connection.trans hsame.symm)⟩
  | _ => cases he

theorem alike_packet (env : Env) {data : Bytes} (hassigns : assigns H env addr data s.system.server = false)
    (h : Alike H addr s t) :
    acts H addr s (.packet env addr data) = acts H addr t (.packet env addr data) ∧
      Alike H addr (next H s (.packet env addr data)).2 (next H t (.packet env addr data)).2 := by
  obtain ⟨hresponse, hafter⟩ := agreeAt_handlePacket h.connection env hassigns
  refine ⟨?_, h.of_connection (h.orderly.1.step (.packet env addr data)) (h.orderly.2.step (.packet env addr data))
    hafter⟩
  rw [acts, acts, if_pos rfl, if_pos rfl, hresponse]

theorem alike_tunPacket (env : Env) (order : List SocketAddr) (ipPacket : Bytes) (h : Alike H addr s t) :
    acts H addr s (.tunPacket env order ipPacket) = acts H addr t (.tunPacket env order ipPacket) ∧
      Alike H addr (next H s (.tunPacket env order ipPacket)).2 (next H t (.tunPacket env order ipPacket)).2 := by
  have htarget := h.target_iff order ipPacket
  obtain ⟨hpackets, hafter⟩ := agreeAt_encryptTo (H := H) h.connection ipPacket
  have hmiss : ∀ {u : VpnServer C}, target order ipPacket u ≠ some addr →
      (handleTunPacket H env order ipPacket u).2.connections addr = u.connections addr := by
    intro u hu
    rw [handleTunPacket_snd]
    cases ha : target order ipPacket u with
    | none => rfl
    | some a =>
      have hne : a ≠ addr := fun hsame => hu (hsame ▸ ha)
      exact encryptTo_of_ne hne ipPacket
  have hhit : ∀ {u : VpnServer C}, target order ipPacket u = some addr →
      (handleTunPacket H env order ipPacket u).2 = (encryptTo H ipPacket addr u).2 := by
    intro u hu
    rw [handleTunPacket_snd, hu]
    rfl
  constructor
  · simp only [acts, htarget, hpackets]
  · refine h.of_connection (h.orderly.1.step (.tunPacket env order ipPacket))
      (h.orderly.2.step (.tunPacket env order ipPacket)) ?_
    by_cases hs : target order ipPacket s.system.server = some addr
    · rw [hhit hs, hhit (htarget.mpr hs)]
      exact hafter
    · rw [hmiss hs, hmiss (fun ht => hs (htarget.mp ht))]
      exact h.connection

theorem alike_keepalive (env : Env) (order : List SocketAddr) (h : Alike H addr s t) :
    acts H addr s (.keepalive env order) = acts H addr t (.keepalive env order) ∧
      Alike H addr (next H s (.keepalive env order)).2 (next H t (.keepalive env order)).2 := by
  obtain ⟨hpings, hafter⟩ := pingsFor_congr (H := H) order h.connection
  refine ⟨?_, h.of_connection (h.orderly.1.step (.keepalive env order)) (h.orderly.2.step (.keepalive env order))
    hafter⟩
  rw [acts, acts, hpings]

theorem alike_collectStale (env : Env) (timeout : Duration) (order : List SocketAddr) (hidle : s.cleaning = false)
    (h : Alike H addr s t) :
    acts H addr s (.collectStale env timeout order) = acts H addr t (.collectStale env timeout order) ∧
      Alike H addr (next H s (.collectStale env timeout order)).2 (next H t (.collectStale env timeout order)).2 := by
  obtain ⟨hs, ht⟩ := h.idle hidle
  have hstale := staleAt_congr env timeout order h.connection
  have hcollect : ∀ {u : Noted C}, u.system.stale = [] → (next H u (.collectStale env timeout order)).2 =
      ⟨⟨u.system.server, staleConnections env timeout order u.system.server⟩, true⟩ := by
    intro u hu
    rw [next, step, hu, List.isEmpty_nil, if_pos rfl]
  have horderly := h.orderly.1.step (.collectStale env timeout order)
  have horderly' := h.orderly.2.step (.collectStale env timeout order)
  refine ⟨by rw [acts, acts, hstale], ?_, rfl, ?_, fun hfalse => absurd hfalse.symm Bool.false_ne_true, horderly,
    horderly'⟩
  · rw [hcollect hs, hcollect ht]
    exact h.connection
  · rw [hcollect hs, hcollect ht]
    exact hstale

theorem alike_removeStale (h : Alike H addr s t) :
    Alike H addr (next H s .removeStale).2 (next H t .removeStale).2 where
  connection := by
    change (removeConnections t.system.stale t.system.server).connections addr =
      (removeConnections s.system.stale s.system.server).connections addr
    rw [connections_removeConnections, connections_removeConnections, h.stale, h.connection]
  cleaning := rfl
  stale := rfl
  idle _ := ⟨rfl, rfl⟩
  orderly := ⟨h.orderly.1.step _, h.orderly.2.step _⟩

theorem unwinds (H : Host C) (addr : SocketAddr) :
    Unwinds (next H) (acts H addr) (visible addr) (Apart H addr) (Alike H addr) where
  hidden he hapart h := alike_hidden he hapart h
  shown {s t e} he hapart h := by
    cases e with
    | packet env peerAddr data =>
      obtain rfl : peerAddr = addr := of_decide_eq_true he
      exact alike_packet env (hapart rfl) h
    | tunPacket env order ipPacket => exact alike_tunPacket env order ipPacket h
    | keepalive env order => exact alike_keepalive env order h
    | authCompleted env auth => cases he
    | collectStale env timeout order => exact alike_collectStale env timeout order hapart h
    | removeStale => exact ⟨rfl, alike_removeStale h⟩

end Steps

/-- Clients cannot disturb each other: but for the address that it is given and
the completion of its own login, all that the server does for a peer, and its
connection in the end, is as if no other client had sent anything and no other
login had been completed. -/
theorem peer_isolated (H : Host C) (addr : SocketAddr) {s₀ : System C} (hstart : start H.config = .ok s₀)
    (before : List Event) (hidle : (exec (step H) s₀ before).stale = []) (events : List Event) :
    let s : Noted C := ⟨exec (step H) s₀ before, false⟩
    EachStep (next H) (Apart H addr) s events →
      seen (next H) (acts H addr) s events = seen (next H) (acts H addr) s (events.filter (visible addr)) ∧
        (exec (next H) s (events.filter (visible addr))).system.server.connections addr =
          (exec (next H) s events).system.server.connections addr := by
  intro s hapart
  have horderly : Orderly H s.system := (Orderly.start hstart).exec before
  have halike : Alike H addr s s := ⟨rfl, rfl, rfl, fun _ => ⟨hidle, hidle⟩, horderly, horderly⟩
  obtain ⟨hseen, hend⟩ := (unwinds H addr).purge halike hapart
  exact ⟨hseen, hend.connection⟩

/-- While Alice is connected Bob comes, and then there are a packet for Alice and
one from her. -/
theorem peer_isolated_two_clients :
    let H := plainHost false
    let s : Noted Bytes := ⟨exec (step H) plainStart connecting, false⟩
    let own : List Event := [.tunPacket (atSecond 4 0) [bob, alice] (0x45 :: List.replicate 15 0 ++ [10, 8, 0, 2]),
      .packet (atSecond 5 0) alice (keyMethod 2)]
    (seen (next H) (acts H alice) s (joining ++ own)).length = 2 ∧
      seen (next H) (acts H alice) s (joining ++ own) = seen (next H) (acts H alice) s own := by
  intro H s own
  have hidle : (exec (step H) plainStart connecting).stale = [] := rfl
  have hbob : bob ≠ alice := by decide
  have hapart : EachStep (next H) (Apart H alice) s (joining ++ own) := by
    refine ⟨fun h => absurd h hbob, fun h => absurd h hbob, trivial, fun _ => ?_, trivial⟩
    decide +kernel +zetaReduce
  exact ⟨by decide +kernel +zetaReduce,
    (peer_isolated H alice (start_plainHost false) connecting hidle (joining ++ own) hapart).1⟩

end CoreVpn.Server.PeerIsolation
