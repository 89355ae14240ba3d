import CoreVpn.ConnectionLog.EventTexts

namespace CoreVpn.ConnectionLog.EventRows

open Lib.Text Lib.Calendar Core.Networks Server.Events DatabaseLoggers EventTexts

variable {T : Texts}

/-- The flow information of an address is not part of its text. -/
def HasNoFlow : SocketAddr → Prop
  | .v4 _ _ => True
  | .v6 _ _ flowinfo _ => flowinfo = 0

instance : DecidablePred HasNoFlow
  | .v4 _ _ => inferInstanceAs (Decidable True)
  | .v6 _ _ flowinfo _ => inferInstanceAs (Decidable (flowinfo = 0))

/-- Whatever is written is read again as it was. -/
structure Inverse (T : Texts) : Prop where
  uuid : ∀ id, T.parseUuid (T.uuid id) = some id
  socketAddr : ∀ addr, HasNoFlow addr → T.parseSocketAddr (T.socketAddr addr) = some addr
  ipAddr : ∀ addr, T.parseIpAddr (T.ipAddr addr) = some addr
  rfc3339 : ∀ t, T.parseRfc3339 (T.rfc3339 t) = some t
  toLowercase : LowersAscii T.toLowercase

/-- No address has flow information, and the seconds of a duration fit in 64 bits. -/
def Valid : ConnectionEvent → Prop
  | .connectionAttempt _ _ clientAddr _ => HasNoFlow clientAddr
  | .authentication _ _ clientAddr _ _ _ _ => HasNoFlow clientAddr
  | .connected _ _ clientAddr _ _ _ _ => HasNoFlow clientAddr
  | .disconnected _ _ clientAddr _ _ duration _ => HasNoFlow clientAddr ∧ duration / 1000000000 < 2 ^ 64
  | .ipChange _ _ oldAddr newAddr _ => HasNoFlow oldAddr ∧ HasNoFlow newAddr
  | .renegotiation _ _ clientAddr _ => HasNoFlow clientAddr

instance : DecidablePred Valid
  | .connectionAttempt _ _ clientAddr _ => inferInstanceAs (Decidable (HasNoFlow clientAddr))
  | .authentication _ _ clientAddr _ _ _ _ => inferInstanceAs (Decidable (HasNoFlow clientAddr))
  | .connected _ _ clientAddr _ _ _ _ => inferInstanceAs (Decidable (HasNoFlow clientAddr))
  | .disconnected _ _ clientAddr _ _ duration _ =>
    inferInstanceAs (Decidable (HasNoFlow clientAddr ∧ duration / 1000000000 < 2 ^ 64))
  | .ipChange _ _ oldAddr newAddr _ => inferInstanceAs (Decidable (HasNoFlow oldAddr ∧ HasNoFlow newAddr))
  | .renegotiation _ _ clientAddr _ => inferInstanceAs (Decidable (HasNoFlow clientAddr))

def inSeconds : ConnectionEvent → ConnectionEvent
  | .disconnected id timestamp clientAddr username reason duration stats =>
    .disconnected id timestamp clientAddr username reason (duration / 1000000000 * 1000000000) stats
  | event => event

section Names

variable {toLowercase : String → String} (hlower : LowersAscii toLowercase)

include hlower

theorem parseAuthMethod_name (method : AuthMethod) : parseAuthMethod toLowercase (authMethodName method) = method := by
  rw [parseAuthMethod, hlower _ (forall_mem_toList (by cases method <;> decide))]
  cases method <;> rfl

theorem parseAuthResult_name (result : AuthResult) : parseAuthResult toLowercase (authResultName result) = result := by
  rw [parseAuthResult, hlower _ (forall_mem_toList (by cases result <;> decide))]
  cases result <;> rfl

theorem parseDisconnectReason_name (reason : DisconnectReason) :
    parseDisconnectReason toLowercase (disconnectReasonName reason) = reason := by
  rw [parseDisconnectReason, hlower _ (forall_mem_toList (by cases reason <;> decide))]
  cases reason <;> rfl

end Names

section Columns

@[simp] theorem tryText_text (s : String) : (Column.text s).tryText = some s := rfl

@[simp] theorem tryInteger_integer (n : Int64) : (Column.integer n).tryInteger = some n := rfl

@[simp] theorem tryText_ofText (s : Option String) : (Column.ofText s).tryText = s := by
  cases s <;> rfl

@[simp] theorem tryInteger_ofInteger (n : Option Int64) : (Column.ofInteger n).tryInteger = n := by
  cases n <;> rfl

theorem parseAddr_text (hT : Inverse T) {addr : SocketAddr} (haddr : HasNoFlow addr) :
    parseAddr T (.text (T.socketAddr addr)) = some addr :=
  hT.socketAddr addr haddr

theorem fromSecs_asSecs {duration : Nat} (hduration : duration / 1000000000 < 2 ^ 64) :
    fromSecs (asSecs duration) = duration / 1000000000 * 1000000000 := by
  rw [fromSecs, asSecs, UInt64.toNat_ofNat_of_lt' hduration]

theorem parseStats_ofInteger (row : Row) (stats : Option TransferStats)
    (hbytesRx : row.bytesRx = .ofInteger (stats.map fun s => s.bytesRx.toInt64))
    (hbytesTx : row.bytesTx = .ofInteger (stats.map fun s => s.bytesTx.toInt64))
    (hpacketsRx : row.packetsRx = .ofInteger (stats.map fun s => s.packetsRx.toInt64))
    (hpacketsTx : row.packetsTx = .ofInteger (stats.map fun s => s.packetsTx.toInt64)) :
    parseStats row = stats := by
  rw [parseStats, hbytesRx, hbytesTx, hpacketsRx, hpacketsTx]
  cases stats with
  | none => rfl
  | some stats => simp [Column.ofInteger, Column.tryInteger]

end Columns

/-- A row gives back the event that was written to it. -/
theorem parseEventRow_insertEvent (T : Texts) (hT : Inverse T) (event : ConnectionEvent) (hevent : Valid event) :
    parseEventRow T (insertEvent T event) = some (inSeconds event) := by
  cases event with
  | connectionAttempt id timestamp clientAddr protocolVersion =>
    simp [parseEventRow, insertEvent, hT.uuid, hT.rfc3339, parseAddr_text hT hevent, inSeconds]
  | authentication id timestamp clientAddr username authMethod result details =>
    simp [parseEventRow, insertEvent, hT.uuid, hT.rfc3339, parseAddr_text hT hevent,
      parseAuthMethod_name hT.toLowercase, parseAuthResult_name hT.toLowercase, inSeconds]
  | connected id timestamp clientAddr username vpnIp authMethod clientInfo =>
    simp [parseEventRow, insertEvent, hT.uuid, hT.rfc3339, hT.ipAddr, parseAddr_text hT hevent,
      parseAuthMethod_name hT.toLowercase, inSeconds]
  | disconnected id timestamp clientAddr username reason duration stats =>
    obtain ⟨haddr, hduration⟩ := hevent
    have hstats : parseStats (insertEvent T
        (.disconnected id timestamp clientAddr username reason duration stats)) = stats :=
      parseStats_ofInteger _ stats rfl rfl rfl rfl
    simpa [parseEventRow, insertEvent, hT.uuid, hT.rfc3339, parseAddr_text hT haddr,
      parseDisconnectReason_name hT.toLowercase, fromSecs_asSecs hduration, inSeconds] using hstats
  | ipChange id timestamp oldAddr newAddr username =>
    obtain ⟨hold, hnew⟩ := hevent
    simp [parseEventRow, insertEvent, hT.uuid, hT.rfc3339, parseAddr_text hT hold, parseAddr_text hT hnew, inSeconds]
  | renegotiation id timestamp clientAddr success =>
    cases success <;>
      simp [parseEventRow, insertEvent, hT.uuid, hT.rfc3339, parseAddr_text hT hevent, inSeconds]

section Standard

def plainSocketText (addr : { addr // HasNoFlow addr }) : String := socketText addr.val

theorem plainSocketText_injective : Function.Injective plainSocketText := by
  have hplain : ∀ {addr}, HasNoFlow addr → withoutFlow addr = addr := by
    rintro (_ | ⟨ip, port, flowinfo, scopeId⟩) hflow
    · rfl
    · obtain rfl : flowinfo = 0 := hflow
      rfl
  rintro ⟨x, hx⟩ ⟨y, hy⟩ h
  have hsame := withoutFlow_eq h
  rw [hplain hx, hplain hy] at hsame
  exact Subtype.ext hsame

/-- The usual texts. A parser reads what the printer writes, and nothing else. -/
noncomputable def standardTexts : Texts where
  uuid := uuidText
  parseUuid := Function.partialInv uuidText
  socketAddr := socketText
  parseSocketAddr s := (Function.partialInv plainSocketText s).map Subtype.val
  ipAddr := ipText
  parseIpAddr := Function.partialInv ipText
  rfc3339 := toRfc3339 clockStart
  parseRfc3339 := Function.partialInv (toRfc3339 clockStart)
  toLowercase s := String.ofList (s.toList.map Char.toLower)

theorem inverse_standardTexts : Inverse standardTexts where
  uuid := Function.partialInv_left uuidText_injective
  socketAddr addr haddr :=
    congrArg (Option.map Subtype.val) (Function.partialInv_left plainSocketText_injective ⟨addr, haddr⟩)
  ipAddr := Function.partialInv_left ipText_injective
  rfc3339 := Function.partialInv_left (toRfc3339_injective clockStart)
  toLowercase _ _ := rfl

theorem row_of_disconnection :
    let id : ConnectionId := 0x00112233445566778899aabbccddeeff
    let timestamp : Timestamp := 8336305296000500000000
    let clientAddr : SocketAddr := .v6 0x20010db8000000000000000000000001 1194 0 2
    let stats : TransferStats := { bytesRx := 18446744073709551615, bytesTx := 9223372036854775808 }
    let row := insertEvent standardTexts
      (.disconnected id timestamp clientAddr none .unknown 2500000000 (some stats))
    row.connectionId = .text "00112233-4455-6677-8899-aabbccddeeff" ∧
      row.timestamp = .text "2024-01-01T00:00:00.500+00:00" ∧
      row.clientAddr = .text "[2001:db8:0:0:0:0:0:1%2]:1194" ∧
      parseEventRow standardTexts row =
        some (.disconnected id timestamp clientAddr none .unknown 2000000000 (some stats)) := by
  intro id timestamp clientAddr stats row
  refine ⟨by decide +kernel, by decide +kernel, by decide +kernel, ?_⟩
  exact parseEventRow_insertEvent standardTexts inverse_standardTexts _ (by decide)

end Standard

end CoreVpn.ConnectionLog.EventRows
