import CoreVpn.Lib.Utf8
import CoreVpn.Protocol.KeyMethods

namespace CoreVpn.Client.ServerMessages

open Lib.Computation Lib.Wire Lib.Text Protocol.Errors Protocol.ControlMessages Protocol.KeyMethods
open KeyMethodV2

inductive MessageError where
  | kmTooShort
  | pushReply (e : ProtocolError)
  deriving DecidableEq

/-- Texts behind their lengths are skipped until one is not complete. -/
def skipStrings (data : Bytes) : Nat → Nat → Outcome MessageError Nat
  | 0, offset => .ok offset
  | n + 1, offset => do
    if offset + 2 > data.length then
      return offset
    else
      let hi ← index data offset
      let lo ← index data (offset + 1)
      let strLen := (fromBe16 hi lo).toNat
      if offset + 2 + strLen > data.length then
        return offset
      else
        skipStrings data n (offset + 2 + strLen)

def calculateKmSize (data : Bytes) : Outcome MessageError Nat :=
  if data.length < 71 then .error (.error .kmTooShort) else skipStrings data 3 69

/-- What the client has read from the TLS stream, and the addresses it has asked
the user to open. -/
structure Intake where
  totalPlaintext : Bytes := []
  serverKm : Option KeyMethodV2 := none
  pushReply : Option PushReply := none
  shownUrls : List String := []
  deriving DecidableEq

/-- The server's message is taken from the front as soon as its options are
complete. -/
def takeKeyMethod : Program Intake MessageError Unit := do
  let self ← get
  if self.serverKm.isNone && 71 ≤ self.totalPlaintext.length then
    match ← attempt (lift (parseFromServer self.totalPlaintext)) with
    | .ok km =>
      let kmSize ← lift (calculateKmSize self.totalPlaintext)
      let remaining ← lift (slice self.totalPlaintext kmSize self.totalPlaintext.length)
      modify fun s => { s with totalPlaintext := remaining, serverKm := some km }
    | .error _ => return ()
  else return ()

def clearPlaintext : Program Intake MessageError Unit := modify fun s => { s with totalPlaintext := [] }

def showUrl (url : String) : Program Intake MessageError Unit :=
  modify fun s => { s with shownUrls := s.shownUrls ++ [trim url] }

/-- All that has arrived is looked at as one message. -/
def takeMessage (toLowercase : String → String) : Program Intake MessageError Unit := do
  let self ← get
  if self.serverKm.isSome && !self.totalPlaintext.isEmpty then
    let plaintext := self.totalPlaintext.dropWhile (· == 0)
    modify fun s => { s with totalPlaintext := plaintext }
    if plaintext.isEmpty then
      return ()
    else
      let msg := trimEndMatches (fromUtf8Lossy plaintext) '\x00'
      if startsWith msg "PUSH_REPLY" then
        let reply ← lift (Outcome.mapFault .pushReply (PushReply.parse toLowercase msg))
        modify fun s => { s with pushReply := some reply }
      else if contains msg "AUTH_PENDING" then
        clearPlaintext
      else if startsWith msg "INFO_PRE,WEB_AUTH:" then
        match stripPrefix msg "INFO_PRE,WEB_AUTH:" with
        | some rest => showUrl ((splitOnce rest ':').elim rest Prod.snd)
        | none => pure ()
        clearPlaintext
      else if startsWith msg "INFO_PRE,OPEN_URL:" then
        showUrl ((stripPrefix msg "INFO_PRE,OPEN_URL:").getD "")
        clearPlaintext
      else return ()
  else return ()

def tryParseServerMessages (toLowercase : String → String) : Program Intake MessageError Unit := do
  takeKeyMethod
  takeMessage toLowercase

section Sizes

variable {data rest : Bytes} {offset : Nat} {km : KeyMethodV2}

theorem skipStrings_of {s : String} (h : Written data offset s rest) (n : Nat) :
    skipStrings data (n + 1) offset = skipStrings data n (offset + (writeString s).length) := by
  have hroom := h.room
  obtain ⟨hi, lo, hlength, hhi, hlo⟩ := h.lengthBytes (ε := MessageError)
  have hend : offset + 2 + ((asBytes s).length + 1) = offset + (writeString s).length := by
    rw [length_writeString]
    omega
  rw [skipStrings, if_neg (by omega), hhi, Outcome.ok_bind, hlo, Outcome.ok_bind]
  simp only [hlength, Nat.not_lt.mpr hroom, if_false]
  rw [hend]

theorem length_encode_server (km : KeyMethodV2) : (km.encode true).length = 69 + (texts km).length := by
  rw [encode_server]
  simp only [List.length_append, length_toList, List.length_cons, List.length_nil]
  omega

theorem calculateKmSize_encode (h : Fits km) (hpeer : km.peerInfo = none) (rest : Bytes) :
    calculateKmSize (km.encode true ++ rest) = .ok (km.encode true).length := by
  have hoptions : Written (km.encode true ++ rest) 69 km.options
      (writeString (km.username.getD "") ++ (writeString (km.password.getD "") ++ rest)) := by
    refine ⟨h.options, ?_⟩
    rw [drop_add (drop_add (drop_server km rest)), texts, hpeer]
    simp
  have husername : Written (km.encode true ++ rest) (69 + (writeString km.options).length) (km.username.getD "")
      (writeString (km.password.getD "") ++ rest) := ⟨h.username, hoptions.next⟩
  have hpassword : Written (km.encode true ++ rest)
      (69 + (writeString km.options).length + (writeString (km.username.getD "")).length) (km.password.getD "")
      rest := ⟨h.password, husername.next⟩
  have hlen : 71 ≤ (km.encode true ++ rest).length := by
    have htexts := length_texts_ge km
    rw [List.length_append, length_encode_server]
    omega
  have hsize : (km.encode true).length = 69 + (writeString km.options).length +
      (writeString (km.username.getD "")).length + (writeString (km.password.getD "")).length := by
    rw [length_encode_server, texts, hpeer]
    simp only [Option.elim, List.append_nil, List.length_append]
    omega
  rw [calculateKmSize, if_neg (Nat.not_lt.mpr hlen), skipStrings_of hoptions, skipStrings_of husername,
    skipStrings_of hpassword, hsize]
  rfl

end Sizes

section RoundTrip

/-- A text that fits, and does not end like its terminator. -/
structure Plain (s : String) : Prop where
  length : (asBytes s).length ≤ 65534
  last : s.toList.getLast? ≠ some '\x00'

structure Exact (km : KeyMethodV2) : Prop where
  options : Plain km.options
  username : ∀ name ∈ km.username, Plain name ∧ name ≠ ""
  password : ∀ password ∈ km.password, Plain password ∧ password ≠ ""
  peerInfo : ∀ info ∈ km.peerInfo, Plain info ∧ info ≠ ""

variable {km : KeyMethodV2} {s : String} {o : Option String}

theorem Plain.trim_eq (h : Plain s) : trimEndMatches s '\x00' = s := by
  have hlast : s.toList.rdropWhile (· == '\x00') = s.toList := by
    rw [List.rdropWhile_eq_self_iff]
    intro hne hzero
    exact h.last (by rw [List.getLast?_eq_some_getLast hne, beq_iff_eq.mp hzero])
  rw [trimEndMatches, hlast, String.ofList_toList]

theorem readBack_plain (h : Plain s) (hne : s ≠ "") : readBack s = some s := by
  simp [readBack, h.trim_eq, hne]

theorem readBack_getD (h : ∀ s ∈ o, Plain s ∧ s ≠ "") : readBack (o.getD "") = o := by
  cases o with
  | none => decide
  | some s => exact readBack_plain (h s rfl).1 (h s rfl).2

theorem length_getD (h : ∀ s ∈ o, Plain s ∧ s ≠ "") : (asBytes (o.getD "")).length + 1 < 65536 := by
  cases o with
  | none => decide
  | some s => exact Nat.lt_succ_of_le (Nat.succ_le_succ (h s rfl).1.length)

theorem Exact.fits (h : Exact km) : Fits km where
  options := Nat.lt_succ_of_le (Nat.succ_le_succ h.options.length)
  username := length_getD h.username
  password := length_getD h.password
  peerInfo := fun info hinfo => Nat.lt_succ_of_le (Nat.succ_le_succ (h.peerInfo info hinfo).1.length)

theorem Exact.received_eq (h : Exact km) : received km = km := by
  obtain ⟨preMaster, random1, random2, options, username, password, peerInfo⟩ := km
  have hpeer : peerInfo.bind readBack = peerInfo := by
    cases peerInfo with
    | none => rfl
    | some info => exact readBack_plain (h.peerInfo info rfl).1 (h.peerInfo info rfl).2
  have hoptions : trimEndMatches options '\x00' = options := h.options.trim_eq
  have husername : readBack (username.getD "") = username := readBack_getD h.username
  have hpassword : readBack (password.getD "") = password := readBack_getD h.password
  simp only [received, hoptions, husername, hpassword, hpeer]

/-- Both sides read the other's message as it was sent, and the client finds
where the server's ends. -/
theorem key_method_round_trip (h : Exact km) :
    parse (km.encode false) = .ok km ∧
    (km.peerInfo = none → ∀ rest, ∃ got, parseFromServer (km.encode true ++ rest) = .ok got ∧
      got.random1 = km.random1 ∧ got.random2 = km.random2 ∧ got.options = km.options ∧
      calculateKmSize (km.encode true ++ rest) = .ok (km.encode true).length) := by
  refine ⟨?_, ?_⟩
  · rw [parse_encode h.fits, h.received_eq]
  · intro hpeer rest
    refine ⟨_, parseFromServer_encode h.fits.options rest, rfl, rfl, h.options.trim_eq, ?_⟩
    exact calculateKmSize_encode h.fits hpeer rest

theorem key_method_round_trip_named :
    let km : KeyMethodV2 := ⟨zeros 48, zeros 32, zeros 32, "V4,key-method 2", some "alice", none, none⟩
    parse (km.encode false) = .ok km ∧
      calculateKmSize (km.encode true ++ [80, 85]) = .ok (km.encode true).length := by
  intro km
  have h : Exact km := by
    refine ⟨⟨by decide +kernel +zetaReduce, by decide +kernel +zetaReduce⟩, ?_, ?_, ?_⟩
    · rintro _ ⟨⟩
      exact ⟨⟨by decide +kernel, by decide +kernel⟩, by decide⟩
    · rintro _ ⟨⟩
    · rintro _ ⟨⟩
  obtain ⟨hclient, hserver⟩ := key_method_round_trip h
  obtain ⟨got, -, -, -, -, hsize⟩ := hserver rfl [80, 85]
  exact ⟨hclient, hsize⟩

end RoundTrip

end CoreVpn.Client.ServerMessages
