import CoreVpn.Protocol.ControlMessages

namespace CoreVpn.Protocol.KeyMethods

open Lib.Computation Lib.Wire Lib.Text Errors ControlMessages KeyMethodV2

variable {data rest : Bytes} {offset : Nat} {km sent : KeyMethodV2}

section Strings

theorem length_writeString (s : String) : (writeString s).length = (asBytes s).length + 3 := by
  simp [writeString, toBe16]

/-- What a reader finds where a text was written whose length fits in 16 bits. -/
structure Written (data : Bytes) (offset : Nat) (s : String) (rest : Bytes) : Prop where
  fits : (asBytes s).length + 1 < 65536
  drop : data.drop offset = writeString s ++ rest

namespace Written

variable {ε : Type} {s : String} (h : Written data offset s rest)

include h

theorem cons : ∃ hi lo, (fromBe16 hi lo).toNat = (asBytes s).length + 1 ∧
    data.drop offset = hi :: lo :: (asBytes (s ++ "\x00") ++ rest) := by
  let len := UInt16.ofNat ((asBytes s).length + 1)
  refine ⟨(len >>> 8).toUInt8, len.toUInt8, ?_, ?_⟩
  · rw [fromBe16_toBe16]
    exact UInt16.toNat_ofNat_of_lt' h.fits
  · have hzero : asBytes (s ++ "\x00") = asBytes s ++ [0] := asBytes_append s "\x00"
    rw [h.drop, writeString, hzero]
    simp [toBe16, len]

theorem room : offset + 2 + ((asBytes s).length + 1) ≤ data.length := by
  have hlen := congrArg List.length h.drop
  rw [List.length_drop, List.length_append, length_writeString] at hlen
  omega

theorem lengthBytes : ∃ hi lo, (fromBe16 hi lo).toNat = (asBytes s).length + 1 ∧
    (index data offset : Outcome ε UInt8) = .ok hi ∧ (index data (offset + 1) : Outcome ε UInt8) = .ok lo := by
  obtain ⟨hi, lo, hlen, hcons⟩ := h.cons
  have hnext : data.drop (offset + 1) = lo :: (asBytes (s ++ "\x00") ++ rest) := by
    rw [← List.drop_drop, hcons]
    rfl
  have hlast : data.drop (offset + 2) = asBytes (s ++ "\x00") ++ rest := by
    rw [← List.drop_drop, hcons]
    rfl
  exact ⟨hi, lo, hlen, index_eq_ok_iff.mpr (hcons.trans (congrArg _ hnext.symm)),
    index_eq_ok_iff.mpr (hnext.trans (congrArg _ hlast.symm))⟩

theorem slice_eq : (slice data (offset + 2) (offset + 2 + ((asBytes s).length + 1)) : Outcome ε Bytes) =
    .ok (asBytes (s ++ "\x00")) := by
  obtain ⟨hi, lo, -, hcons⟩ := h.cons
  have hdrop : data.drop (offset + 2) = asBytes (s ++ "\x00") ++ rest := by
    rw [← List.drop_drop, hcons]
    rfl
  have htext : (asBytes (s ++ "\x00")).length = (asBytes s).length + 1 := by
    rw [asBytes_append, List.length_append]
    rfl
  rw [slice_of_le (Nat.le_add_right _ _) h.room, Nat.add_sub_cancel_left, hdrop, List.take_left' htext]

theorem next : data.drop (offset + (writeString s).length) = rest := drop_add_length h.drop

end Written

theorem readLengthPrefixedString_of {s : String} (hlen : (asBytes s).length + 1 < 65536)
    (h : data.drop offset = writeString s ++ rest) :
    readLengthPrefixedString data offset =
      .ok (trimEndMatches s '\x00', offset + (writeString s).length) := by
  have hs : Written data offset s rest := ⟨hlen, h⟩
  have hroom := hs.room
  obtain ⟨hi, lo, hlength, hhi, hlo⟩ := hs.lengthBytes (ε := ProtocolError)
  have htrim : trimEndMatches (s ++ "\x00") '\x00' = trimEndMatches s '\x00' := trimEndMatches_append_self s '\x00'
  have hend : offset + 2 + ((asBytes s).length + 1) = offset + (writeString s).length := by
    rw [length_writeString]
    omega
  rw [readLengthPrefixedString, if_neg (by omega), hhi, Outcome.ok_bind, hlo, Outcome.ok_bind]
  simp only [hlength, Nat.not_lt.mpr hroom, if_false, hs.slice_eq, Outcome.ok_bind, fromUtf8_asBytes]
  rw [htrim, hend]
  rfl

/-- A text as it is read back, where an empty one counts as none. -/
def readBack (s : String) : Option String :=
  let s := trimEndMatches s '\x00'
  if s.isEmpty then none else some s

theorem readOptional_of {s : String} (hlen : (asBytes s).length + 1 < 65536)
    (h : data.drop offset = writeString s ++ rest) :
    readOptional data offset = .ok (readBack s, offset + (writeString s).length) := by
  have hroom : offset + 2 ≤ data.length := by
    have hle := congrArg List.length h
    rw [List.length_append, length_writeString, List.length_drop] at hle
    omega
  rw [readOptional, if_pos hroom, readLengthPrefixedString_of hlen h, Outcome.ok_bind]
  rfl

end Strings

section Messages

structure Fits (km : KeyMethodV2) : Prop where
  options : (asBytes km.options).length + 1 < 65536
  username : (asBytes (km.username.getD "")).length + 1 < 65536
  password : (asBytes (km.password.getD "")).length + 1 < 65536
  peerInfo : ∀ info ∈ km.peerInfo, (asBytes info).length + 1 < 65536

def received (km : KeyMethodV2) : KeyMethodV2 :=
  { km with
    options := trimEndMatches km.options '\x00'
    username := readBack (km.username.getD "")
    password := readBack (km.password.getD "")
    peerInfo := km.peerInfo.bind readBack }

theorem received_peerInfo (km : KeyMethodV2) : (received km).peerInfo = km.peerInfo.bind readBack := rfl

def texts (km : KeyMethodV2) : Bytes :=
  writeString km.options ++ (writeString (km.username.getD "") ++ (writeString (km.password.getD "") ++
    km.peerInfo.elim [] writeString))

theorem encode_client (km : KeyMethodV2) : km.encode false =
    [0, 0, 0, 0, 2] ++ (km.preMaster.toList ++ (km.random1.toList ++ (km.random2.toList ++ texts km))) := by
  simp only [encode, texts, Bool.false_eq_true, if_false, List.append_assoc]
  cases km.peerInfo <;> rfl

theorem encode_server (km : KeyMethodV2) : km.encode true =
    [0, 0, 0, 0, 2] ++ (km.random1.toList ++ (km.random2.toList ++ texts km)) := by
  simp only [encode, texts, if_true, List.append_assoc, List.nil_append]
  cases km.peerInfo <;> rfl

theorem length_texts_ge (km : KeyMethodV2) : 2 ≤ (texts km).length := by
  rw [texts, List.length_append, length_writeString]
  omega

theorem drop_client (km : KeyMethodV2) : (km.encode false).drop 5 =
    km.preMaster.toList ++ (km.random1.toList ++ (km.random2.toList ++ texts km)) := by
  rw [encode_client]
  rfl

theorem parse_fixed (km : KeyMethodV2) : parse (km.encode false) = (do
    let (options, offset) ← readLengthPrefixedString (km.encode false) 117
    let (username, offset) ← readOptional (km.encode false) offset
    let (password, offset) ← readOptional (km.encode false) offset
    let (peerInfo, _) ← readOptional (km.encode false) offset
    return { km with options, username, password, peerInfo }) := by
  have hlen : 119 ≤ (km.encode false).length := by
    have htexts := length_texts_ge km
    rw [encode_client]
    simp only [List.length_append, length_toList, List.length_cons, List.length_nil]
    omega
  have hmethod : (index (km.encode false) 4 : Outcome ProtocolError UInt8) = .ok 2 := by
    rw [encode_client]
    rfl
  have h5 := drop_client km
  have h53 := drop_add h5
  have h85 := drop_add h53
  rw [parse, if_neg (Nat.not_lt.mpr hlen), hmethod, Outcome.ok_bind, if_neg (by simp),
    readFixed_of_drop (by decide) h5, Outcome.ok_bind, readFixed_of_drop (by decide) h53, Outcome.ok_bind,
    readFixed_of_drop (by decide) h85, Outcome.ok_bind]

theorem secrets_of_parse (h : parse (sent.encode false) = .ok km) :
    km.preMaster = sent.preMaster ∧ km.random1 = sent.random1 ∧ km.random2 = sent.random2 := by
  simp only [parse_fixed, Outcome.bind_eq_ok_iff] at h
  obtain ⟨_, -, _, -, _, -, _, -, h⟩ := h
  cases h
  exact ⟨rfl, rfl, rfl⟩

theorem parse_encode (h : Fits km) : parse (km.encode false) = .ok (received km) := by
  have h117 := drop_add (drop_add (drop_add (drop_client km)))
  have hname := drop_add_length h117
  have hword := drop_add_length hname
  have hinfo := drop_add_length hword
  have hpeer : ∃ next, readOptional (km.encode false) (117 + (writeString km.options).length +
      (writeString (km.username.getD "")).length + (writeString (km.password.getD "")).length) =
        .ok (km.peerInfo.bind readBack, next) := by
    cases hp : km.peerInfo with
    | some info =>
      rw [hp] at hinfo
      exact ⟨_, readOptional_of (h.peerInfo info hp) (hinfo.trans (List.append_nil _).symm)⟩
    | none =>
      rw [hp] at hinfo
      have hend := List.drop_eq_nil_iff.mp hinfo
      exact ⟨_, by rw [readOptional, if_neg (by omega)]; rfl⟩
  obtain ⟨next, hpeer⟩ := hpeer
  rw [parse_fixed, readLengthPrefixedString_of h.options h117, Outcome.ok_bind]
  simp only [readOptional_of h.username hname, Outcome.ok_bind, readOptional_of h.password hword, hpeer]
  rfl

theorem drop_server (km : KeyMethodV2) (rest : Bytes) : (km.encode true ++ rest).drop 5 =
    km.random1.toList ++ (km.random2.toList ++ (texts km ++ rest)) := by
  simp [encode_server]

theorem parseFromServer_of {random1 random2 : ByteVec 32} (hlen : 71 ≤ data.length)
    (hmethod : (index data 4 : Outcome ProtocolError UInt8) = .ok 2)
    (h5 : data.drop 5 = random1.toList ++ (random2.toList ++ rest)) :
    parseFromServer data = (do
      let (options, _) ← readLengthPrefixedString data 69
      return { preMaster := zeros 48, random1, random2, options, username := none, password := none
               peerInfo := none }) := by
  have h37 := drop_add h5
  rw [parseFromServer, if_neg (Nat.not_lt.mpr hlen), hmethod, Outcome.ok_bind, if_neg (by simp),
    readFixed_of_drop (by decide) h5, Outcome.ok_bind, readFixed_of_drop (by decide) h37, Outcome.ok_bind]

theorem parseFromServer_fixed (km : KeyMethodV2) (rest : Bytes) :
    parseFromServer (km.encode true ++ rest) = (do
      let (options, _) ← readLengthPrefixedString (km.encode true ++ rest) 69
      return { preMaster := zeros 48, random1 := km.random1, random2 := km.random2, options
               username := none, password := none, peerInfo := none }) := by
  have hlen : 71 ≤ (km.encode true ++ rest).length := by
    have htexts := length_texts_ge km
    rw [encode_server]
    simp only [List.length_append, length_toList, List.length_cons, List.length_nil]
    omega
  have hmethod : (index (km.encode true ++ rest) 4 : Outcome ProtocolError UInt8) = .ok 2 := by
    rw [encode_server]
    rfl
  exact parseFromServer_of hlen hmethod (drop_server km rest)

theorem randoms_of_parseFromServer (h : parseFromServer (sent.encode true ++ rest) = .ok km) :
    km.random1 = sent.random1 ∧ km.random2 = sent.random2 := by
  simp only [parseFromServer_fixed, Outcome.bind_eq_ok_iff] at h
  obtain ⟨_, -, h⟩ := h
  cases h
  exact ⟨rfl, rfl⟩

theorem parseFromServer_encode (h : (asBytes km.options).length + 1 < 65536) (rest : Bytes) :
    parseFromServer (km.encode true ++ rest) =
      .ok { preMaster := zeros 48, random1 := km.random1, random2 := km.random2
            options := trimEndMatches km.options '\x00', username := none, password := none, peerInfo := none } := by
  have h69 := drop_add (drop_add (drop_server km rest))
  rw [texts, List.append_assoc] at h69
  rw [parseFromServer_fixed, readLengthPrefixedString_of h h69]
  rfl

end Messages

end CoreVpn.Protocol.KeyMethods
