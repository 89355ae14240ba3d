import CoreVpn.Client.ServerMessages
import CoreVpn.Protocol.PushTexts

namespace CoreVpn.Client.MessageStreams

open Lib.Computation Lib.Wire Lib.Text Protocol.Errors Protocol.ControlMessages Protocol.KeyMethods
open Protocol.PushReplies Protocol.PushTexts ServerMessages KeyMethodV2

def receive (toLowercase : String → String) (chunk : Bytes) : Program Intake MessageError Unit := do
  modify fun s => { s with totalPlaintext := s.totalPlaintext ++ chunk }
  tryParseServerMessages toLowercase

def receiveAll (toLowercase : String → String) : List Bytes → Program Intake MessageError Unit
  | [] => return ()
  | chunk :: chunks => do
    receive toLowercase chunk
    receiveAll toLowercase chunks

/-- A message as a server makes it: without the pre-master secret, a user name,
a password and peer info. -/
structure FromServer (km : KeyMethodV2) : Prop where
  preMaster : km.preMaster = zeros 48
  options : Plain km.options
  username : km.username = none
  password : km.password = none
  peerInfo : km.peerInfo = none

def terminated (s : String) : Bytes := asBytes s ++ [0]

/-- What a server sends: the key exchange message, then texts, of which the last
is the only push reply. -/
structure Transcript where
  km : KeyMethodV2
  messages : List String
  reply : PushReply
  km_sent : FromServer km
  messages_text : ∀ m ∈ messages, '\x00' ∉ m.toList ∧ startsWith m "PUSH_REPLY" = false
  reply_writable : Writable reply
  reply_text : '\x00' ∉ reply.encode.toList

namespace Transcript

def texts (sent : Transcript) : Bytes := sent.messages.flatMap terminated ++ terminated sent.reply.encode

def stream (sent : Transcript) : Bytes := sent.km.encode true ++ sent.texts

def optionsEnd (sent : Transcript) : Nat := 69 + (writeString sent.km.options).length

def kmEnd (sent : Transcript) : Nat := (sent.km.encode true).length

end Transcript

variable {toLowercase : String → String} {s t : Intake}

section Messages

theorem dropWhile_zeros (n : Nat) (data : Bytes) :
    (List.replicate n 0 ++ data).dropWhile (· == 0) = data.dropWhile (· == 0) := by
  induction n with
  | zero => rfl
  | succ n ih => rw [List.replicate_succ, List.cons_append, List.dropWhile_cons_of_pos rfl, ih]

def message (plaintext : Bytes) : String := trimEndMatches (fromUtf8Lossy plaintext) '\x00'

/-- The messages after which everything that has arrived is thrown away. -/
def Clears (msg : String) : Prop :=
  contains msg "AUTH_PENDING" = true ∨ startsWith msg "INFO_PRE,WEB_AUTH:" = true ∨
    startsWith msg "INFO_PRE,OPEN_URL:" = true

/-- The ways of looking at what has arrived, once the zero bytes in front of it
are gone. -/
inductive Takes (toLowercase : String → String) (s : Intake) (plaintext : Bytes) : Intake → Prop
  | nothing (h : plaintext = []) :
    Takes toLowercase s plaintext { s with totalPlaintext := [] }
  | reply {reply : PushReply} (hne : plaintext ≠ []) (h : startsWith (message plaintext) "PUSH_REPLY" = true)
    (hparse : PushReply.parse toLowercase (message plaintext) = .ok reply) :
    Takes toLowercase s plaintext { s with totalPlaintext := plaintext, pushReply := some reply }
  | cleared (hne : plaintext ≠ []) (h : startsWith (message plaintext) "PUSH_REPLY" = false)
    (hclears : Clears (message plaintext)) (urls : List String) :
    Takes toLowercase s plaintext { s with totalPlaintext := [], shownUrls := urls }
  | kept (hne : plaintext ≠ []) (h : startsWith (message plaintext) "PUSH_REPLY" = false)
    (hclears : ¬ Clears (message plaintext)) :
    Takes toLowercase s plaintext { s with totalPlaintext := plaintext }

theorem takeMessage_takes (toLowercase : String → String) (h : s.serverKm.isSome = true) :
    ∃ t, takeMessage toLowercase s = (.ok (), t) ∧
      Takes toLowercase s (s.totalPlaintext.dropWhile (· == 0)) t := by
  cases hempty : s.totalPlaintext.isEmpty with
  | true =>
    have hnil : s.totalPlaintext = [] := List.isEmpty_iff.mp hempty
    refine ⟨s, ?_, ?_⟩
    · simp [takeMessage, bind_apply, hnil]
    · have hs : s = { s with totalPlaintext := [] } := by rw [← hnil]
      rw [hnil]
      nth_rewrite 2 [hs]
      exact .nothing rfl
  | false =>
    simp only [takeMessage, bind_apply, get_apply, h, hempty, Bool.not_false, Bool.and_self, if_true, modify_apply]
    generalize s.totalPlaintext.dropWhile (· == 0) = plaintext
    by_cases hnil : plaintext = []
    · subst hnil
      exact ⟨_, rfl, .nothing rfl⟩
    · have hfull : plaintext.isEmpty = false := by simpa using hnil
      have hmsg : trimEndMatches (fromUtf8Lossy plaintext) '\x00' = message plaintext := rfl
      simp only [hfull, Bool.false_eq_true, if_false, hmsg]
      cases hpush : startsWith (message plaintext) "PUSH_REPLY" with
      | true => exact ⟨_, rfl, .reply hnil hpush rfl⟩
      | false =>
        simp only [Bool.false_eq_true, if_false]
        cases hauth : contains (message plaintext) "AUTH_PENDING" with
        | true => exact ⟨_, rfl, .cleared hnil hpush (.inl hauth) s.shownUrls⟩
        | false =>
          simp only [Bool.false_eq_true, if_false]
          cases hweb : startsWith (message plaintext) "INFO_PRE,WEB_AUTH:" with
          | true =>
            have hstrip : stripPrefix (message plaintext) "INFO_PRE,WEB_AUTH:" = some _ := if_pos hweb
            simp only [if_true, hstrip]
            exact ⟨_, rfl, .cleared hnil hpush (.inr (.inl hweb)) _⟩
          | false =>
            simp only [Bool.false_eq_true, if_false]
            cases hopen : startsWith (message plaintext) "INFO_PRE,OPEN_URL:" with
            | true => exact ⟨_, rfl, .cleared hnil hpush (.inr (.inr hopen)) _⟩
            | false =>
              have hkept : ¬ Clears (message plaintext) := by
                simp [Clears, hauth, hweb, hopen]
              exact ⟨_, rfl, .kept hnil hpush hkept⟩

end Messages

section KeyMethod

variable {km : KeyMethodV2} {data body arrived rest tail : Bytes} {offset : Nat}

def header (km : KeyMethodV2) : Bytes := [0, 0, 0, 0, 2] ++ (km.random1.toList ++ km.random2.toList)

theorem length_header (km : KeyMethodV2) : (header km).length = 69 := by
  simp [header]

def emptyTexts : Bytes := [0, 1, 0, 0, 1, 0]

theorem FromServer.encode_eq (h : FromServer km) :
    km.encode true = header km ++ (writeString km.options ++ emptyTexts) := by
  have hempty : writeString "" ++ (writeString "" ++ []) = emptyTexts := by decide
  rw [encode_server, header, texts, h.username, h.password, h.peerInfo]
  simp only [Option.getD_none, Option.elim, hempty, List.append_assoc]

theorem exists_of_prefix_append {front : Bytes} (h : arrived <+: front ++ rest)
    (hlen : front.length ≤ arrived.length) : ∃ body, arrived = front ++ body ∧ body <+: rest := by
  obtain ⟨more, hmore⟩ := h
  rcases List.append_eq_append_iff.mp hmore with ⟨gap, hfront, hmore⟩ | ⟨body, harrived, hrest⟩
  · have hgap : gap = [] := by
      rw [hfront, List.length_append] at hlen
      exact List.eq_nil_of_length_eq_zero (by omega)
    rw [hgap, List.append_nil] at hfront
    exact ⟨[], by rw [hfront, List.append_nil], List.nil_prefix⟩
  · exact ⟨body, harrived, more, hrest.symm⟩

theorem parseFromServer_header (h2 : 2 ≤ body.length) :
    parseFromServer (header km ++ body) = (do
      let (options, _) ← readLengthPrefixedString (header km ++ body) 69
      return { preMaster := zeros 48, random1 := km.random1, random2 := km.random2, options
               username := none, password := none, peerInfo := none }) := by
  have hlen : 71 ≤ (header km ++ body).length := by
    rw [List.length_append, length_header]
    omega
  have h5 : (header km ++ body).drop 5 = km.random1.toList ++ (km.random2.toList ++ body) := by
    simp [header]
  exact parseFromServer_of hlen rfl h5

theorem lengthBytes_of_prefix {ε : Type} {text : String} (hfits : (asBytes text).length + 1 < 65536)
    (hoffset : data.drop offset = body) (h : body <+: writeString text) (h2 : 2 ≤ body.length) :
    ∃ hi lo, (fromBe16 hi lo).toNat = (asBytes text).length + 1 ∧
      (index data offset : Outcome ε UInt8) = .ok hi ∧ (index data (offset + 1) : Outcome ε UInt8) = .ok lo := by
  obtain ⟨more, hmore⟩ := h
  have hwhole : Written (body ++ more) 0 text [] := ⟨hfits, by rw [List.drop_zero, hmore, List.append_nil]⟩
  obtain ⟨hi, lo, hlen, hcons⟩ := hwhole.cons
  obtain ⟨b, c, body, rfl⟩ : ∃ b c rest, body = b :: c :: rest := by
    match body, h2 with
    | b :: c :: rest, _ => exact ⟨b, c, rest, rfl⟩
  obtain ⟨rfl, htail⟩ := List.cons.inj hcons
  obtain ⟨rfl, -⟩ := List.cons.inj htail
  have hnext : data.drop (offset + 1) = c :: body := by
    rw [← List.drop_drop, hoffset]
    rfl
  have hlast : data.drop (offset + 1 + 1) = body := by
    rw [← List.drop_drop, hnext]
    rfl
  exact ⟨b, c, hlen, index_eq_ok_iff.mpr (by rw [hoffset, hnext]), index_eq_ok_iff.mpr (by rw [hnext, hlast])⟩

theorem length_of_drop (hoffset : data.drop offset = body) (hle : offset ≤ data.length) :
    data.length = offset + body.length := by
  have hlen := congrArg List.length hoffset
  rw [List.length_drop] at hlen
  omega

theorem readLengthPrefixedString_short {text : String} (hfits : (asBytes text).length + 1 < 65536)
    (hoffset : data.drop offset = body) (h : body <+: writeString text) (h2 : 2 ≤ body.length)
    (hlt : body.length < (writeString text).length) (hle : offset ≤ data.length) :
    ∃ e, readLengthPrefixedString data offset = .error (.error e) := by
  obtain ⟨hi, lo, hlength, hhi, hlo⟩ := lengthBytes_of_prefix (ε := ProtocolError) hfits hoffset h h2
  have hlen := length_of_drop hoffset hle
  rw [length_writeString] at hlt
  refine ⟨.packetTooShort (offset + 2 + ((asBytes text).length + 1)) data.length, ?_⟩
  rw [readLengthPrefixedString, if_neg (by omega), hhi, Outcome.ok_bind, hlo, Outcome.ok_bind]
  simp only [hlength]
  rw [if_pos (by omega)]

theorem skipStrings_short {text : String} (hfits : (asBytes text).length + 1 < 65536)
    (hoffset : data.drop offset = body) (h : body <+: writeString text)
    (hlt : body.length < (writeString text).length) (hle : offset ≤ data.length) (n : Nat) :
    skipStrings data (n + 1) offset = .ok offset := by
  have hlen := length_of_drop hoffset hle
  rw [length_writeString] at hlt
  by_cases h2 : 2 ≤ body.length
  · obtain ⟨hi, lo, hlength, hhi, hlo⟩ := lengthBytes_of_prefix (ε := MessageError) hfits hoffset h h2
    rw [skipStrings, if_neg (by omega), hhi, Outcome.ok_bind, hlo, Outcome.ok_bind]
    simp only [hlength]
    rw [if_pos (by omega)]
    rfl
  · rw [skipStrings, if_pos (by omega)]
    rfl

theorem takeKeyMethod_waits (hkm : FromServer km) (harrived : arrived <+: km.encode true ++ rest)
    (hlt : arrived.length < 69 + (writeString km.options).length) :
    takeKeyMethod { totalPlaintext := arrived } = (.ok (), { totalPlaintext := arrived }) := by
  by_cases hlen : 71 ≤ arrived.length
  · rw [hkm.encode_eq, List.append_assoc] at harrived
    obtain ⟨body, rfl, hbody⟩ := exists_of_prefix_append harrived (by rw [length_header]; omega)
    rw [List.length_append, length_header] at hlt hlen
    have hoptions : body <+: writeString km.options := by
      rw [List.append_assoc] at hbody
      exact List.prefix_of_prefix_length_le hbody (List.prefix_append _ _) (by omega)
    have hdrop : (header km ++ body).drop 69 = body := List.drop_left' (length_header km)
    obtain ⟨e, he⟩ := readLengthPrefixedString_short
      (Nat.lt_succ_of_le (Nat.succ_le_succ hkm.options.length)) hdrop hoptions (by omega) (by omega)
      (by rw [List.length_append, length_header]; omega)
    have hparse : parseFromServer (header km ++ body) = .error (.error e) := by
      rw [parseFromServer_header (by omega), he]
      rfl
    have hlong : decide (71 ≤ (header km ++ body).length) = true := by
      rw [List.length_append, length_header]
      exact decide_eq_true hlen
    simp only [takeKeyMethod, bind_apply, get_apply, Option.isNone_none, hlong, Bool.and_self, if_true, attempt,
      lift_apply, hparse]
    rfl
  · simp [takeKeyMethod, bind_apply, hlen]

theorem takeKeyMethod_takes (hkm : FromServer km) {size : Nat}
    (hsize : calculateKmSize (header km ++ (writeString km.options ++ tail)) = .ok size)
    (hle : size ≤ (header km ++ (writeString km.options ++ tail)).length) :
    takeKeyMethod { totalPlaintext := header km ++ (writeString km.options ++ tail) } =
      (.ok (), { totalPlaintext := (header km ++ (writeString km.options ++ tail)).drop size
                 serverKm := some km }) := by
  have hbody : 2 ≤ (writeString km.options ++ tail).length := by
    rw [List.length_append, length_writeString]
    omega
  have hdrop : (header km ++ (writeString km.options ++ tail)).drop 69 = writeString km.options ++ tail :=
    List.drop_left' (length_header km)
  have hparse : parseFromServer (header km ++ (writeString km.options ++ tail)) = .ok km := by
    rw [parseFromServer_header hbody,
      readLengthPrefixedString_of (Nat.lt_succ_of_le (Nat.succ_le_succ hkm.options.length)) hdrop,
      hkm.options.trim_eq]
    obtain ⟨preMaster, random1, random2, options, username, password, peerInfo⟩ := km
    obtain ⟨rfl, -, rfl, rfl, rfl⟩ := hkm
    rfl
  have hlong : decide (71 ≤ (header km ++ (writeString km.options ++ tail)).length) = true := by
    rw [List.length_append, length_header]
    exact decide_eq_true (by omega)
  have hslice : (slice (header km ++ (writeString km.options ++ tail)) size
      (header km ++ (writeString km.options ++ tail)).length : Outcome MessageError Bytes) =
        .ok ((header km ++ (writeString km.options ++ tail)).drop size) := by
    rw [slice_of_le hle le_rfl, List.take_of_length_le (by rw [List.length_drop])]
  simp only [takeKeyMethod, bind_apply, get_apply, Option.isNone_none, hlong, Bool.and_self, if_true, attempt,
    lift_apply, hparse, hsize, hslice, modify_apply]

theorem takeKeyMethod_whole (hkm : FromServer km) (rest : Bytes) :
    takeKeyMethod { totalPlaintext := km.encode true ++ rest } =
      (.ok (), { totalPlaintext := rest, serverKm := some km }) := by
  have hfits : Fits km := by
    refine ⟨Nat.lt_succ_of_le (Nat.succ_le_succ hkm.options.length), ?_, ?_, ?_⟩
    · rw [hkm.username]
      decide
    · rw [hkm.password]
      decide
    · rw [hkm.peerInfo]
      rintro _ ⟨⟩
  have heq : km.encode true ++ rest = header km ++ (writeString km.options ++ (emptyTexts ++ rest)) := by
    rw [hkm.encode_eq, List.append_assoc, List.append_assoc]
  have hsize := calculateKmSize_encode hfits hkm.peerInfo rest
  rw [heq] at hsize ⊢
  rw [takeKeyMethod_takes hkm hsize (by rw [← heq, List.length_append]; exact Nat.le_add_right _ _), ← heq,
    List.drop_left]

theorem calculateKmSize_header (hkm : FromServer km) (tail : Bytes) :
    calculateKmSize (header km ++ (writeString km.options ++ tail)) =
      skipStrings (header km ++ (writeString km.options ++ tail)) 2 (69 + (writeString km.options).length) := by
  have hoptions : Written (header km ++ (writeString km.options ++ tail)) 69 km.options tail :=
    ⟨Nat.lt_succ_of_le (Nat.succ_le_succ hkm.options.length), List.drop_left' (length_header km)⟩
  have hlen : 71 ≤ (header km ++ (writeString km.options ++ tail)).length := by
    rw [List.length_append, List.length_append, length_header, length_writeString]
    omega
  rw [calculateKmSize, if_neg (Nat.not_lt.mpr hlen), skipStrings_of hoptions]

/-- Taken too early, the message leaves an empty text behind, or two, of which
not all has arrived. -/
theorem takeKeyMethod_cut (hkm : FromServer km) (htail : tail <+: emptyTexts) (hlt : tail.length < 6) :
    ∃ left, takeKeyMethod { totalPlaintext := header km ++ (writeString km.options ++ tail) } =
      (.ok (), { totalPlaintext := left, serverKm := some km }) ∧
      (left ++ emptyTexts.drop tail.length = emptyTexts ∨
        left ++ emptyTexts.drop tail.length = writeString "") := by
  have hlen : (header km ++ (writeString km.options ++ tail)).length =
      69 + (writeString km.options).length + tail.length := by
    rw [List.length_append, List.length_append, length_header]
    omega
  have hdrop : (header km ++ (writeString km.options ++ tail)).drop (69 + (writeString km.options).length) =
      tail := by
    rw [← List.append_assoc]
    exact List.drop_left' (by rw [List.length_append, length_header])
  by_cases h3 : tail.length < 3
  · have hsize : calculateKmSize (header km ++ (writeString km.options ++ tail)) =
        .ok (69 + (writeString km.options).length) := by
      have hempty : tail <+: writeString "" :=
        List.prefix_of_prefix_length_le htail (by decide) (by rw [length_writeString]; exact Nat.le_of_lt h3)
      rw [calculateKmSize_header hkm]
      exact skipStrings_short (by decide) hdrop hempty (by rw [length_writeString]; exact h3) (by omega) 1
    refine ⟨tail, ?_, .inl ?_⟩
    · rw [takeKeyMethod_takes hkm hsize (by omega), hdrop]
    · obtain ⟨more, hmore⟩ := htail
      rw [← hmore, List.drop_left]
  · obtain ⟨last, rfl, hlast⟩ : ∃ last, tail = writeString "" ++ last ∧ last <+: writeString "" :=
      exists_of_prefix_append htail (by rw [length_writeString]; exact Nat.not_lt.mp h3)
    have hempty : (writeString "").length = 3 := by decide
    have hboth : (writeString "" ++ last).length = 3 + last.length := by rw [List.length_append, hempty]
    rw [hboth] at hlt hlen
    have hfirst : Written (header km ++ (writeString km.options ++ (writeString "" ++ last)))
        (69 + (writeString km.options).length) "" last := ⟨by decide, hdrop⟩
    have hsize : calculateKmSize (header km ++ (writeString km.options ++ (writeString "" ++ last))) =
        .ok (69 + (writeString km.options).length + (writeString "").length) := by
      rw [calculateKmSize_header hkm, skipStrings_of hfirst]
      exact skipStrings_short (by decide) hfirst.next hlast (by omega) (by omega) 0
    refine ⟨last, ?_, .inr ?_⟩
    · rw [takeKeyMethod_takes hkm hsize (by omega), hfirst.next]
    · obtain ⟨more, hmore⟩ := hlast
      have htexts : emptyTexts = writeString "" ++ last ++ more := by
        rw [List.append_assoc, hmore]
        decide
      rw [htexts, List.drop_left, hmore]

end KeyMethod

section Lost

variable {reply : PushReply} {data rest : Bytes} {pattern : String}

theorem message_prefix_lossy (data : Bytes) : (message data).toList <+: (fromUtf8Lossy data).toList := by
  rw [message, trimEndMatches, String.toList_ofList]
  exact List.rdropWhile_prefix _ _

theorem startsWith_lossy (h : startsWith (message data) pattern = true) :
    pattern.toList <+: (fromUtf8Lossy data).toList :=
  (List.isPrefixOf_iff_prefix.mp h).trans (message_prefix_lossy data)

theorem count_message_le (data : Bytes) : (message data).toList.count 'T' ≤ data.count 84 :=
  ((message_prefix_lossy data).sublist.count_le _).trans (count_fromUtf8Lossy_le (c := 'T') (by decide) data)

/-- The client no longer knows where a message begins: too little of the reply is
ahead of it, or a byte that no message begins with is in front. -/
structure Lost (reply : PushReply) (s : Intake) (rest : Bytes) : Prop where
  km : s.serverKm.isSome = true
  other : ∀ r ∈ s.pushReply, textCount 'T' r < textCount 'T' reply
  ahead : (s.totalPlaintext ++ rest).count 84 < textCount 'T' reply ∨
    ∃ n w, s.totalPlaintext ++ rest = List.replicate n 0 ++ 1 :: w ∧ w.count 84 ≤ textCount 'T' reply

theorem Lost.arrives {chunk : Bytes} (h : Lost reply s (chunk ++ rest)) :
    Lost reply { s with totalPlaintext := s.totalPlaintext ++ chunk } rest := by
  refine ⟨h.km, h.other, ?_⟩
  rw [List.append_assoc]
  exact h.ahead

theorem Takes.lost_of_count (ht : Takes toLowercase s (s.totalPlaintext.dropWhile (· == 0)) t)
    (hkm : s.serverKm.isSome = true) (hother : ∀ r ∈ s.pushReply, textCount 'T' r < textCount 'T' reply)
    (hcount : (s.totalPlaintext ++ rest).count 84 < textCount 'T' reply) : Lost reply t rest := by
  have hstrip : (s.totalPlaintext.dropWhile (· == 0)).count 84 ≤ s.totalPlaintext.count 84 :=
    (List.dropWhile_sublist _).count_le _
  have hrest : ([] ++ rest).count 84 < textCount 'T' reply := by
    rw [List.count_append] at hcount
    rw [List.nil_append]
    omega
  have hkept : (s.totalPlaintext.dropWhile (· == 0) ++ rest).count 84 < textCount 'T' reply := by
    rw [List.count_append] at hcount ⊢
    omega
  cases ht with
  | nothing h => exact ⟨hkm, hother, .inl hrest⟩
  | reply hne h hparse =>
    have htexts := textCount_parse_le hparse 'T'
    have hmessage := count_message_le (s.totalPlaintext.dropWhile (· == 0))
    refine ⟨hkm, ?_, .inl hkept⟩
    rintro _ ⟨⟩
    rw [List.count_append] at hcount
    omega
  | cleared hne h hclears urls => exact ⟨hkm, hother, .inl hrest⟩
  | kept hne h hclears => exact ⟨hkm, hother, .inl hkept⟩

theorem not_startsWith_one {w : Bytes} (h : pattern.toList.head? ≠ some '\x01') (hne : pattern ≠ "") :
    startsWith (message (1 :: w)) pattern = false := by
  rw [Bool.eq_false_iff]
  intro hstart
  have hone : fromUtf8Lossy (1 :: w) = "\x01" ++ fromUtf8Lossy w := fromUtf8Lossy_append "\x01" w
  have hfirst := startsWith_lossy hstart
  obtain ⟨c, chars, hpattern⟩ := List.exists_cons_of_ne_nil (mt String.toList_eq_nil_iff.mp hne)
  rw [hone, String.toList_append, hpattern] at hfirst
  obtain ⟨more, hmore⟩ := hfirst
  rw [hpattern, List.head?_cons] at h
  exact h (congrArg some (List.cons.inj hmore).1)

theorem Takes.lost_of_one {w : Bytes} (ht : Takes toLowercase s (1 :: w) t) (hkm : s.serverKm.isSome = true)
    (hother : ∀ r ∈ s.pushReply, textCount 'T' r < textCount 'T' reply)
    (hcount : (w ++ rest).count 84 ≤ textCount 'T' reply) : Lost reply t rest := by
  cases ht with
  | nothing h => cases h
  | reply hne h hparse =>
    rw [not_startsWith_one (by decide) (by decide)] at h
    cases h
  | cleared hne h hclears urls =>
    rw [Clears, not_startsWith_one (by decide) (by decide), not_startsWith_one (by decide) (by decide)] at hclears
    have hcontains : contains (message (1 :: w)) "AUTH_PENDING" = true := by simpa using hclears
    have hmem : 'T' ∈ (message (1 :: w)).toList := (of_decide_eq_true hcontains).subset (by decide)
    have hmessage := count_message_le (1 :: w)
    have hpos := List.count_pos_iff.mpr hmem
    rw [List.count_cons_of_ne (by decide)] at hmessage
    rw [List.count_append] at hcount
    refine ⟨hkm, hother, .inl ?_⟩
    rw [List.nil_append]
    omega
  | kept hne h hclears => exact ⟨hkm, hother, .inr ⟨0, w ++ rest, rfl, hcount⟩⟩

theorem Takes.of_nil (ht : Takes toLowercase s [] t) : t = { s with totalPlaintext := [] } := by
  cases ht with
  | nothing h => rfl
  | reply hne h hparse => exact absurd rfl hne
  | cleared hne h hclears urls => exact absurd rfl hne
  | kept hne h hclears => exact absurd rfl hne

theorem Lost.takeMessage (h : Lost reply s rest) :
    ∃ t, takeMessage toLowercase s = (.ok (), t) ∧ Lost reply t rest := by
  obtain ⟨t, hrun, ht⟩ := takeMessage_takes toLowercase h.km
  refine ⟨t, hrun, ?_⟩
  rcases h.ahead with hcount | ⟨n, w, heq, hcount⟩
  · exact ht.lost_of_count h.km h.other hcount
  · -- While only zero bytes have arrived, the byte is still ahead.
    have hzeros : ∀ k m, s.totalPlaintext = List.replicate k 0 → rest = List.replicate m 0 ++ 1 :: w →
        Lost reply t rest := by
      intro k m hbuffer hrest
      have hnil := dropWhile_zeros k []
      rw [List.append_nil, ← hbuffer] at hnil
      rw [hnil] at ht
      rw [ht.of_nil]
      exact ⟨h.km, h.other, .inr ⟨m, w, hrest, hcount⟩⟩
    rcases List.append_eq_append_iff.mp heq with ⟨gap, hfront, hrest⟩ | ⟨gap, hfront, hgap⟩
    · obtain ⟨-, hbuffer, hgap⟩ := List.append_eq_replicate_iff.mp hfront.symm
      exact hzeros _ gap.length hbuffer (hgap ▸ hrest)
    · cases gap with
      | nil => exact hzeros n 0 (by rw [hfront, List.append_nil]) hgap.symm
      | cons b gap =>
        obtain ⟨rfl, rfl⟩ := List.cons.inj hgap
        rw [hfront, dropWhile_zeros, List.dropWhile_cons_of_neg (by decide)] at ht
        exact ht.lost_of_one h.km h.other hcount

end Lost

section Synced

variable {sent : Transcript} {m rest chunk data : Bytes} {n : Nat}

structure Synced (sent : Transcript) (s : Intake) (m : Bytes) : Prop where
  km : s.serverKm = some sent.km
  plaintext : s.totalPlaintext.dropWhile (· == 0) = m.dropWhile (· == 0)
  complete : m = sent.texts → s.pushReply = some sent.reply

theorem terminated_reply (sent : Transcript) :
    ∃ more, terminated sent.reply.encode = asBytes "PUSH_REPLY" ++ (asBytes more ++ [0]) := by
  refine ⟨"," ++ String.intercalate "," (directives sent.reply), ?_⟩
  rw [terminated, encode_eq, ← List.append_assoc, ← asBytes_append, ← String.append_assoc]
  rfl

theorem strip_terminated (sent : Transcript) (h : m <+: terminated sent.reply.encode) :
    m.dropWhile (· == 0) = m := by
  obtain ⟨more, hmore⟩ := terminated_reply sent
  rw [hmore] at h
  cases m with
  | nil => rfl
  | cons b m =>
    obtain ⟨rest, hrest⟩ := h
    obtain ⟨rfl, -⟩ := List.cons.inj hrest
    exact List.dropWhile_cons_of_neg (by decide)

theorem strip_prefix (htexts : sent.texts = List.replicate n 0 ++ terminated sent.reply.encode)
    (h : m <+: sent.texts) :
    m.dropWhile (· == 0) <+: terminated sent.reply.encode ∧
      (m = sent.texts → m.dropWhile (· == 0) = terminated sent.reply.encode) := by
  rw [htexts] at h ⊢
  by_cases hlen : n ≤ m.length
  · obtain ⟨body, rfl, hbody⟩ := exists_of_prefix_append h (by rwa [List.length_replicate])
    rw [dropWhile_zeros, strip_terminated sent hbody]
    exact ⟨hbody, List.append_cancel_left⟩
  · have hzeros : m <+: List.replicate n 0 :=
      List.prefix_of_prefix_length_le h (List.prefix_append _ _) (by rw [List.length_replicate]; omega)
    obtain ⟨more, hmore⟩ := hzeros
    obtain ⟨-, hm, -⟩ := List.append_eq_replicate_iff.mp hmore
    have hnil := dropWhile_zeros m.length []
    rw [List.append_nil, ← hm] at hnil
    rw [hnil]
    refine ⟨List.nil_prefix, ?_⟩
    intro heq
    rw [heq, List.length_append, List.length_replicate] at hlen
    omega

theorem not_clears_name : ∀ k < 10, ¬ Clears (message ((asBytes "PUSH_REPLY").take k)) := by
  unfold Clears
  decide +kernel

theorem rdropWhile_append {α : Type} {p : α → Bool} {front : List α} (h : front.rdropWhile p = front)
    (back : List α) : (front ++ back).rdropWhile p = front ++ back.rdropWhile p := by
  induction back using List.reverseRecOn with
  | nil => rw [List.append_nil, List.rdropWhile_nil, List.append_nil, h]
  | append_singleton back a ih =>
    by_cases ha : p a = true
    · rw [← List.append_assoc, List.rdropWhile_concat_pos _ _ _ ha, List.rdropWhile_concat_pos _ _ _ ha, ih]
    · rw [← List.append_assoc, List.rdropWhile_concat_neg _ _ _ ha, List.rdropWhile_concat_neg _ _ _ ha,
        List.append_assoc]

theorem startsWith_name (data : Bytes) : startsWith (message (asBytes "PUSH_REPLY" ++ data)) "PUSH_REPLY" = true := by
  rw [message, fromUtf8Lossy_append, trimEndMatches, String.toList_append, rdropWhile_append (by decide),
    String.ofList_append, String.ofList_toList]
  exact startsWith_append _ _

theorem message_terminated {text : String} (h : '\x00' ∉ text.toList) : message (terminated text) = text := by
  have hzero : fromUtf8Lossy [0] = "\x00" := by decide +kernel
  have hlast : text.toList.rdropWhile (· == '\x00') = text.toList := by
    rw [List.rdropWhile_eq_self_iff]
    intro hne hnul
    exact h (beq_iff_eq.mp hnul ▸ List.getLast_mem hne)
  have htrim : trimEndMatches (text ++ "\x00") '\x00' = trimEndMatches text '\x00' :=
    trimEndMatches_append_self text '\x00'
  rw [message, terminated, fromUtf8Lossy_append, hzero, htrim, trimEndMatches, hlast, String.ofList_toList]

theorem Synced.takeMessage (hlower : Lowercases toLowercase)
    (htexts : sent.texts = List.replicate n 0 ++ terminated sent.reply.encode) (hm : m <+: sent.texts)
    (hkm : s.serverKm = some sent.km) (hplain : s.totalPlaintext.dropWhile (· == 0) = m.dropWhile (· == 0)) :
    ∃ t, takeMessage toLowercase s = (.ok (), t) ∧ Synced sent t m := by
  obtain ⟨t, hrun, ht⟩ := takeMessage_takes toLowercase (s := s) (by rw [hkm]; rfl)
  obtain ⟨hfirst, hwhole⟩ := strip_prefix htexts hm
  have hidem := List.dropWhile_idempotent (· == 0) m
  obtain ⟨more, hmore⟩ := terminated_reply sent
  -- Enough of the reply has arrived as soon as its name has.
  have hname : ∀ data, data <+: terminated sent.reply.encode →
      startsWith (message data) "PUSH_REPLY" = false → data.length < 10 ∧ ¬ Clears (message data) := by
    intro data hdata hnot
    rw [hmore] at hdata
    by_cases hlen : data.length < 10
    · refine ⟨hlen, ?_⟩
      have htake : data = (asBytes "PUSH_REPLY").take data.length := by
        have h := List.prefix_of_prefix_length_le hdata (List.prefix_append _ _) (Nat.le_of_lt hlen)
        exact List.prefix_iff_eq_take.mp h
      rw [htake]
      exact not_clears_name _ hlen
    · obtain ⟨body, rfl, -⟩ := exists_of_prefix_append hdata (Nat.not_lt.mp hlen)
      rw [startsWith_name] at hnot
      cases hnot
  have hlong : 10 < (terminated sent.reply.encode).length := by
    rw [hmore, List.length_append, List.length_append]
    exact Nat.lt_add_of_pos_right (by simp)
  refine ⟨t, hrun, ?_⟩
  rw [hplain] at ht
  cases ht with
  | nothing h =>
    refine ⟨hkm, by rw [h]; rfl, ?_⟩
    intro hall
    rw [← hwhole hall, h] at hlong
    cases hlong
  | reply hne h hparse =>
    refine ⟨hkm, hidem, ?_⟩
    intro hall
    rw [hwhole hall, message_terminated sent.reply_text,
      parse_encode hlower sent.reply_writable.regular] at hparse
    exact congrArg some (Except.ok.inj hparse).symm
  | cleared hne h hclears urls => exact absurd hclears (hname _ hfirst h).2
  | kept hne h hclears =>
    refine ⟨hkm, hidem, ?_⟩
    intro hall
    have hshort := (hname _ hfirst h).1
    rw [hwhole hall] at hshort
    omega

end Synced

section Runs

variable {sent : Transcript} {m rest chunk arrived : Bytes} {chunks : List Bytes} {n : Nat}

theorem takeKeyMethod_done (h : s.serverKm.isSome = true) : takeKeyMethod s = (.ok (), s) := by
  have hnone : s.serverKm.isNone = false := by simpa using h
  simp only [takeKeyMethod, bind_apply, get_apply, hnone, Bool.false_and, Bool.false_eq_true, if_false,
    pure_apply]

theorem receive_eq (hkey : takeKeyMethod { s with totalPlaintext := s.totalPlaintext ++ chunk } = (.ok (), t)) :
    receive toLowercase chunk s = takeMessage toLowercase t := by
  rw [receive, bind_ok (modify_apply _ _), tryParseServerMessages, bind_ok hkey]

theorem receiveAll_cons (h : receive toLowercase chunk s = (.ok (), t)) :
    receiveAll toLowercase (chunk :: chunks) s = receiveAll toLowercase chunks t := by
  rw [receiveAll, bind_ok h]

theorem Lost.receive (toLowercase : String → String) (h : Lost sent.reply s (chunk ++ rest)) :
    ∃ t, receive toLowercase chunk s = (.ok (), t) ∧ Lost sent.reply t rest := by
  rw [receive_eq (takeKeyMethod_done h.arrives.km)]
  exact h.arrives.takeMessage

theorem Lost.receiveAll (h : Lost sent.reply s (chunks.flatten ++ rest)) :
    ∃ t, receiveAll toLowercase chunks s = (.ok (), t) ∧ Lost sent.reply t rest := by
  induction chunks generalizing s with
  | nil => exact ⟨s, rfl, h⟩
  | cons chunk chunks ih =>
    rw [List.flatten_cons, List.append_assoc] at h
    obtain ⟨t, hrun, ht⟩ := h.receive toLowercase
    rw [receiveAll_cons hrun]
    exact ih ht

theorem dropWhile_append_congr {a b : Bytes} (h : a.dropWhile (· == 0) = b.dropWhile (· == 0)) (rest : Bytes) :
    (a ++ rest).dropWhile (· == 0) = (b ++ rest).dropWhile (· == 0) := by
  rw [List.dropWhile_append, List.dropWhile_append, h]

theorem Synced.receive (hlower : Lowercases toLowercase)
    (htexts : sent.texts = List.replicate n 0 ++ terminated sent.reply.encode) (hm : m ++ chunk <+: sent.texts)
    (h : Synced sent s m) :
    ∃ t, receive toLowercase chunk s = (.ok (), t) ∧ Synced sent t (m ++ chunk) := by
  have hdone : takeKeyMethod { s with totalPlaintext := s.totalPlaintext ++ chunk } =
      (.ok (), { s with totalPlaintext := s.totalPlaintext ++ chunk }) := by
    apply takeKeyMethod_done
    rw [h.km]
    rfl
  rw [receive_eq hdone]
  exact Synced.takeMessage hlower htexts hm h.km (dropWhile_append_congr h.plaintext chunk)

theorem Synced.receiveAll (hlower : Lowercases toLowercase)
    (htexts : sent.texts = List.replicate n 0 ++ terminated sent.reply.encode)
    (hm : m ++ chunks.flatten = sent.texts) (h : Synced sent s m) :
    ∃ t, receiveAll toLowercase chunks s = (.ok (), t) ∧ Synced sent t sent.texts := by
  induction chunks generalizing s m with
  | nil =>
    rw [List.flatten_nil, List.append_nil] at hm
    exact ⟨s, rfl, hm ▸ h⟩
  | cons chunk chunks ih =>
    rw [List.flatten_cons, ← List.append_assoc] at hm
    obtain ⟨t, hrun, ht⟩ := h.receive hlower htexts ⟨_, hm⟩
    rw [receiveAll_cons hrun]
    exact ih hm ht

theorem receive_waiting (harrived : arrived ++ chunk <+: sent.stream)
    (hlt : (arrived ++ chunk).length < sent.optionsEnd) :
    receive toLowercase chunk { totalPlaintext := arrived } = (.ok (), { totalPlaintext := arrived ++ chunk }) := by
  rw [receive_eq (takeKeyMethod_waits sent.km_sent harrived hlt)]
  rfl

theorem receive_whole (hlower : Lowercases toLowercase)
    (htexts : sent.texts = List.replicate n 0 ++ terminated sent.reply.encode)
    (harrived : arrived ++ chunk <+: sent.stream) (hle : sent.kmEnd ≤ (arrived ++ chunk).length) :
    ∃ m t, arrived ++ chunk = sent.km.encode true ++ m ∧
      receive toLowercase chunk { totalPlaintext := arrived } = (.ok (), t) ∧ Synced sent t m := by
  obtain ⟨m, heq, hm⟩ := exists_of_prefix_append harrived hle
  have hkey := takeKeyMethod_whole sent.km_sent m
  rw [← heq] at hkey
  obtain ⟨t, hrun, ht⟩ := Synced.takeMessage
    (s := { totalPlaintext := m, serverKm := some sent.km }) hlower htexts hm rfl rfl
  exact ⟨m, t, heq, by rw [receive_eq hkey, hrun], ht⟩

theorem count_texts (htexts : sent.texts = List.replicate n 0 ++ terminated sent.reply.encode) :
    sent.texts.count 84 = textCount 'T' sent.reply := by
  have hbytes : (asBytes sent.reply.encode).count 84 = sent.reply.encode.toList.count 'T' :=
    count_asBytes (c := 'T') (by decide) _
  rw [htexts, terminated, List.count_append, List.count_append, hbytes, count_encode sent.reply_writable.regular,
    List.count_replicate]
  exact Nat.zero_add _

theorem receive_cut (htexts : sent.texts = List.replicate n 0 ++ terminated sent.reply.encode)
    (heq : arrived ++ chunk ++ rest = sent.stream) (hge : sent.optionsEnd ≤ (arrived ++ chunk).length)
    (hlt : (arrived ++ chunk).length < sent.kmEnd) :
    ∃ t, receive toLowercase chunk { totalPlaintext := arrived } = (.ok (), t) ∧ Lost sent.reply t rest := by
  have hstream : sent.stream =
      (header sent.km ++ writeString sent.km.options) ++ (emptyTexts ++ sent.texts) := by
    simp only [Transcript.stream, sent.km_sent.encode_eq, List.append_assoc]
  have hfront : (header sent.km ++ writeString sent.km.options).length = sent.optionsEnd := by
    rw [List.length_append, length_header, Transcript.optionsEnd]
  have hend : sent.kmEnd = sent.optionsEnd + 6 := by
    rw [Transcript.kmEnd, sent.km_sent.encode_eq, ← List.append_assoc, List.length_append, hfront]
    rfl
  have hfirst : arrived ++ chunk <+:
      (header sent.km ++ writeString sent.km.options) ++ (emptyTexts ++ sent.texts) := ⟨rest, heq.trans hstream⟩
  obtain ⟨tail, harrived, htail⟩ := exists_of_prefix_append hfirst (hfront.trans_le hge)
  have hshort : tail.length < 6 := by
    rw [harrived, List.length_append, hfront] at hlt
    omega
  have hempty : tail <+: emptyTexts :=
    List.prefix_of_prefix_length_le htail (List.prefix_append _ _) (Nat.le_of_lt hshort)
  obtain ⟨left, hkey, hleft⟩ := takeKeyMethod_cut sent.km_sent hempty hshort
  have hrest : rest = emptyTexts.drop tail.length ++ sent.texts := by
    rw [harrived, hstream, List.append_assoc (header sent.km ++ writeString sent.km.options)] at heq
    have hsame := List.append_cancel_left heq
    obtain ⟨more, hmore⟩ := hempty
    rw [← hmore, List.append_assoc] at hsame
    rw [← hmore, List.drop_left]
    exact List.append_cancel_left hsame
  have hcount := (Nat.zero_add _).trans_le (count_texts htexts).le
  have hlost : Lost sent.reply { totalPlaintext := left, serverKm := some sent.km } rest := by
    refine ⟨rfl, fun r hr => (by cases hr), .inr ?_⟩
    rw [hrest, ← List.append_assoc]
    rcases hleft with htwo | hone
    · exact ⟨1, [0, 0, 1, 0] ++ sent.texts, by rw [htwo]; rfl, by rw [List.count_append]; exact hcount⟩
    · exact ⟨1, [0] ++ sent.texts, by rw [hone]; rfl, by rw [List.count_append]; exact hcount⟩
  rw [← List.append_assoc, ← harrived] at hkey
  rw [receive_eq hkey]
  exact hlost.takeMessage

/-- Whether a chunk ends behind the options but inside the key exchange message. -/
def CutAt (sent : Transcript) (n : Nat) : Prop := sent.optionsEnd ≤ n ∧ n < sent.kmEnd

theorem optionsEnd_le_kmEnd (sent : Transcript) : sent.optionsEnd ≤ sent.kmEnd := by
  rw [Transcript.kmEnd, sent.km_sent.encode_eq, ← List.append_assoc, List.length_append, List.length_append,
    length_header, Transcript.optionsEnd]
  exact Nat.le_add_right _ _

theorem receiveAll_uncut (arrived : Bytes) (hlower : Lowercases toLowercase)
    (htexts : sent.texts = List.replicate n 0 ++ terminated sent.reply.encode)
    (heq : arrived ++ chunks.flatten = sent.stream) (hwait : arrived.length < sent.optionsEnd)
    (huncut : ∀ before after, chunks = before ++ after → ¬ CutAt sent (arrived ++ before.flatten).length) :
    ∃ t, receiveAll toLowercase chunks { totalPlaintext := arrived } = (.ok (), t) ∧
      Synced sent t sent.texts := by
  induction chunks generalizing arrived with
  | nil =>
    have hlen := congrArg List.length heq
    rw [List.flatten_nil, List.append_nil, Transcript.stream, List.length_append] at hlen
    have hle := optionsEnd_le_kmEnd sent
    rw [Transcript.kmEnd] at hle
    omega
  | cons chunk chunks ih =>
    rw [List.flatten_cons, ← List.append_assoc] at heq
    by_cases hlt : (arrived ++ chunk).length < sent.optionsEnd
    · rw [receiveAll_cons (receive_waiting ⟨_, heq⟩ hlt)]
      apply ih _ heq hlt
      intro before after hsplit
      have hcut := huncut (chunk :: before) after (by rw [hsplit]; rfl)
      rwa [List.flatten_cons, ← List.append_assoc] at hcut
    · have hcut := huncut [chunk] chunks rfl
      rw [List.flatten_singleton] at hcut
      have hle : sent.kmEnd ≤ (arrived ++ chunk).length := by
        by_contra hshort
        exact hcut ⟨Nat.not_lt.mp hlt, Nat.not_le.mp hshort⟩
      obtain ⟨m, t, hm, hrun, ht⟩ := receive_whole hlower htexts ⟨_, heq⟩ hle
      rw [receiveAll_cons hrun]
      rw [hm, Transcript.stream, List.append_assoc] at heq
      exact ht.receiveAll hlower htexts (List.append_cancel_left heq)

theorem receiveAll_cut (toLowercase : String → String) (arrived : Bytes)
    (htexts : sent.texts = List.replicate n 0 ++ terminated sent.reply.encode)
    {before after : List Bytes} (heq : arrived ++ (before.flatten ++ after.flatten) = sent.stream)
    (hwait : arrived.length < sent.optionsEnd) (hcut : CutAt sent (arrived ++ before.flatten).length) :
    ∃ t, receiveAll toLowercase (before ++ after) { totalPlaintext := arrived } = (.ok (), t) ∧
      Lost sent.reply t [] := by
  induction before generalizing arrived with
  | nil =>
    rw [List.flatten_nil, List.append_nil] at hcut
    exact absurd hcut.1 (Nat.not_le.mpr hwait)
  | cons chunk before ih =>
    rw [List.flatten_cons, List.append_assoc, ← List.append_assoc arrived] at heq
    rw [List.flatten_cons, ← List.append_assoc] at hcut
    by_cases hlt : (arrived ++ chunk).length < sent.optionsEnd
    · rw [List.cons_append, receiveAll_cons (receive_waiting ⟨_, heq⟩ hlt)]
      exact ih _ heq hlt hcut
    · have hkm : (arrived ++ chunk).length < sent.kmEnd := by
        have hshort := hcut.2
        rw [List.length_append] at hshort
        omega
      obtain ⟨t, hrun, ht⟩ := receive_cut htexts heq (Nat.not_lt.mp hlt) hkm
      rw [List.cons_append, receiveAll_cons hrun]
      rw [← List.flatten_append] at ht
      exact Lost.receiveAll (by rwa [List.append_nil])

end Runs

section Main

variable {sent : Transcript} {chunks : List Bytes}

/-- Received in these chunks and received at once, the stream gives the same
messages, and those that were sent. -/
def ParsedAsSent (toLowercase : String → String) (sent : Transcript) (chunks : List Bytes) : Prop :=
  let final := receiveAll toLowercase chunks {}
  let whole := receiveAll toLowercase [sent.stream] {}
  final.1 = .ok () ∧ final.2.serverKm = whole.2.serverKm ∧ final.2.pushReply = whole.2.pushReply ∧
    final.2.serverKm = some sent.km ∧ final.2.pushReply = some sent.reply

theorem texts_of_empty (h : ∀ m ∈ sent.messages, m = "") :
    sent.texts = List.replicate sent.messages.length 0 ++ terminated sent.reply.encode := by
  rw [Transcript.texts]
  congr 1
  generalize sent.messages = messages at h
  induction messages with
  | nil => rfl
  | cons m messages ih =>
    rw [List.flatMap_cons, h m List.mem_cons_self, ih fun m' hm' => h m' (List.mem_cons_of_mem m hm')]
    rfl

theorem head_asBytes {m : String} (hne : m ≠ "") (hnul : '\x00' ∉ m.toList) :
    ∃ b bytes, asBytes m = b :: bytes ∧ b ≠ 0 := by
  have hcount : (asBytes m).count 0 = 0 := by
    have hzero := count_asBytes (c := '\x00') (by decide) m
    rwa [List.count_eq_zero_of_not_mem hnul] at hzero
  have hbytes : asBytes m ≠ [] := by
    intro hnil
    have hback := fromUtf8_asBytes m
    rw [hnil] at hback
    exact hne (Option.some.inj hback).symm
  obtain ⟨b, bytes, heq⟩ := List.exists_cons_of_ne_nil hbytes
  refine ⟨b, bytes, heq, ?_⟩
  rintro rfl
  rw [heq] at hcount
  exact List.count_eq_zero.mp hcount List.mem_cons_self

theorem strip_messages {messages : List String} (htext : ∀ m ∈ messages, '\x00' ∉ m.toList)
    (h : ∃ m ∈ messages, m ≠ "") (rest : Bytes) :
    ∃ m ∈ messages, m ≠ "" ∧ ∃ more, (messages.flatMap terminated ++ rest).dropWhile (· == 0) =
      terminated m ++ more := by
  induction messages with
  | nil =>
    obtain ⟨m, hm, -⟩ := h
    cases hm
  | cons first messages ih =>
    by_cases hfirst : first = ""
    · have hothers : ∃ m ∈ messages, m ≠ "" := by
        obtain ⟨m, hm, hne⟩ := h
        rcases List.mem_cons.mp hm with rfl | hm
        · exact absurd hfirst hne
        · exact ⟨m, hm, hne⟩
      obtain ⟨m, hm, hne, more, hstrip⟩ := ih (fun m hm => htext m (List.mem_cons_of_mem _ hm)) hothers
      refine ⟨m, List.mem_cons_of_mem _ hm, hne, more, ?_⟩
      rw [← hstrip, List.flatMap_cons, hfirst]
      rfl
    · obtain ⟨b, bytes, heq, hb⟩ := head_asBytes hfirst (htext first List.mem_cons_self)
      refine ⟨first, List.mem_cons_self, hfirst, messages.flatMap terminated ++ rest, ?_⟩
      rw [List.flatMap_cons, List.append_assoc, terminated, heq]
      exact List.dropWhile_cons_of_neg (by simpa using hb)

theorem not_startsWith_terminated {m pattern : String} (hnul : '\x00' ∉ pattern.toList)
    (h : startsWith m pattern = false) (more : Bytes) :
    startsWith (message (terminated m ++ more)) pattern = false := by
  rw [Bool.eq_false_iff]
  intro hstart
  have hfirst := startsWith_lossy hstart
  have htext : (fromUtf8Lossy (terminated m ++ more)).toList =
      m.toList ++ '\x00' :: (fromUtf8Lossy more).toList := by
    have hzero : fromUtf8Lossy ([0] ++ more) = "\x00" ++ fromUtf8Lossy more := fromUtf8Lossy_append "\x00" more
    rw [terminated, List.append_assoc, fromUtf8Lossy_append, hzero]
    simp
  rw [htext] at hfirst
  have hm : pattern.toList <+: m.toList := by
    rcases List.prefix_or_prefix_of_prefix hfirst (List.prefix_append _ _) with hle | ⟨gap, hgap⟩
    · exact hle
    · rw [← hgap, List.prefix_append_right_inj] at hfirst
      cases gap with
      | nil => exact ⟨[], by rw [← hgap, List.append_nil, List.append_nil]⟩
      | cons c gap =>
        obtain ⟨after, hafter⟩ := hfirst
        obtain ⟨rfl, -⟩ := List.cons.inj hafter
        exact absurd (by rw [← hgap]; simp) hnul
  rw [startsWith, List.isPrefixOf_iff_prefix.mpr hm] at h
  cases h

theorem unread_of_message (h : ∃ m ∈ sent.messages, m ≠ "") :
    (receiveAll toLowercase [sent.stream] {}).2.pushReply = none := by
  obtain ⟨m, hm, -, more, hstrip⟩ := strip_messages (fun m hm => (sent.messages_text m hm).1) h
    (terminated sent.reply.encode)
  have hkey := takeKeyMethod_whole sent.km_sent sent.texts
  obtain ⟨t, hrun, ht⟩ := takeMessage_takes toLowercase
    (s := { totalPlaintext := sent.texts, serverKm := some sent.km }) rfl
  have hreceive : receive toLowercase sent.stream {} = (.ok (), t) := by
    rw [← hrun]
    exact receive_eq hkey
  rw [receiveAll_cons hreceive]
  have hplain : sent.texts.dropWhile (· == 0) = terminated m ++ more := hstrip
  have hnot := not_startsWith_terminated (by decide) (sent.messages_text m hm).2 more
  rw [hplain] at ht
  cases ht with
  | nothing h => rfl
  | reply hne h hparse =>
    rw [hnot] at h
    cases h
  | cleared hne h hclears urls => rfl
  | kept hne h hclears => rfl

theorem optionsEnd_pos (sent : Transcript) : ([] : Bytes).length < sent.optionsEnd := by
  rw [Transcript.optionsEnd]
  exact Nat.lt_of_lt_of_le (by decide) (Nat.le_add_right _ _)

theorem uncut_at_once (sent : Transcript) (before after : List Bytes) (h : [sent.stream] = before ++ after) :
    ¬ CutAt sent before.flatten.length := by
  rintro ⟨hge, hlt⟩
  cases before with
  | nil => exact absurd hge (Nat.not_le.mpr (optionsEnd_pos sent))
  | cons chunk before =>
    obtain ⟨rfl, hrest⟩ := List.cons.inj h
    obtain ⟨rfl, -⟩ := List.append_eq_nil_iff.mp hrest.symm
    rw [List.flatten_singleton, Transcript.stream, List.length_append, Transcript.kmEnd] at hlt
    omega

/-- The stream is parsed as it was sent exactly if no text comes before the reply
and no chunk ends between the options and the end of the key exchange
message. -/
theorem messages_parsed_iff (hlower : Lowercases toLowercase) (sent : Transcript) (chunks : List Bytes)
    (h : chunks.flatten = sent.stream) :
    ParsedAsSent toLowercase sent chunks ↔
      (∀ m ∈ sent.messages, m = "") ∧
        ∀ before after, chunks = before ++ after → ¬ CutAt sent before.flatten.length := by
  constructor
  · rintro ⟨-, -, hsame, -, hreply⟩
    have hempty : ∀ m ∈ sent.messages, m = "" := by
      by_contra hmessage
      rw [unread_of_message (by simpa using hmessage), hreply] at hsame
      cases hsame
    refine ⟨hempty, ?_⟩
    rintro before after rfl hcut
    rw [List.flatten_append] at h
    obtain ⟨t, hrun, hlost⟩ := receiveAll_cut toLowercase [] (texts_of_empty hempty) h (optionsEnd_pos sent) hcut
    rw [hrun] at hreply
    exact absurd (hlost.other _ hreply) (Nat.lt_irrefl _)
  · rintro ⟨hempty, huncut⟩
    have hrun : ∀ chunks : List Bytes, chunks.flatten = sent.stream →
        (∀ before after, chunks = before ++ after → ¬ CutAt sent before.flatten.length) →
        ∃ t, receiveAll toLowercase chunks {} = (.ok (), t) ∧ Synced sent t sent.texts :=
      fun chunks hchunks hcut =>
        receiveAll_uncut [] hlower (texts_of_empty hempty) hchunks (optionsEnd_pos sent) hcut
    obtain ⟨t, ht, hsynced⟩ := hrun chunks h huncut
    obtain ⟨u, hu, hwhole⟩ := hrun [sent.stream] (List.flatten_singleton) (uncut_at_once sent)
    simp only [ParsedAsSent, ht, hu, hsynced.km, hwhole.km, hsynced.complete rfl, hwhole.complete rfl,
      and_self]

def shortTranscript (messages : List String)
    (h : ∀ m ∈ messages, '\x00' ∉ m.toList ∧ startsWith m "PUSH_REPLY" = false) : Transcript where
  km := ⟨zeros 48, zeros 32, zeros 32, "V4", none, none, none⟩
  messages := messages
  reply := {}
  km_sent := ⟨rfl, ⟨by decide +kernel, by decide⟩, rfl, rfl, rfl⟩
  messages_text := h
  reply_writable := by
    refine ⟨?_, ?_, ?_, ?_, ?_, ?_, ?_⟩ <;> intro _ h <;> cases h
  reply_text := by decide +kernel

def plainTranscript : Transcript := shortTranscript [] (fun _ h => nomatch h)

def plainChunks : List Bytes :=
  let stream := plainTranscript.stream
  [stream.take 72, (stream.drop 72).take 30, stream.drop 102]

theorem messages_parsed_plain : ParsedAsSent id plainTranscript plainChunks := by
  have huncut : ∀ before ∈ plainChunks.inits, ¬ CutAt plainTranscript before.flatten.length := by
    unfold CutAt
    decide +kernel
  apply (messages_parsed_iff (fun _ _ => rfl) plainTranscript plainChunks (by decide +kernel)).mpr
  refine ⟨fun _ h => (by cases h), ?_⟩
  intro before after h
  exact huncut before ((List.mem_inits _ _).mpr ⟨after, h.symm⟩)

def pendingTranscript : Transcript := shortTranscript ["AUTH_PENDING"] (by decide)

/-- A reply that arrives together with the text before it is thrown away with it. -/
theorem pending_loses_reply : ¬ ParsedAsSent id pendingTranscript [pendingTranscript.stream] := by
  rw [ParsedAsSent]
  decide +kernel

end Main

end CoreVpn.Client.MessageStreams
