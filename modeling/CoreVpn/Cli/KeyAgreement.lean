import CoreVpn.Cli.KeyTexts
import CoreVpn.Crypto.KeyFiles
import CoreVpn.Lib.Rows
import CoreVpn.Lib.Slices

namespace CoreVpn.Cli.KeyAgreement

open Lib.Computation Lib.Wire Lib.Text Lib.Rows Lib.Slices Config.Addresses Crypto.Errors Crypto.StaticKeys Crypto.KeyFiles
open Ovpn KeyTexts

variable {ε : Type} {e : ε} {text : String} {chars : List Char} {n : Nat}

section Cuts

/-- What stands between two cuts of a text that is cut every two bytes. -/
inductive Cut where
  | pair (first second : Char)
  | wide (c : Char)
  | half (c : Char)
  | torn
  deriving DecidableEq

/-- Behind a torn character there are no more cuts. -/
def cuts : List Char → List Cut
  | [] => []
  | [c] => if c.utf8Size = 1 then [.half c] else if c.utf8Size = 2 then [.wide c] else [.torn]
  | first :: second :: rest =>
    if first.utf8Size = 2 then .wide first :: cuts (second :: rest)
    else if first.utf8Size = 1 ∧ second.utf8Size = 1 then .pair first second :: cuts rest
    else [.torn]

/-- The digits of a byte. A plus sign counts as a zero before the other digit. -/
def Cut.digits : Cut → Option (Nat × Nat)
  | .pair first second =>
    if first = '+' then (hexDigit second).map fun low => (0, low)
    else do
      let high ← hexDigit first
      let low ← hexDigit second
      return (high, low)
  | _ => none

def Cut.isHalf : Cut → Bool
  | .half _ => true
  | _ => false

def byteOf (digits : Nat × Nat) : UInt8 := UInt8.ofNat (digits.1 * 16 + digits.2)

theorem fromStrRadix_eq (first second : Char) :
    fromStrRadix first second = (Cut.pair first second).digits.map byteOf := by
  rw [fromStrRadix, Cut.digits]
  split
  · cases hexDigit second with
    | none => rfl
    | some low => simp [byteOf]
  · cases hexDigit first with
    | none => rfl
    | some high => cases hexDigit second <;> rfl

def firstFlaw (l : List Cut) : Option Cut := l.find? fun cut => cut.digits.isNone

def refusal (e : ε) (flaw : Cut) : Fault ε := if flaw = .torn then .panic else .error e

def read (e : ε) (cut : Cut) : Outcome ε UInt8 :=
  match cut.digits with
  | some digits => .ok (byteOf digits)
  | none => .error (refusal e cut)

theorem mapM_cons_of_flaw {cut : Cut} (h : cut.digits = none) (e : ε) (l : List Cut) :
    (cut :: l).mapM (read e) = .error (refusal e cut) := by
  rw [List.mapM_cons, read, h]
  rfl

theorem mapM_cons_of_byte {cut : Cut} {digits : Nat × Nat} (h : cut.digits = some digits) (e : ε) (l : List Cut) :
    (cut :: l).mapM (read e) = do
      let bytes ← l.mapM (read e)
      return byteOf digits :: bytes := by
  rw [List.mapM_cons, read, h]
  rfl

theorem mapM_read (e : ε) (l : List Cut) : l.mapM (read e) = match firstFlaw l with
    | none => .ok ((l.filterMap Cut.digits).map byteOf)
    | some flaw => .error (refusal e flaw) := by
  induction l with
  | nil => rfl
  | cons cut l ih =>
    cases hdigits : cut.digits with
    | none => rw [mapM_cons_of_flaw hdigits, firstFlaw, List.find?_cons_of_pos (by rw [hdigits]; rfl)]
    | some digits =>
      have hflaw : firstFlaw (cut :: l) = firstFlaw l :=
        List.find?_cons_of_neg (by rw [hdigits]; exact Bool.false_ne_true)
      rw [mapM_cons_of_byte hdigits, ih, hflaw, List.filterMap_cons_some hdigits]
      cases firstFlaw l <;> rfl

theorem length_of_mapM_read {l : List Cut} {bytes : Bytes} (h : l.mapM (read e) = .ok bytes) :
    bytes.length = l.length := by
  induction l generalizing bytes with
  | nil =>
    cases h
    rfl
  | cons cut l ih =>
    rw [List.mapM_cons] at h
    obtain ⟨byte, -, hrest⟩ := Outcome.bind_eq_ok_iff.mp h
    obtain ⟨rest, hmap, hcons⟩ := Outcome.bind_eq_ok_iff.mp hrest
    cases hcons
    rw [List.length_cons, List.length_cons, ih hmap]

end Cuts

section Server

def rowCuts (row : String) : List Cut := (cuts row.toList).filter fun cut => !cut.isHalf

theorem readLine_eq (room : Nat) (chars : List Char) :
    readLine room chars = (((cuts chars).filter fun cut => !cut.isHalf).take room).mapM (read invalidHex) := by
  fun_induction readLine room chars with
  | case1 => rfl
  | case2 => rfl
  | case3 room c hone =>
    rw [cuts, if_pos hone]
    rfl
  | case4 room c hone htwo =>
    rw [cuts, if_neg hone, if_pos htwo]
    rfl
  | case5 room c hone htwo =>
    rw [cuts, if_neg hone, if_neg htwo]
    rfl
  | case6 room first second rest hwide =>
    have hflaw : (Cut.wide first).digits = none := rfl
    rw [cuts, if_pos hwide]
    exact (mapM_cons_of_flaw hflaw invalidHex _).symm
  | case7 room first second rest hwide hpair hnone =>
    rw [fromStrRadix_eq, Option.map_eq_none_iff] at hnone
    rw [cuts, if_neg hwide, if_pos hpair]
    exact (mapM_cons_of_flaw hnone invalidHex _).symm
  | case8 room first second rest hwide hpair byte hbyte ih =>
    rw [fromStrRadix_eq] at hbyte
    obtain ⟨digits, hdigits, rfl⟩ := Option.map_eq_some_iff.mp hbyte
    rw [cuts, if_neg hwide, if_pos hpair, ih]
    exact (mapM_cons_of_byte hdigits invalidHex _).symm
  | case9 room first second rest hwide hpair =>
    rw [cuts, if_neg hwide, if_neg hpair]
    rfl

theorem readLine_row (room : Nat) (row : String) :
    readLine room row.toList = ((rowCuts row).take room).mapM (read invalidHex) :=
  readLine_eq room row.toList

theorem addRow_empty (key : Bytes) : addRow key "" = .ok key := by
  rw [addRow, if_neg (by decide)]
  rfl

theorem foldlM_addRow (l : List String) (key : Bytes) :
    l.foldlM addRow key =
      ((l.map trim).filter fun line => !line.isEmpty).foldlM addRow key := by
  have htrim : ∀ key line, addRow key (trim line) = addRow key line := by
    intro key line
    rw [addRow, addRow, trim_trim]
  induction l generalizing key with
  | nil => rfl
  | cons line l ih =>
    rw [List.foldlM_cons, List.map_cons, ← htrim]
    cases hempty : (trim line).isEmpty with
    | true =>
      rw [List.filter_cons_of_neg (by simp [hempty]), String.isEmpty_iff.mp hempty, addRow_empty]
      exact ih key
    | false =>
      rw [List.filter_cons_of_pos (by simp [hempty]), List.foldlM_cons]
      exact congrArg _ (funext ih)

def serverCuts (text : String) : List Cut := (((rows text).filter isKeyLine).flatMap rowCuts).take 256

theorem foldlM_addRow_rows {l : List String} (hl : ∀ row ∈ l, trim row = row) {key : Bytes} (hkey : key.length ≤ 256) :
    l.foldlM addRow key = do
      let bytes ← (((l.filter isKeyLine).flatMap rowCuts).take (256 - key.length)).mapM (read invalidHex)
      return key ++ bytes := by
  induction l generalizing key with
  | nil =>
    rw [List.filter_nil, List.flatMap_nil, List.take_nil]
    exact congrArg _ (List.append_nil key).symm
  | cons row l ih =>
    obtain ⟨hrow, hrest⟩ := List.forall_mem_cons.mp hl
    rw [List.foldlM_cons, addRow, hrow]
    cases hline : isKeyLine row with
    | false =>
      rw [List.filter_cons_of_neg (by simp [hline])]
      exact ih hrest hkey
    | true =>
      rw [List.filter_cons_of_pos hline, List.flatMap_cons, List.take_append, List.mapM_append, readLine_row]
      cases hread : ((rowCuts row).take (256 - key.length)).mapM (read invalidHex) with
      | error fault => rfl
      | ok bytes =>
        have hlength := length_of_mapM_read hread
        rw [List.length_take] at hlength
        have hroom : 256 - (key ++ bytes).length = 256 - key.length - (rowCuts row).length := by
          rw [List.length_append]
          omega
        have hfits : (key ++ bytes).length ≤ 256 := by
          rw [List.length_append]
          omega
        have hnext := ih hrest hfits
        rw [hroom] at hnext
        refine hnext.trans ?_
        simp only [Outcome.ok_bind, bind_assoc, pure_bind, List.append_assoc]

/-- The server reads the cuts of a text, and wants 256 bytes of them. -/
theorem parseStaticKey_eq_cuts (text : String) :
    Crypto.KeyFiles.parseStaticKey text = (serverCuts text).mapM (read invalidHex) >>= fun key =>
      if h : key.length = 256 then .ok ⟨key, h⟩
      else .error (.error (.invalidPem s!"Static key wrong length: expected 256, got {key.length}")) := by
  have hrows : (lines text).foldlM addRow [] = (serverCuts text).mapM (read invalidHex) := by
    have hempty : ([] : Bytes).length ≤ 256 := Nat.zero_le 256
    rw [foldlM_addRow, ← rows_eq_lines, foldlM_addRow_rows (fun row hrow => trim_of_mem_rows hrow) hempty]
    exact bind_pure _
  rw [Crypto.KeyFiles.parseStaticKey, hrows]
  rfl

end Server

section Client

def clientChars (text : String) : List Char := ((rows text).filter isHexLine).flatMap String.toList

theorem toList_hexData_rows (text : String) : (hexData text).toList = clientChars text := by
  rw [toList_hexData, clientChars, rows]
  generalize split text '\n' = l
  induction l with
  | nil => rfl
  | cons line l ih =>
    rw [List.flatMap_cons, ih, hexChars, List.map_cons]
    cases hempty : (trim line).isEmpty with
    | true =>
      rw [List.filter_cons_of_neg (by simp [hempty]), String.isEmpty_iff.mp hempty, if_neg (by decide), List.nil_append]
    | false =>
      rw [List.filter_cons_of_pos (by simp [hempty])]
      cases hline : isHexLine (trim line) with
      | true => rw [List.filter_cons_of_pos hline, if_pos rfl, List.flatMap_cons]
      | false => rw [List.filter_cons_of_neg (by simp [hline]), if_neg Bool.false_ne_true, List.nil_append]

theorem hexDecodeFrom_eq (heven : byteLength chars % 2 = 0) (i : Nat) (e : String) :
    (hexDecodeFrom i chars).mapFault (fun _ => e) = (cuts chars).mapM (read e) := by
  fun_induction hexDecodeFrom i chars with
  | case1 => rfl
  | case2 i c htwo =>
    rw [cuts, if_neg (by omega), if_pos htwo]
    rfl
  | case3 i c htwo =>
    have hone : c.utf8Size ≠ 1 := by
      intro hone
      rw [byteLength_cons, hone] at heven
      cases heven
    rw [cuts, if_neg hone, if_neg htwo]
    rfl
  | case4 i first second rest hwide =>
    have hflaw : (Cut.wide first).digits = none := rfl
    rw [cuts, if_pos hwide, mapM_cons_of_flaw hflaw]
    rfl
  | case5 i first second rest hwide hpair hnone =>
    rw [fromStrRadix_eq, Option.map_eq_none_iff] at hnone
    rw [cuts, if_neg hwide, if_pos hpair, mapM_cons_of_flaw hnone]
    rfl
  | case6 i first second rest hwide hpair byte hbyte ih =>
    rw [fromStrRadix_eq] at hbyte
    obtain ⟨digits, hdigits, rfl⟩ := Option.map_eq_some_iff.mp hbyte
    rw [byteLength_cons, byteLength_cons, hpair.1, hpair.2] at heven
    rw [cuts, if_neg hwide, if_pos hpair, mapM_cons_of_byte hdigits, ← ih (by omega)]
    cases hexDecodeFrom (i + 2) rest <;> rfl
  | case7 i first second rest hwide hpair =>
    rw [cuts, if_neg hwide, if_neg hpair]
    rfl

theorem firstFlaw_cons (cut : Cut) (l : List Cut) :
    firstFlaw (cut :: l) = none ↔ cut.digits.isSome ∧ firstFlaw l = none := by
  rw [firstFlaw, List.find?_eq_none, List.forall_mem_cons, firstFlaw, List.find?_eq_none]
  simp [Option.isSome_iff_ne_none]

theorem byteLength_of_flawless (h : firstFlaw (cuts chars) = none) : byteLength chars = 2 * (cuts chars).length := by
  fun_induction cuts chars with
  | case1 => rfl
  | case2 c hone => cases ((firstFlaw_cons _ _).mp h).1
  | case3 c hone htwo => cases ((firstFlaw_cons _ _).mp h).1
  | case4 c hone htwo => cases ((firstFlaw_cons _ _).mp h).1
  | case5 first second rest hwide ih => cases ((firstFlaw_cons _ _).mp h).1
  | case6 first second rest hwide hpair ih =>
    rw [byteLength_cons, byteLength_cons, hpair.1, hpair.2, ih ((firstFlaw_cons _ _).mp h).2, List.length_cons]
    omega
  | case7 first second rest hwide hpair => cases ((firstFlaw_cons _ _).mp h).1

def clientCuts (text : String) : List Cut := cuts (clientChars text)

def clientError : String := "Failed to decode tls-auth key hex data"

/-- The client joins the rows and wants an even number of bytes, before it reads
the cuts and wants 256 bytes of them. -/
theorem parseStaticKey_eq_joined (text : String) :
    Ovpn.parseStaticKey text =
      if byteLength (clientChars text) % 2 ≠ 0 then .error (.error clientError)
      else (clientCuts text).mapM (read clientError) >>= fun bytes =>
        if bytes.length ≠ 256 then
          .error (.error s!"tls-auth key has wrong length: expected 256 bytes, got {bytes.length}")
        else .ok bytes := by
  rw [Ovpn.parseStaticKey, hexDecode, length_asBytes_eq, toList_hexData_rows]
  split
  · rfl
  · rename_i heven
    rw [clientCuts, ← hexDecodeFrom_eq (not_not.mp heven) 0]
    rfl

end Client

section Formatted

def byteCut (byte : UInt8) : Cut :=
  .pair ((hexPadded 2 byte.toNat).toList.getD 0 '0') ((hexPadded 2 byte.toNat).toList.getD 1 '0')

theorem digits_byteCut (byte : UInt8) : (byteCut byte).digits.map byteOf = some byte := by
  obtain ⟨first, second, hpair, -, hvalue⟩ := hexPadded_byte byte
  rw [byteCut, hpair, ← fromStrRadix_eq]
  exact hvalue

theorem cuts_digits (data : Bytes) : cuts (digits data) = data.map byteCut := by
  induction data with
  | nil => rfl
  | cons byte data ih =>
    obtain ⟨first, second, hpair, hchars, -⟩ := hexPadded_byte byte
    have hcons : digits (byte :: data) = first :: second :: digits data := congrArg (· ++ digits data) hpair
    have hfirst := (hchars first (by simp)).2
    have hsecond := (hchars second (by simp)).2
    have hcut : byteCut byte = .pair first second := by
      rw [byteCut, hpair]
      rfl
    rw [hcons, cuts, if_neg (by omega), if_pos ⟨hfirst, hsecond⟩, ih, List.map_cons, hcut]

theorem rowCuts_hexLine (data : Bytes) : rowCuts (hexLine data) = data.map byteCut := by
  rw [rowCuts, toList_hexLine, cuts_digits]
  refine List.filter_eq_self.mpr fun cut hcut => ?_
  obtain ⟨byte, -, rfl⟩ := List.mem_map.mp hcut
  rfl

theorem mapM_byteCuts (e : ε) (data : Bytes) : (data.map byteCut).mapM (read e) = .ok data := by
  induction data with
  | nil => rfl
  | cons byte data ih =>
    obtain ⟨pair, hpair, hbyte⟩ := Option.map_eq_some_iff.mp (digits_byteCut byte)
    rw [List.map_cons, mapM_cons_of_byte hpair, ih, hbyte]
    rfl

theorem isKeyLine_of_isHexLine {row : String} (h : isHexLine row = true) : isKeyLine row = true := by
  rw [isHexLine] at h
  rw [isKeyLine]
  revert h
  cases row.isEmpty <;> cases startsWith row "#" <;> cases startsWith row "-" <;> simp

theorem rows_formatStaticKey (key : ByteVec 256) : rows (formatStaticKey key) = keyLines key := by
  have hsolid : ∀ line ∈ keyLines key, trim line = line ∧ (!line.isEmpty) = true := by
    intro line hline
    rw [keyLines, List.mem_append, List.mem_append] at hline
    rcases hline with (hheader | hrow) | hfooter
    · revert line
      decide +kernel
    · obtain ⟨chunk, hchunk, rfl⟩ := List.mem_map.mp hrow
      have hword := word_hexLine (ne_nil_of_mem_chunks (by decide) hchunk)
      exact ⟨Lib.Lines.trim_word hword, by simpa [String.isEmpty_iff] using hword.nonempty⟩
    · revert line
      decide +kernel
  have htrim : (keyLines key).map trim = keyLines key :=
    (List.map_congr_left fun line hline => (hsolid line hline).1).trans (List.map_id _)
  rw [← rows_trim, rows, split_trim_formatStaticKey, htrim]
  exact List.filter_eq_self.mpr fun line hline => (hsolid line hline).2

theorem serverCuts_formatStaticKey (key : ByteVec 256) : serverCuts (formatStaticKey key) = key.toList.map byteCut := by
  have hrows : (keyLines key).filter isKeyLine = (chunks 16 256 key.toList).map hexLine := by
    have hheader : ["#", "# 2048 bit OpenVPN static key", "#", "-----BEGIN OpenVPN Static key V1-----"].filter
        isKeyLine = [] := by decide
    have hfooter : ["-----END OpenVPN Static key V1-----"].filter isKeyLine = [] := by decide
    rw [keyLines, List.filter_append, List.filter_append, hheader, hfooter, List.nil_append, List.append_nil]
    refine List.filter_eq_self.mpr fun line hline => ?_
    obtain ⟨chunk, hchunk, rfl⟩ := List.mem_map.mp hline
    exact isKeyLine_of_isHexLine (isHexLine_hexLine (ne_nil_of_mem_chunks (by decide) hchunk))
  have hflat := @flatten_chunks 16 256 key.toList (by decide) key.toList_length.le
  have hcuts : ((chunks 16 256 key.toList).map hexLine).flatMap rowCuts = key.toList.map byteCut := by
    rw [List.flatMap_map, ← congrArg (List.map byteCut) hflat, List.map_flatten, List.flatMap_def]
    exact congrArg _ (List.map_congr_left fun chunk _ => rowCuts_hexLine chunk)
  rw [serverCuts, rows_formatStaticKey, hrows, hcuts]
  exact List.take_of_length_le (by rw [List.length_map, key.toList_length])

theorem parseStaticKey_of_rows {text text' : String} (h : rows text = rows text') :
    Ovpn.parseStaticKey text = Ovpn.parseStaticKey text' := by
  rw [parseStaticKey_eq_joined, parseStaticKey_eq_joined, clientCuts, clientCuts, clientChars, clientChars, h]

/-- Server and client read a key that is written in the file format, the client
with either kind of line ends. -/
theorem formatted_key_read (key : ByteVec 256) :
    Crypto.KeyFiles.parseStaticKey (formatStaticKey key) = .ok key ∧
      Ovpn.parseStaticKey (trim (formatStaticKey key)) = .ok key.toList ∧
      Ovpn.parseStaticKey (trim (replaceChar (formatStaticKey key) '\n' "\r\n")) = .ok key.toList := by
  refine ⟨?_, parseStaticKey_formatStaticKey key, ?_⟩
  · rw [parseStaticKey_eq_cuts, serverCuts_formatStaticKey, mapM_byteCuts, Outcome.ok_bind,
      dif_pos key.toList_length]
    rfl
  · refine (parseStaticKey_of_rows ?_).trans (parseStaticKey_formatStaticKey key)
    rw [rows_trim, rows_trim, rows_replaceChar]

end Formatted

section Agreement

variable {l l' : List Cut}

def Refuses (l : List Cut) : Prop :=
  match firstFlaw l with
  | some flaw => flaw ≠ .torn
  | none => l.length ≠ 256

def ServerRefuses (text : String) : Prop := Refuses (serverCuts text)

def ClientRefuses (text : String) : Prop := byteLength (clientChars text) % 2 ≠ 0 ∨ Refuses (clientCuts text)

/-- The two readers come upon the same digits, enough of them for a key. -/
def SameDigits (text : String) : Prop :=
  firstFlaw (clientCuts text) = none ∧ (clientCuts text).length = 256 ∧
    (serverCuts text).map Cut.digits = (clientCuts text).map Cut.digits

def Agree (text : String) : Prop :=
  (∃ e e', Crypto.KeyFiles.parseStaticKey text = .error (.error e) ∧
      Ovpn.parseStaticKey text = .error (.error e')) ∨
    ∃ key, Crypto.KeyFiles.parseStaticKey text = .ok key ∧ Ovpn.parseStaticKey text = .ok key.toList

theorem not_agree_of_refusal {key : ByteVec 256} {fault : Fault String}
    (hserver : Crypto.KeyFiles.parseStaticKey text = .ok key) (hclient : Ovpn.parseStaticKey text = .error fault) :
    ¬ Agree text := by
  rintro (⟨e, e', herror, -⟩ | ⟨key', -, hkey⟩)
  · rw [hserver] at herror
    cases herror
  · rw [hclient] at hkey
    cases hkey

theorem not_agree_of_panic (hserver : Crypto.KeyFiles.parseStaticKey text = .error .panic) : ¬ Agree text := by
  rintro (⟨e, e', herror, -⟩ | ⟨key, hkey, -⟩)
  · rw [hserver] at herror
    cases herror
  · rw [hserver] at hkey
    cases hkey

theorem map_digits_of_flawless (h : firstFlaw l = none) : l.map Cut.digits = (l.filterMap Cut.digits).map some := by
  induction l with
  | nil => rfl
  | cons cut l ih =>
    obtain ⟨hcut, hrest⟩ := (firstFlaw_cons cut l).mp h
    obtain ⟨digits, hdigits⟩ := Option.isSome_iff_exists.mp hcut
    rw [List.map_cons, List.filterMap_cons_some hdigits, List.map_cons, ih hrest, hdigits]

theorem length_filterMap_of_flawless (h : firstFlaw l = none) : (l.filterMap Cut.digits).length = l.length := by
  simpa using (congrArg List.length (map_digits_of_flawless h)).symm

theorem firstFlaw_eq_none_iff : firstFlaw l = none ↔ none ∉ l.map Cut.digits := by
  rw [firstFlaw, List.find?_eq_none]
  simp [Option.isNone_iff_eq_none]

theorem mapM_eq_ok_iff {bytes : Bytes} :
    l.mapM (read e) = .ok bytes ↔ firstFlaw l = none ∧ (l.filterMap Cut.digits).map byteOf = bytes := by
  rw [mapM_read]
  cases firstFlaw l with
  | none => simp
  | some flaw => simp

theorem hexDigit_lt {c : Char} (h : hexDigit c = some n) : n < 16 := by
  rw [hexDigit] at h
  split_ifs at h with hdigit hlower hupper
  · have hhigh : c.toNat ≤ 57 := (Char.isDigit_iff_toNat.mp hdigit).2
    cases h
    omega
  · have hhigh : c.toNat ≤ 102 := hlower.2
    cases h
    omega
  · have hhigh : c.toNat ≤ 70 := hupper.2
    cases h
    omega

theorem lt_of_digits {cut : Cut} {digits : Nat × Nat} (h : cut.digits = some digits) : digits.1 < 16 ∧ digits.2 < 16 := by
  cases cut with
  | pair first second =>
    rw [Cut.digits] at h
    split at h
    · obtain ⟨low, hlow, rfl⟩ := Option.map_eq_some_iff.mp h
      exact ⟨Nat.zero_lt_succ 15, hexDigit_lt hlow⟩
    · obtain ⟨high, hhigh, hrest⟩ := Option.bind_eq_some_iff.mp h
      obtain ⟨low, hlow, heq⟩ := Option.bind_eq_some_iff.mp hrest
      cases heq
      exact ⟨hexDigit_lt hhigh, hexDigit_lt hlow⟩
  | wide c => cases h
  | half c => cases h
  | torn => cases h

theorem filterMap_of_bytes (h : (l.filterMap Cut.digits).map byteOf = (l'.filterMap Cut.digits).map byteOf) :
    l.filterMap Cut.digits = l'.filterMap Cut.digits := by
  have hinverse : ∀ l : List Cut,
      ((l.filterMap Cut.digits).map byteOf).map (fun byte => (byte.toNat / 16, byte.toNat % 16)) =
        l.filterMap Cut.digits := by
    intro l
    rw [List.map_map]
    refine (List.map_congr_left fun digits hdigits => ?_).trans (List.map_id _)
    obtain ⟨cut, -, hcut⟩ := List.mem_filterMap.mp hdigits
    obtain ⟨hhigh, hlow⟩ := lt_of_digits hcut
    have hbyte : (byteOf digits).toNat = digits.1 * 16 + digits.2 := by
      rw [byteOf, UInt8.toNat_ofNat']
      omega
    have hpair : ((byteOf digits).toNat / 16, (byteOf digits).toNat % 16) = digits := by
      rw [hbyte]
      exact Prod.ext (by dsimp only; omega) (by dsimp only; omega)
    exact hpair
  rw [← hinverse l, h, hinverse]

theorem exists_error_iff {α : Type} {check : Bytes → Outcome ε α}
    (hcheck : ∀ bytes, (∃ e', check bytes = .error (.error e')) ↔ bytes.length ≠ 256) :
    (∃ e', (l.mapM (read e) >>= check) = .error (.error e')) ↔ Refuses l := by
  rw [mapM_read, Refuses]
  cases hflaw : firstFlaw l with
  | none =>
    rw [Outcome.ok_bind, hcheck, List.length_map, length_filterMap_of_flawless hflaw]
  | some flaw =>
    change (∃ e', (.error (refusal e flaw) : Outcome ε α) = .error (.error e')) ↔ flaw ≠ .torn
    by_cases htorn : flaw = .torn
    · have hfault : refusal e flaw = .panic := if_pos htorn
      rw [hfault]
      refine iff_of_false ?_ (not_not.mpr htorn)
      rintro ⟨e', h⟩
      cases h
    · have hfault : refusal e flaw = .error e := if_neg htorn
      rw [hfault]
      exact iff_of_true ⟨e, rfl⟩ htorn

theorem server_error_iff : (∃ e, Crypto.KeyFiles.parseStaticKey text = .error (.error e)) ↔ ServerRefuses text := by
  rw [parseStaticKey_eq_cuts]
  refine exists_error_iff fun bytes => ?_
  by_cases hlength : bytes.length = 256
  · simp [hlength]
  · simp [hlength]

theorem client_error_iff : (∃ e, Ovpn.parseStaticKey text = .error (.error e)) ↔ ClientRefuses text := by
  rw [parseStaticKey_eq_joined, ClientRefuses]
  by_cases hodd : byteLength (clientChars text) % 2 ≠ 0
  · rw [if_pos hodd]
    exact iff_of_true ⟨_, rfl⟩ (.inl hodd)
  · rw [if_neg hodd, or_iff_right hodd]
    refine exists_error_iff fun bytes => ?_
    by_cases hlength : bytes.length = 256
    · simp [hlength]
    · simp [hlength]

theorem server_ok_iff {key : ByteVec 256} : Crypto.KeyFiles.parseStaticKey text = .ok key ↔
    firstFlaw (serverCuts text) = none ∧ ((serverCuts text).filterMap Cut.digits).map byteOf = key.toList := by
  rw [parseStaticKey_eq_cuts, ← mapM_eq_ok_iff (e := invalidHex), Outcome.bind_eq_ok_iff]
  constructor
  · rintro ⟨bytes, hread, hcheck⟩
    split at hcheck
    · cases hcheck
      exact hread
    · cases hcheck
  · intro hread
    exact ⟨key.toList, hread, dif_pos key.toList_length⟩

theorem client_ok_iff {key : ByteVec 256} : Ovpn.parseStaticKey text = .ok key.toList ↔
    firstFlaw (clientCuts text) = none ∧ ((clientCuts text).filterMap Cut.digits).map byteOf = key.toList := by
  rw [parseStaticKey_eq_joined, ← mapM_eq_ok_iff (e := clientError)]
  constructor
  · intro h
    split at h
    · cases h
    · obtain ⟨bytes, hread, hcheck⟩ := Outcome.bind_eq_ok_iff.mp h
      split at hcheck
      · cases hcheck
      · cases hcheck
        exact hread
  · intro hread
    have heven := byteLength_of_flawless (mapM_eq_ok_iff.mp hread).1
    rw [if_neg (by omega), hread, Outcome.ok_bind, if_neg (not_not.mpr key.toList_length)]

/-- The two parsers agree on a text if and only if they come upon the same
digits, or both have a reason to refuse it. -/
theorem parsers_agree_iff (text : String) :
    Agree text ↔ SameDigits text ∨ (ServerRefuses text ∧ ClientRefuses text) := by
  have hrefuse : (∃ e e', Crypto.KeyFiles.parseStaticKey text = .error (.error e) ∧
      Ovpn.parseStaticKey text = .error (.error e')) ↔ ServerRefuses text ∧ ClientRefuses text := by
    rw [← server_error_iff, ← client_error_iff]
    constructor
    · rintro ⟨e, e', hserver, hclient⟩
      exact ⟨⟨e, hserver⟩, e', hclient⟩
    · rintro ⟨⟨e, hserver⟩, e', hclient⟩
      exact ⟨e, e', hserver, hclient⟩
  have hsame : (∃ key, Crypto.KeyFiles.parseStaticKey text = .ok key ∧ Ovpn.parseStaticKey text = .ok key.toList) ↔
      SameDigits text := by
    constructor
    · rintro ⟨key, hserver, hclient⟩
      obtain ⟨hserverFlaw, hserverKey⟩ := server_ok_iff.mp hserver
      obtain ⟨hclientFlaw, hclientKey⟩ := client_ok_iff.mp hclient
      have hdigits := filterMap_of_bytes (hserverKey.trans hclientKey.symm)
      refine ⟨hclientFlaw, ?_, ?_⟩
      · rw [← length_filterMap_of_flawless hclientFlaw, ← List.length_map byteOf, hclientKey, key.toList_length]
      · rw [map_digits_of_flawless hserverFlaw, map_digits_of_flawless hclientFlaw, hdigits]
    · rintro ⟨hclientFlaw, hlength, hdigits⟩
      have hserverFlaw : firstFlaw (serverCuts text) = none := by
        rwa [firstFlaw_eq_none_iff, hdigits, ← firstFlaw_eq_none_iff]
      have hvalues : (serverCuts text).filterMap Cut.digits = (clientCuts text).filterMap Cut.digits := by
        rw [map_digits_of_flawless hserverFlaw, map_digits_of_flawless hclientFlaw] at hdigits
        exact List.map_injective_iff.mpr (Option.some_injective _) hdigits
      have hkey : (((clientCuts text).filterMap Cut.digits).map byteOf).length = 256 := by
        rw [List.length_map, length_filterMap_of_flawless hclientFlaw, hlength]
      exact ⟨⟨_, hkey⟩, server_ok_iff.mpr ⟨hserverFlaw, congrArg (List.map byteOf) hvalues⟩,
        client_ok_iff.mpr ⟨hclientFlaw, rfl⟩⟩
  rw [Agree, hrefuse, hsame, or_comm]

theorem not_agree_of_long_line {data : Bytes} (h : 256 < data.length) : ¬ Agree (hexLine data) := by
  have hne : data ≠ [] := by
    rintro rfl
    cases h
  have hword := word_hexLine hne
  have hline := isHexLine_hexLine hne
  have hnewline : '\n' ∉ (hexLine data).toList := by
    intro hmem
    have hsolid := hword.solid _ hmem
    cases hsolid
  have hrows : rows (hexLine data) = [hexLine data] := by
    rw [rows, split_eq_singleton hnewline, List.map_singleton, Lib.Lines.trim_word hword]
    exact List.filter_cons_of_pos (by simpa [String.isEmpty_iff] using hword.nonempty)
  have hserver : serverCuts (hexLine data) = (data.take 256).map byteCut := by
    rw [serverCuts, hrows, List.filter_cons_of_pos (isKeyLine_of_isHexLine hline), List.filter_nil,
      List.flatMap_singleton, rowCuts_hexLine, List.map_take]
  have hchars : clientChars (hexLine data) = digits data := by
    rw [clientChars, hrows, List.filter_cons_of_pos hline, List.filter_nil, List.flatMap_singleton, toList_hexLine]
  have heven : ¬ byteLength (digits data) % 2 ≠ 0 := by
    rw [← toList_hexLine, ← length_asBytes_eq,
      length_asBytes fun c hc => (mem_digits (toList_hexLine data ▸ hc)).2, toList_hexLine, length_digits]
    omega
  have hlength : (data.take 256).length = 256 := by
    rw [List.length_take]
    omega
  have haccepts : Crypto.KeyFiles.parseStaticKey (hexLine data) = .ok ⟨data.take 256, hlength⟩ := by
    rw [parseStaticKey_eq_cuts, hserver, mapM_byteCuts, Outcome.ok_bind, dif_pos hlength]
  have hrefuses : Ovpn.parseStaticKey (hexLine data) =
      .error (.error s!"tls-auth key has wrong length: expected 256 bytes, got {data.length}") := by
    rw [parseStaticKey_eq_joined, clientCuts, hchars, if_neg heven, cuts_digits, mapM_byteCuts, Outcome.ok_bind,
      if_pos (by omega)]
  exact not_agree_of_refusal haccepts hrefuses

/-- A line with one byte too many, and a character that a cut would tear. -/
theorem parsers_disagree : ¬ Agree (hexLine (List.replicate 257 0)) ∧ ¬ Agree "aé" :=
  ⟨not_agree_of_long_line (by rw [List.length_replicate]; decide), not_agree_of_panic (by decide +kernel)⟩

end Agreement

end CoreVpn.Cli.KeyAgreement
