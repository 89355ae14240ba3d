import CoreVpn.Cli.Directives
import CoreVpn.Crypto.StaticKeys

namespace CoreVpn.Cli.KeyTexts

open Lib.Computation Lib.Wire Lib.Text Lib.Lines Config.Addresses Crypto.StaticKeys Ovpn Directives

variable {text line : String} {data : Bytes} {c : Char}

section Decoding

def HexChar (c : Char) : Prop := (hexDigit c).isSome ∨ c = '+'

theorem hexChar_of_fromStrRadix {first second : Char} {byte : UInt8} (h : fromStrRadix first second = some byte) :
    HexChar first ∧ HexChar second := by
  rw [fromStrRadix] at h
  split at h
  · obtain ⟨digit, hdigit, -⟩ := Option.map_eq_some_iff.mp h
    exact ⟨.inr (by assumption), .inl (by rw [hdigit]; rfl)⟩
  · obtain ⟨high, hhigh, hrest⟩ := Option.bind_eq_some_iff.mp h
    obtain ⟨low, hlow, -⟩ := Option.bind_eq_some_iff.mp hrest
    exact ⟨.inl (by rw [hhigh]; rfl), .inl (by rw [hlow]; rfl)⟩

theorem hexChar_of_hexDecodeFrom {i : Nat} {chars : List Char} (h : hexDecodeFrom i chars = .ok data) :
    ∀ c ∈ chars, HexChar c := by
  fun_induction hexDecodeFrom i chars generalizing data with
  | case1 => exact fun c hc => nomatch hc
  | case2 => cases h
  | case3 => cases h
  | case4 => cases h
  | case5 => cases h
  | case6 i first second rest hlong hshort byte hbyte ih =>
    obtain ⟨hfirst, hsecond⟩ := hexChar_of_fromStrRadix hbyte
    cases hrest : hexDecodeFrom (i + 2) rest with
    | error e =>
      rw [hrest] at h
      cases h
    | ok bytes => exact List.forall_mem_cons.mpr ⟨hfirst, List.forall_mem_cons.mpr ⟨hsecond, ih hrest⟩⟩
  | case7 => cases h

def hexChars (line : String) : List Char := if isHexLine (trim line) then (trim line).toList else []

theorem toList_addLine (data line : String) : (addLine data line).toList = data.toList ++ hexChars line := by
  rw [addLine, hexChars]
  split_ifs <;> simp

theorem addLine_trim (data line : String) : addLine data (trim line) = addLine data line := by
  rw [addLine, addLine, trim_trim]

theorem addLine_empty (data : String) : addLine data "" = data := by
  rw [addLine, if_neg (by decide)]

theorem toList_hexData (text : String) : (hexData text).toList = (split text '\n').flatMap hexChars := by
  have hfold : ∀ (ls : List String) (data : String),
      (ls.foldl addLine data).toList = data.toList ++ ls.flatMap hexChars := by
    intro ls
    induction ls with
    | nil => exact fun data => (List.append_nil _).symm
    | cons line ls ih =>
      intro data
      rw [List.foldl_cons, ih, toList_addLine, List.flatMap_cons, List.append_assoc]
  rw [hexData, foldl_lines addLine_trim addLine_empty, hfold]
  rfl

theorem hexChar_of_parseStaticKey (h : parseStaticKey text = .ok data) :
    ∀ line ∈ split text '\n', ∀ c ∈ hexChars line, HexChar c := by
  intro line hline c hc
  obtain ⟨bytes, hbytes, -⟩ := Outcome.bind_eq_ok_iff.mp h
  have hdecode := Outcome.mapFault_eq_ok_iff.mp hbytes
  rw [hexDecode] at hdecode
  split at hdecode
  · cases hdecode
  · refine hexChar_of_hexDecodeFrom hdecode c ?_
    rw [toList_hexData]
    exact List.mem_flatMap.mpr ⟨line, hline, hc⟩

theorem not_parseStaticKey_of_tag (hline : line ∈ split text '\n') (hword : Word line) (hhex : isHexLine line = true)
    (hmem : '<' ∈ line.toList) : parseStaticKey (trim text) ≠ .ok data := by
  intro h
  have hchar := hexChar_of_parseStaticKey h line (mem_split_trim hline hword) '<' (by
    rwa [hexChars, trim_word hword, if_pos hhex])
  rcases hchar with hdigit | hplus
  · cases hdigit
  · cases hplus

end Decoding

section Formatted

variable {key : ByteVec 256}

theorem hexPadded_byte (byte : UInt8) : ∃ first second, (hexPadded 2 byte.toNat).toList = [first, second] ∧
    (∀ c ∈ [first, second], (hexDigit c).isSome ∧ c.utf8Size = 1) ∧ fromStrRadix first second = some byte := by
  have hall : ∀ n : Fin 256, (hexPadded 2 n).toList.length = 2 ∧
      (hexPadded 2 n).toList.all (fun c => decide ((hexDigit c).isSome ∧ c.utf8Size = 1)) = true ∧
      fromStrRadix ((hexPadded 2 n).toList.getD 0 '0') ((hexPadded 2 n).toList.getD 1 '0') = some (UInt8.ofNat n) := by
    decide +kernel
  obtain ⟨hlength, hdigits, hvalue⟩ := hall ⟨byte.toNat, byte.toNat_lt⟩
  have hchars := forall_mem_toList hdigits
  obtain ⟨first, second, hpair⟩ := List.length_eq_two.mp hlength
  dsimp only at hpair hchars hvalue
  rw [hpair] at hchars hvalue
  rw [UInt8.ofNat_toNat] at hvalue
  exact ⟨first, second, hpair, hchars, hvalue⟩

def digits (data : Bytes) : List Char := data.flatMap fun byte => (hexPadded 2 byte.toNat).toList

theorem toList_hexLine (data : Bytes) : (hexLine data).toList = digits data := by
  rw [hexLine, String.toList_join, List.flatMap_map]
  rfl

theorem mem_digits (h : c ∈ digits data) : (hexDigit c).isSome ∧ c.utf8Size = 1 := by
  obtain ⟨byte, -, hc⟩ := List.mem_flatMap.mp h
  obtain ⟨first, second, hpair, hchars, -⟩ := hexPadded_byte byte
  rw [hpair] at hc
  exact hchars c hc

theorem length_digits (data : Bytes) : (digits data).length = 2 * data.length := by
  induction data with
  | nil => rfl
  | cons byte data ih =>
    obtain ⟨first, second, hpair, -⟩ := hexPadded_byte byte
    have hcons : digits (byte :: data) = (hexPadded 2 byte.toNat).toList ++ digits data := rfl
    rw [hcons, hpair, List.length_append, ih, List.length_cons, List.length_cons, List.length_cons, List.length_nil]
    omega

theorem hexDecodeFrom_digits (i : Nat) (data : Bytes) : hexDecodeFrom i (digits data) = .ok data := by
  induction data generalizing i with
  | nil => rfl
  | cons byte data ih =>
    obtain ⟨first, second, hpair, hchars, hvalue⟩ := hexPadded_byte byte
    have hcons : digits (byte :: data) = (hexPadded 2 byte.toNat).toList ++ digits data := rfl
    have hfirst := (hchars first (by simp)).2
    have hsecond := (hchars second (by simp)).2
    rw [hcons, hpair]
    simp [hexDecodeFrom, hfirst, hsecond, hvalue, ih]

theorem length_asBytes {s : String} (h : ∀ c ∈ s.toList, c.utf8Size = 1) : (asBytes s).length = s.toList.length := by
  rw [asBytes_eq, List.length_flatMap]
  have hone : s.toList.map (fun c => (String.utf8EncodeChar c).length) = s.toList.map fun _ => 1 :=
    List.map_congr_left fun c hc => (String.length_utf8EncodeChar c).trans (h c hc)
  rw [hone]
  simp

theorem hexDecode_of_digits {s : String} (h : s.toList = digits data) : hexDecode s = .ok data := by
  have hlength : (asBytes s).length = 2 * data.length := by
    rw [length_asBytes (fun c hc => (mem_digits (h ▸ hc)).2), h, length_digits]
  rw [hexDecode, if_neg (by omega), h, hexDecodeFrom_digits]

theorem word_hexLine (h : data ≠ []) : Word (hexLine data) := by
  refine ⟨?_, fun c hc => ?_⟩
  · intro hempty
    have hlength := length_digits data
    rw [← toList_hexLine, hempty] at hlength
    have hpos := List.length_pos_iff.mpr h
    have hzero : ("".toList).length = 0 := rfl
    omega
  · rw [toList_hexLine] at hc
    exact (AddressChar.solid (.inl (mem_digits hc).1)).1

theorem isHexLine_hexLine (h : data ≠ []) : isHexLine (hexLine data) = true := by
  have hword := word_hexLine h
  have hnone : ∀ c, hexDigit c = none → c ∉ (hexLine data).toList := by
    intro c hc hmem
    rw [toList_hexLine] at hmem
    have hsome := (mem_digits hmem).1
    rw [hc] at hsome
    cases hsome
  have hempty : (hexLine data).isEmpty = false := by
    rw [Bool.eq_false_iff, ne_eq, String.isEmpty_iff]
    exact hword.nonempty
  have hstart : ∀ pattern : String, ∀ c ∈ pattern.toList, hexDigit c = none →
      startsWith (hexLine data) pattern = false ∧ contains (hexLine data) pattern = false := by
    intro pattern c hmem hc
    constructor
    · rw [Bool.eq_false_iff]
      intro hstarts
      exact hnone c hc ((List.isPrefixOf_iff_prefix.mp hstarts).subset hmem)
    · rw [Bool.eq_false_iff]
      intro hcontains
      exact hnone c hc ((of_decide_eq_true hcontains).subset hmem)
  rw [isHexLine, hempty, (hstart "#" '#' (by decide) (by decide)).1, (hstart "-" '-' (by decide) (by decide)).1,
    (hstart "OpenVPN Static key" 'O' (by decide) (by decide)).2]
  rfl

theorem split_trim_formatStaticKey (key : ByteVec 256) : split (trim (formatStaticKey key)) '\n' = keyLines key := by
  rw [trim_formatStaticKey, newline_eq]
  refine split_intercalate (List.cons_ne_nil _ _) fun line hline => ?_
  rw [keyLines, List.mem_append, List.mem_append] at hline
  rcases hline with (hheader | hrow) | hfooter
  · revert line
    decide
  · obtain ⟨chunk, hchunk, rfl⟩ := List.mem_map.mp hrow
    intro hmem
    have hsolid := (word_hexLine (ne_nil_of_mem_chunks (by decide) hchunk)).solid _ hmem
    cases hsolid
  · revert line
    decide

theorem flatMap_hexChars_keyLines (key : ByteVec 256) : (keyLines key).flatMap hexChars = digits key.toList := by
  have hrows : ((chunks 16 256 key.toList).map hexLine).flatMap hexChars = digits (chunks 16 256 key.toList).flatten := by
    have hne := fun (chunk : Bytes) (h : chunk ∈ chunks 16 256 key.toList) => ne_nil_of_mem_chunks (by decide) h
    generalize chunks 16 256 key.toList = rows at hne
    induction rows with
    | nil => rfl
    | cons row rows ih =>
      rw [List.forall_mem_cons] at hne
      have hrow : hexChars (hexLine row) = digits row := by
        rw [hexChars, trim_word (word_hexLine hne.1), if_pos (isHexLine_hexLine hne.1), toList_hexLine]
      rw [List.map_cons, List.flatMap_cons, hrow, ih hne.2, List.flatten_cons, digits, digits, digits,
        List.flatMap_append]
  have hheader : (["#", "# 2048 bit OpenVPN static key", "#", "-----BEGIN OpenVPN Static key V1-----"] :
      List String).flatMap hexChars = [] := by decide +kernel
  have hfooter : (["-----END OpenVPN Static key V1-----"] : List String).flatMap hexChars = [] := by decide +kernel
  have hflat := @flatten_chunks 16 256 key.toList (by decide) key.toList_length.le
  rw [keyLines, List.flatMap_append, List.flatMap_append, hheader, hfooter, hrows, hflat, List.nil_append,
    List.append_nil]

theorem parseStaticKey_formatStaticKey (key : ByteVec 256) :
    parseStaticKey (trim (formatStaticKey key)) = .ok key.toList := by
  have hdigits : (hexData (trim (formatStaticKey key))).toList = digits key.toList := by
    rw [toList_hexData, split_trim_formatStaticKey, flatMap_hexChars_keyLines]
  have hlength : ¬ key.toList.length ≠ 256 := not_not.mpr key.toList_length
  rw [parseStaticKey, hexDecode_of_digits hdigits]
  exact if_neg hlength

theorem argument_word (h : Word line) (name : String) (i : Nat) : argument name i line = none := by
  have hwords : words line = [] ∨ words line = [line] := by
    rw [words, trim_word h, h.splitWhitespace_eq]
    split_ifs
    · exact .inl rfl
    · exact .inr rfl
  rcases hwords with hnil | hone
  · rw [argument, hnil]
  · rw [argument, hone]
    exact ite_self none

theorem argument_keyLines {name : String} (hbegin : "-----BEGIN" ≠ name) (hend : "-----END" ≠ name) (i : Nat)
    (hline : line ∈ keyLines key) : argument name i line = none := by
  rw [keyLines, List.mem_append, List.mem_append] at hline
  rcases hline with (hheader | hrow) | hfooter
  · have hwords : ∀ line ∈ ["#", "# 2048 bit OpenVPN static key", "#", "-----BEGIN OpenVPN Static key V1-----"],
        words line = [] ∨ words line = ["-----BEGIN", "OpenVPN", "Static", "key", "V1-----"] := by decide +kernel
    rcases hwords line hheader with hnil | hfirst
    · rw [argument, hnil]
    · rw [argument, hfirst]
      exact if_neg hbegin
  · obtain ⟨chunk, hchunk, rfl⟩ := List.mem_map.mp hrow
    exact argument_word (word_hexLine (ne_nil_of_mem_chunks (by decide) hchunk)) name i
  · have hwords : words "-----END OpenVPN Static key V1-----" =
        ["-----END", "OpenVPN", "Static", "key", "V1-----"] := by decide +kernel
    rw [List.mem_singleton.mp hfooter, argument, hwords]
    exact if_neg hend

end Formatted

end CoreVpn.Cli.KeyTexts
