import CoreVpn.ConnectionLog.DatabaseLoggers
import CoreVpn.Lib.Calendar

namespace CoreVpn.ConnectionLog.EventTexts

open Lib.Text Lib.Numerals Lib.Calendar Core.Networks Server.Events DatabaseLoggers

variable {c : Char}

section Identifiers

def uuidGroups (chars : List Char) : List (List Char) :=
  [chars.take 8, (chars.drop 8).take 4, (chars.drop 12).take 4, (chars.drop 16).take 4, chars.drop 20]

def uuidText (id : ConnectionId) : String :=
  String.ofList (['-'].intercalate (uuidGroups (hexPadded 32 id.toNat).toList))

theorem flatten_uuidGroups (chars : List Char) : (uuidGroups chars).flatten = chars := by
  have hsplit : ∀ k, (chars.drop k).take 4 ++ chars.drop (k + 4) = chars.drop k := by
    intro k
    rw [← List.drop_drop, List.take_append_drop]
  simp only [uuidGroups, List.flatten_cons, List.flatten_nil, List.append_nil]
  rw [hsplit 16, hsplit 12, hsplit 8, List.take_append_drop]

theorem notMem_uuidGroups {chars : List Char} (h : c ∉ chars) : ∀ group ∈ uuidGroups chars, c ∉ group := by
  intro group hgroup hc
  refine h ?_
  rw [← flatten_uuidGroups chars]
  exact List.mem_flatten.mpr ⟨group, hgroup, hc⟩

theorem notMem_hexPadded {w n : Nat} (hc : ∀ d < 16, Nat.digitChar d ≠ c) : c ∉ (hexPadded w n).toList := by
  rw [hexPadded, String.toList_ofList, List.leftpad, List.mem_append, List.mem_replicate, not_or]
  exact ⟨fun hzero => hc 0 (by decide) hzero.2.symm, notMem_toDigits (by decide) (by decide) hc⟩

theorem uuidText_injective : Function.Injective uuidText := by
  intro x y h
  have hhyphen : ∀ id : ConnectionId, '-' ∉ (hexPadded 32 id.toNat).toList := fun _ => notMem_hexPadded (by decide)
  have hgroups := intercalate_inj (List.cons_ne_nil _ _) (List.cons_ne_nil _ _) (notMem_uuidGroups (hhyphen x))
    (notMem_uuidGroups (hhyphen y)) (String.ofList_injective h)
  have hchars : (hexPadded 32 x.toNat).toList = (hexPadded 32 y.toNat).toList := by
    rw [← flatten_uuidGroups (hexPadded 32 x.toNat).toList, ← flatten_uuidGroups (hexPadded 32 y.toNat).toList]
    exact congrArg List.flatten hgroups
  rw [hexPadded, hexPadded, String.toList_ofList, String.toList_ofList] at hchars
  exact BitVec.eq_of_toNat_eq (leftpad_toDigits_injective (by decide) (by decide) 32 hchars)

end Identifiers

section Addresses

/-- The digits of a number in one base, each written in another. -/
def separated (sep : Char) (b count base n : Nat) : List Char :=
  [sep].intercalate ((parts b count n).map (Nat.toDigits base))

theorem separated_injective {sep : Char} {b k base w : Nat} (hbase : 1 < base) (hbase' : base ≤ 16)
    (hsep : ∀ d < 16, Nat.digitChar d ≠ sep) (hw : b ^ (k + 1) = 2 ^ w) :
    Function.Injective fun addr : BitVec w => separated sep b (k + 1) base addr.toNat := by
  have hparts : ∀ n, (parts b (k + 1) n).map (Nat.toDigits base) ≠ [] := fun n hnil =>
    parts_ne_nil (List.map_eq_nil_iff.mp hnil)
  have hnone : ∀ n, ∀ part ∈ (parts b (k + 1) n).map (Nat.toDigits base), sep ∉ part := by
    intro n
    rw [List.forall_mem_map]
    exact fun _ _ => notMem_toDigits hbase hbase' hsep
  intro x y h
  have hmap := intercalate_inj (hparts x.toNat) (hparts y.toNat) (hnone x.toNat) (hnone y.toNat) h
  have hdigits := List.map_injective_iff.mpr (toDigits_injective hbase hbase') hmap
  exact BitVec.eq_of_toNat_eq (parts_inj (hw ▸ x.isLt) (hw ▸ y.isLt) hdigits)

theorem notMem_separated {sep : Char} {b k base n : Nat} (hbase : 1 < base) (hbase' : base ≤ 16) (hsep : c ≠ sep)
    (hc : ∀ d < 16, Nat.digitChar d ≠ c) : c ∉ separated sep b k base n := by
  intro h
  obtain hsame | ⟨part, hpart, hmem⟩ := mem_intercalate h
  · exact hsep hsame
  · obtain ⟨digit, -, rfl⟩ := List.mem_map.mp hpart
    exact notMem_toDigits hbase hbase' hc hmem

def ipv4Chars (addr : Ipv4Addr) : List Char := separated '.' 256 4 10 addr.toNat

/-- All eight groups are written, also those that are zero. -/
def ipv6Chars (addr : Ipv6Addr) : List Char := separated ':' 65536 8 16 addr.toNat

theorem ipv4Chars_injective : Function.Injective ipv4Chars :=
  separated_injective (by decide) (by decide) (by decide) (by decide)

theorem ipv6Chars_injective : Function.Injective ipv6Chars :=
  separated_injective (by decide) (by decide) (by decide) (by decide)

theorem colon_mem_ipv6Chars (addr : Ipv6Addr) : ':' ∈ ipv6Chars addr := by
  simp [ipv6Chars, separated, parts, List.intercalate]

theorem colon_notMem_ipv4Chars (addr : Ipv4Addr) : ':' ∉ ipv4Chars addr :=
  notMem_separated (by decide) (by decide) (by decide) (by decide)

def ipText : IpAddr → String
  | .v4 addr => String.ofList (ipv4Chars addr)
  | .v6 addr => String.ofList (ipv6Chars addr)

theorem ipText_injective : Function.Injective ipText := by
  have hfamily : ∀ x y, ipText (.v4 x) ≠ ipText (.v6 y) := by
    intro x y h
    have hchars : ipv4Chars x = ipv6Chars y := String.ofList_injective h
    exact colon_notMem_ipv4Chars x (hchars ▸ colon_mem_ipv6Chars y)
  intro x y h
  cases x with
  | v4 x =>
    cases y with
    | v4 y => rw [ipv4Chars_injective (String.ofList_injective h)]
    | v6 y => exact absurd h (hfamily x y)
  | v6 x =>
    cases y with
    | v4 y => exact absurd h.symm (hfamily y x)
    | v6 y => rw [ipv6Chars_injective (String.ofList_injective h)]

/-- The scope of an address stands behind it, unless it is zero. -/
def scopedChars (ip : Ipv6Addr) (scopeId : UInt32) : List Char :=
  ipv6Chars ip ++ if scopeId = 0 then [] else '%' :: Nat.toDigits 10 scopeId.toNat

def socketText : SocketAddr → String
  | .v4 ip port => String.ofList (ipv4Chars ip ++ ':' :: Nat.toDigits 10 port.toNat)
  | .v6 ip port _ scopeId => String.ofList ('[' :: (scopedChars ip scopeId ++ ']' :: ':' :: Nat.toDigits 10 port.toNat))

theorem toDigits_port {m n : UInt16} (h : Nat.toDigits 10 m.toNat = Nat.toDigits 10 n.toNat) : m = n :=
  UInt16.toNat_inj.mp (toDigits_injective (by decide) (by decide) h)

theorem percent_notMem (ip : Ipv6Addr) : '%' ∉ ipv6Chars ip :=
  notMem_separated (by decide) (by decide) (by decide) (by decide)

theorem bracket_notMem (ip : Ipv6Addr) (scopeId : UInt32) : ']' ∉ scopedChars ip scopeId := by
  have hip : ']' ∉ ipv6Chars ip := notMem_separated (by decide) (by decide) (by decide) (by decide)
  have hdigits : ']' ∉ Nat.toDigits 10 scopeId.toNat := notMem_toDigits (by decide) (by decide) (by decide)
  unfold scopedChars
  split <;> simp [hip, hdigits]

theorem scopedChars_inj {x y : Ipv6Addr} {m n : UInt32} (h : scopedChars x m = scopedChars y n) : x = y ∧ m = n := by
  have hmixed : ∀ {x y : Ipv6Addr} {n : UInt32}, ipv6Chars x ≠ ipv6Chars y ++ '%' :: Nat.toDigits 10 n.toNat := by
    intro x y n hsame
    exact percent_notMem x (hsame ▸ List.mem_append_right _ List.mem_cons_self)
  unfold scopedChars at h
  split at h
  · split at h
    · rename_i hm hn
      rw [List.append_nil, List.append_nil] at h
      exact ⟨ipv6Chars_injective h, hm.trans hn.symm⟩
    · rw [List.append_nil] at h
      exact absurd h hmixed
  · split at h
    · rw [List.append_nil] at h
      exact absurd h.symm hmixed
    · obtain ⟨hip, hscope⟩ := append_cons_inj (percent_notMem x) (percent_notMem y) h
      exact ⟨ipv6Chars_injective hip, UInt32.toNat_inj.mp (toDigits_injective (by decide) (by decide) hscope)⟩

def withoutFlow : SocketAddr → SocketAddr
  | .v4 ip port => .v4 ip port
  | .v6 ip port _ scopeId => .v6 ip port 0 scopeId

theorem socketText_v4_ne (ip : Ipv4Addr) (port : UInt16) (ip' : Ipv6Addr) (port' : UInt16) (flowinfo scopeId : UInt32) :
    socketText (.v4 ip port) ≠ socketText (.v6 ip' port' flowinfo scopeId) := by
  have hip : '[' ∉ ipv4Chars ip := notMem_separated (by decide) (by decide) (by decide) (by decide)
  have hport : '[' ∉ Nat.toDigits 10 port.toNat := notMem_toDigits (by decide) (by decide) (by decide)
  intro h
  have hchars : ipv4Chars ip ++ ':' :: Nat.toDigits 10 port.toNat =
      '[' :: (scopedChars ip' scopeId ++ ']' :: ':' :: Nat.toDigits 10 port'.toNat) := String.ofList_injective h
  have hbracket : '[' ∈ ipv4Chars ip ++ ':' :: Nat.toDigits 10 port.toNat := hchars ▸ List.mem_cons_self
  simp [hip, hport] at hbracket

/-- Apart from its flow information, a socket address is given by its text. -/
theorem withoutFlow_eq {x y : SocketAddr} (h : socketText x = socketText y) : withoutFlow x = withoutFlow y := by
  cases x with
  | v4 ip port =>
    cases y with
    | v4 ip' port' =>
      obtain ⟨hip, hport⟩ := append_cons_inj (colon_notMem_ipv4Chars ip) (colon_notMem_ipv4Chars ip')
        (String.ofList_injective h)
      rw [ipv4Chars_injective hip, toDigits_port hport]
    | v6 ip' port' flowinfo scopeId => exact absurd h (socketText_v4_ne ip port ip' port' flowinfo scopeId)
  | v6 ip port flowinfo scopeId =>
    cases y with
    | v4 ip' port' => exact absurd h.symm (socketText_v4_ne ip' port' ip port flowinfo scopeId)
    | v6 ip' port' flowinfo' scopeId' =>
      obtain ⟨hhost, hport⟩ := append_cons_inj (bracket_notMem ip scopeId) (bracket_notMem ip' scopeId')
        (List.cons.inj (String.ofList_injective h)).2
      obtain ⟨rfl, rfl⟩ := scopedChars_inj hhost
      rw [withoutFlow, withoutFlow, toDigits_port (List.cons.inj hport).2]

end Addresses

end CoreVpn.ConnectionLog.EventTexts
