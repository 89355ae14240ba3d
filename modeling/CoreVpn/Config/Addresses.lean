import CoreVpn.Config.Validation
import CoreVpn.Lib.Search
import CoreVpn.Protocol.PushReplies

namespace CoreVpn.Config.Addresses

open Lib.Computation Lib.Search Lib.Text Core.Networks Validation Protocol.ControlMessages Protocol.PushReplies

variable {s : String}

section Parsers

/-- The standard parser for addresses, which takes no leading zeros. -/
def parseIpv4Addr (s : String) : Option Ipv4Addr := if isIpv4Addr s then decimalAddr s else none

def hexDigit (c : Char) : Option Nat :=
  if c.isDigit then some (c.toNat - 48)
  else if 'a' ≤ c ∧ c ≤ 'f' then some (c.toNat - 87)
  else if 'A' ≤ c ∧ c ≤ 'F' then some (c.toNat - 55)
  else none

def group (s : String) : Option Nat :=
  if s.isEmpty || 4 < s.toList.length then none
  else s.toList.foldlM (fun n c => (hexDigit c).map (n * 16 + ·)) 0

def groups (embedded : Bool) : List String → Option (List Nat)
  | [] => some []
  | [last] =>
    match group last with
    | some n => some [n]
    | none =>
      if embedded then (parseIpv4Addr last).map fun addr => [addr.toNat / 65536, addr.toNat % 65536] else none
  | s :: rest => do
    let n ← group s
    let ns ← groups embedded rest
    return n :: ns

def parseGroups (embedded : Bool) (s : String) : Option (List Nat) :=
  if s.isEmpty then some [] else groups embedded (split s ':')

def ofGroups (ns : List Nat) : Ipv6Addr := BitVec.ofNat 128 (ns.foldl (fun n g => n * 65536 + g) 0)

/-- Two colons stand for at least one group of zeros. -/
def parseIpv6Addr (s : String) : Option Ipv6Addr :=
  match find "::".toList s.toList with
  | none => do
    let ns ← parseGroups true s
    if ns.length = 8 then some (ofGroups ns) else none
  | some i => do
    let head ← parseGroups false (String.ofList (s.toList.take i))
    let tail ← parseGroups true (String.ofList (s.toList.drop (i + 2)))
    let zeros := 8 - (head.length + tail.length)
    if zeros = 0 then none else some (ofGroups (head ++ List.replicate zeros 0 ++ tail))

def parseIpAddr (s : String) : Option IpAddr := (parseIpv4Addr s).map .v4 <|> (parseIpv6Addr s).map .v6

def parsePort (s : String) : Option UInt16 := ((decimal s).filter (· < 2 ^ 16)).map UInt16.ofNat

def parseSocketAddrV4 (s : String) : Option SocketAddr := do
  let (ip, port) ← splitOnce s ':'
  return .v4 (← parseIpv4Addr ip) (← parsePort port)

/-- An IPv6 address stands in brackets, with a scope or without. -/
def parseSocketAddrV6 (s : String) : Option SocketAddr := do
  let (host, rest) ← splitOnce (← stripPrefix s "[") ']'
  let port ← parsePort (← stripPrefix rest ":")
  match splitOnce host '%' with
  | none => return .v6 (← parseIpv6Addr host) port 0 0
  | some (ip, scope) =>
    let scopeId ← (decimal scope).filter (· < 2 ^ 32)
    return .v6 (← parseIpv6Addr ip) port 0 (UInt32.ofNat scopeId)

def parseSocketAddr (s : String) : Option SocketAddr := parseSocketAddrV4 s <|> parseSocketAddrV6 s

def ip : SocketAddr → IpAddr
  | .v4 ip _ => .v4 ip
  | .v6 ip _ _ _ => .v6 ip

def port : SocketAddr → UInt16
  | .v4 _ port => port
  | .v6 _ port _ _ => port

example : parseIpv6Addr "2001:db8::1:192.0.2.1" = some 0x20010db80000000000000001c0000201 := by decide +kernel

example : parseSocketAddr "[::1]:1194" = some (.v6 1 1194 0 0) := by decide +kernel

end Parsers

section Characters

variable {n : Nat} {ns : List Nat} {embedded : Bool}

def AddressChar (c : Char) : Prop := (hexDigit c).isSome ∨ c = '.' ∨ c = ':'

theorem AddressChar.of_isDigit {c : Char} (h : c.isDigit = true) : AddressChar c := by
  left
  rw [hexDigit, if_pos h]
  rfl

theorem AddressChar.solid {c : Char} (h : AddressChar c) : isWhitespace c = false ∧ c ≠ '[' := by
  rcases h with hhex | rfl | rfl
  · have halnum : c.isAlphanum = true := by
      simp only [hexDigit, Char.le_def, UInt32.le_iff_toNat_le] at hhex
      delta Char.isAlphanum Char.isAlpha Char.isUpper Char.isLower
      simp only [Bool.or_eq_true, Bool.and_eq_true, decide_eq_true_eq, ge_iff_le, UInt32.le_iff_toNat_le]
      split at hhex
      · exact .inr (by assumption)
      · split at hhex
        · rename_i hlower
          exact .inl (.inr ⟨hlower.1, hlower.2.trans (by decide)⟩)
        · split at hhex
          · rename_i hupper
            exact .inl (.inl ⟨hupper.1, hupper.2.trans (by decide)⟩)
          · cases hhex
    refine ⟨(isAlphanum_solid c halnum).1, ?_⟩
    rintro rfl
    cases hhex
  · decide
  · decide

theorem hexDigit_of_foldlM {chars : List Char} {start : Nat}
    (h : chars.foldlM (fun n c => (hexDigit c).map (n * 16 + ·)) start = some n) :
    ∀ c ∈ chars, (hexDigit c).isSome := by
  induction chars generalizing start with
  | nil => exact fun c hc => nomatch hc
  | cons d chars ih =>
    rw [List.foldlM_cons] at h
    obtain ⟨next, hnext, hrest⟩ := Option.bind_eq_some_iff.mp h
    obtain ⟨digit, hdigit, -⟩ := Option.map_eq_some_iff.mp hnext
    exact List.forall_mem_cons.mpr ⟨by rw [hdigit]; rfl, ih hrest⟩

theorem group_chars (h : group s = some n) : ∀ c ∈ s.toList, AddressChar c := by
  intro c hc
  rw [group] at h
  split at h
  · cases h
  · exact .inl (hexDigit_of_foldlM h c hc)

theorem parseIpv4Addr_chars {addr : Ipv4Addr} (h : parseIpv4Addr s = some addr) :
    ∀ c ∈ s.toList, c.isDigit = true ∨ c = '.' := by
  rw [parseIpv4Addr] at h
  split at h
  · exact isIpv4Addr_chars (by assumption)
  · cases h

theorem groups_chars {pieces : List String} (h : groups embedded pieces = some ns) :
    ∀ piece ∈ pieces, ∀ c ∈ piece.toList, AddressChar c := by
  fun_induction groups embedded pieces generalizing ns with
  | case1 => exact fun piece hpiece => nomatch hpiece
  | case2 last n hgroup => exact List.forall_mem_singleton.mpr (group_chars hgroup)
  | case3 last hgroup hembedded =>
    obtain ⟨addr, haddr, -⟩ := Option.map_eq_some_iff.mp h
    refine List.forall_mem_singleton.mpr fun c hc => ?_
    rcases parseIpv4Addr_chars haddr c hc with hdigit | hdot
    · exact .of_isDigit hdigit
    · exact .inr (.inl hdot)
  | case4 => cases h
  | case5 s rest hrest ih =>
    obtain ⟨n, hgroup, hbind⟩ := Option.bind_eq_some_iff.mp h
    obtain ⟨ns, hns, -⟩ := Option.bind_eq_some_iff.mp hbind
    exact List.forall_mem_cons.mpr ⟨group_chars hgroup, ih hns⟩

theorem parseGroups_chars (h : parseGroups embedded s = some ns) : ∀ c ∈ s.toList, AddressChar c := by
  intro c hc
  by_cases hcolon : c = ':'
  · exact .inr (.inr hcolon)
  · rw [parseGroups] at h
    split at h
    · rename_i hempty
      rw [String.isEmpty_iff.mp hempty] at hc
      cases hc
    · obtain ⟨piece, hpiece, hmem⟩ := exists_mem_splitOnP (p := (· == ':')) hc (by simpa using hcolon)
      exact groups_chars h (String.ofList piece) (List.mem_map_of_mem hpiece) c (by rwa [String.toList_ofList])

theorem parseIpv6Addr_chars {addr : Ipv6Addr} (h : parseIpv6Addr s = some addr) : ∀ c ∈ s.toList, AddressChar c := by
  intro c hc
  rw [parseIpv6Addr] at h
  split at h
  · obtain ⟨ns, hns, -⟩ := Option.bind_eq_some_iff.mp h
    exact parseGroups_chars hns c hc
  · rename_i i hfind
    obtain ⟨head, hhead, hbind⟩ := Option.bind_eq_some_iff.mp h
    obtain ⟨tail, htail, -⟩ := Option.bind_eq_some_iff.mp hbind
    have hheadChars := parseGroups_chars hhead
    have htailChars := parseGroups_chars htail
    rw [String.toList_ofList] at hheadChars htailChars
    obtain ⟨behind, hbehind⟩ := prefix_drop_of_find hfind
    have hcut : s.toList.drop (i + 2) = behind := by
      rw [← List.drop_drop, ← hbehind]
      rfl
    rw [← List.take_append_drop i s.toList, ← hbehind, List.mem_append, List.mem_append] at hc
    rcases hc with hfront | hcolons | hback
    · exact hheadChars c hfront
    · have hcolon : c = ':' := by simpa using hcolons
      exact .inr (.inr hcolon)
    · exact htailChars c (hcut ▸ hback)

theorem parseIpAddr_chars {addr : IpAddr} (h : parseIpAddr s = some addr) : ∀ c ∈ s.toList, AddressChar c := by
  intro c hc
  rw [parseIpAddr, Option.orElse_eq_some] at h
  rcases h with hv4 | ⟨-, hv6⟩
  · obtain ⟨ip, hip, -⟩ := Option.map_eq_some_iff.mp hv4
    rcases parseIpv4Addr_chars hip c hc with hdigit | hdot
    · exact .of_isDigit hdigit
    · exact .inr (.inl hdot)
  · obtain ⟨ip, hip, -⟩ := Option.map_eq_some_iff.mp hv6
    exact parseIpv6Addr_chars hip c hc

end Characters

section Hostnames

def validateLabels : List String → Outcome ConfigError Unit
  | [] => .ok ()
  | label :: labels =>
    if label.isEmpty then .error (.error (.validationError "Hostname labels cannot be empty"))
    else if (asBytes label).length > 63 then
      .error (.error (.validationError s!"Hostname label '{label}' exceeds maximum length (63 characters)"))
    else validateLabels labels

/-- What counts as a letter or a digit is left to the standard tables. -/
def validateHostnameOrIp (isAlphanumeric : Char → Bool) (host : String) : Outcome ConfigError Unit :=
  if (parseIpAddr host).isSome then .ok ()
  else if host.isEmpty then .error (.error (.validationError "Hostname cannot be empty"))
  else if (asBytes host).length > 253 then
    .error (.error (.validationError "Hostname exceeds maximum length (253 characters)"))
  else if !host.toList.all (fun c => isAlphanumeric c || c == '-' || c == '.') then
    .error (.error (.validationError "Hostname contains invalid characters"))
  else if startsWith host "." || endsWith host "." then
    .error (.error (.validationError "Hostname cannot start or end with a dot"))
  else if startsWith host "-" || endsWith host "-" then
    .error (.error (.validationError "Hostname cannot start or end with a hyphen"))
  else if contains host ".." then
    .error (.error (.validationError "Hostname cannot contain consecutive dots"))
  else validateLabels (split host '.')

/-- What is assumed of the tables: no blank is a letter or a digit. -/
def Solid (isAlphanumeric : Char → Bool) : Prop := ∀ c, isAlphanumeric c = true → isWhitespace c = false

theorem word_of_validate {isAlphanumeric : Char → Bool} {host : String} (hsolid : Solid isAlphanumeric)
    (h : validateHostnameOrIp isAlphanumeric host = .ok ()) : Word host := by
  rw [validateHostnameOrIp] at h
  split at h
  · rename_i hip
    obtain ⟨addr, haddr⟩ := Option.isSome_iff_exists.mp hip
    refine ⟨?_, fun c hc => (parseIpAddr_chars haddr c hc).solid.1⟩
    rintro rfl
    exact absurd hip (by decide)
  · split at h
    · cases h
    · rename_i hempty
      split at h
      · cases h
      · split at h
        · cases h
        · rename_i hchars
          refine ⟨fun heq => hempty (by rw [heq]; rfl), fun c hc => ?_⟩
          simp only [Bool.not_eq_true', Bool.not_eq_false, List.all_eq_true, Bool.or_eq_true, beq_iff_eq] at hchars
          rcases hchars c hc with (halnum | rfl) | rfl
          · exact hsolid c halnum
          · decide
          · decide

end Hostnames

section Sockets

variable {host : String} {remote : SocketAddr}

theorem splitOnce_append {front back : String} {separator : Char} (h : separator ∉ front.toList) :
    splitOnce (front ++ String.singleton separator ++ back) separator = some (front, back) := by
  have hfront : ∀ c ∈ front.toList, (c != separator) = true := by
    intro c hc
    rw [bne_iff_ne]
    rintro rfl
    exact h hc
  have hlist : (front ++ String.singleton separator ++ back).toList = front.toList ++ separator :: back.toList := by
    simp
  rw [splitOnce, hlist, List.dropWhile_append_of_pos hfront, List.takeWhile_append_of_pos hfront]
  simp

theorem decimal_toString (n : Nat) : decimal (toString n) = some n := by
  have htext : (toString n).toList = Nat.toDigits 10 n := by
    rw [Nat.toString_eq_ofList_toDigits, String.toList_ofList]
  have hempty : (toString n).isEmpty = false := by
    rw [Bool.eq_false_iff, ne_eq, String.isEmpty_iff, ← String.toList_eq_nil_iff, htext]
    exact Nat.toDigits_ne_nil
  have hdigits : (Nat.toDigits 10 n).any (fun c => !c.isDigit) = false := by
    rw [List.any_eq_false]
    intro c hc
    simpa using Nat.isDigit_of_mem_toDigits (by decide) (by decide) hc
  rw [decimal, htext, hempty, hdigits, foldl_toDigits]
  rfl

theorem parsePort_toString (n : UInt16) : parsePort (toString n) = some n := by
  have htext : toString n = toString n.toNat := rfl
  have hsmall : n.toNat < 2 ^ 16 := n.toNat_lt
  rw [parsePort, htext, decimal_toString, Option.filter_some, if_pos (by simpa using hsmall), Option.map_some,
    UInt16.ofNat_toNat]

theorem parseSocketAddr_v4 {addr : Ipv4Addr} (h : parseIpv4Addr host = some addr) (n : UInt16) :
    parseSocketAddr (host ++ ":" ++ toString n) = some (.v4 addr n) := by
  have hcolon : ':' ∉ host.toList := by
    intro hc
    rcases parseIpv4Addr_chars h _ hc with hdigit | hdot
    · cases hdigit
    · cases hdot
  have hsplit : splitOnce (host ++ ":" ++ toString n) ':' = some (host, toString n) := splitOnce_append hcolon
  have hv4 : parseSocketAddrV4 (host ++ ":" ++ toString n) = some (.v4 addr n) := by
    simp only [parseSocketAddrV4, hsplit, Option.bind_eq_bind, Option.bind_some, h, parsePort_toString]
    rfl
  rw [parseSocketAddr, hv4]
  rfl

theorem ip_of_parseSocketAddrV4 {text : String} (h : parseSocketAddrV4 text = some remote) :
    ∃ addr, ip remote = .v4 addr := by
  obtain ⟨⟨addr, port⟩, -, hbind⟩ := Option.bind_eq_some_iff.mp h
  obtain ⟨addr, -, hbind⟩ := Option.bind_eq_some_iff.mp hbind
  obtain ⟨port, -, hremote⟩ := Option.bind_eq_some_iff.mp hbind
  obtain rfl := Option.some.inj hremote
  exact ⟨addr, rfl⟩

theorem isSome_of_parseSocketAddr {n : UInt16} (hhost : parseIpAddr host = some (ip remote))
    (h : parseSocketAddr (host ++ ":" ++ toString n) = some remote) : (parseIpv4Addr host).isSome := by
  rw [parseIpAddr, Option.orElse_eq_some] at hhost
  rcases hhost with hv4 | ⟨-, hv6⟩
  · obtain ⟨addr, haddr, -⟩ := Option.map_eq_some_iff.mp hv4
    rw [haddr]
    rfl
  · obtain ⟨addr, haddr, hip⟩ := Option.map_eq_some_iff.mp hv6
    rw [parseSocketAddr, Option.orElse_eq_some] at h
    rcases h with hsocket | ⟨-, hsocket⟩
    · obtain ⟨v4, hv4⟩ := ip_of_parseSocketAddrV4 hsocket
      rw [hv4] at hip
      cases hip
    · obtain ⟨rest, hrest, -⟩ := Option.bind_eq_some_iff.mp hsocket
      have hbracket : startsWith (host ++ ":" ++ toString n) "[" = true := by
        by_contra hstart
        rw [stripPrefix, if_neg hstart] at hrest
        cases hrest
      cases hchars : host.toList with
      | nil =>
        have hnone : parseIpv6Addr "" = none := by decide
        rw [String.toList_eq_nil_iff.mp hchars, hnone] at haddr
        cases haddr
      | cons c chars =>
        have hlist : (host ++ ":" ++ toString n).toList = c :: (chars ++ ':' :: (toString n).toList) := by
          simp [hchars]
        have hfirst : c = '[' := by
          rw [startsWith, hlist] at hbracket
          obtain ⟨behind, hbehind⟩ := List.isPrefixOf_iff_prefix.mp hbracket
          exact (List.cons.inj hbehind).1.symm
        have hsolid := parseIpv6Addr_chars haddr c (by rw [hchars]; exact List.mem_cons_self)
        exact absurd hfirst hsolid.solid.2

end Sockets

end CoreVpn.Config.Addresses
