import CoreVpn.Config.Addresses
import CoreVpn.Server.PlainHost

namespace CoreVpn.Client.Routes

open Lib.Computation Lib.Text Core.Networks Config.Validation Config.Addresses Protocol.ControlMessages
open Protocol.PushReplies
open Server.Connections (Host)
open Server.KeyExchange (cidrToNetmask pushReply)
open Server.PlainHost (plainHost)

section Reading

def countOnes (mask : Ipv4Addr) : Nat := (List.finRange 32).countP fun i => mask.getLsbD i

theorem countOnes_le (mask : Ipv4Addr) : countOnes mask ≤ 32 := by
  have h := List.countP_le_length (p := fun i : Fin 32 => mask.getLsbD i) (l := List.finRange 32)
  rwa [List.length_finRange] at h

/-- The network that the client sets up a route to: the length of its prefix is
read off the netmask. -/
def addRoute (route : PushRoute) : Option Ipv4Net := do
  let mask ← parseIpv4Addr route.netmask
  let addr ← parseIpv4Addr route.network
  return ⟨addr, countOnes mask, countOnes_le mask⟩

def addRoutes (reply : PushReply) : List Network := reply.routes.filterMap fun route => (addRoute route).map .v4

end Reading

section Hearing

variable {toLowercase : String → String} {reply received : PushReply} {part network netmask : String}

def routeOf (part : String) : List PushRoute :=
  match splitWhitespace part with
  | "route" :: _ => (PushRoute.parse part).toOption.toList
  | _ => []

def heard (text : String) : List PushRoute := (split text ',').flatMap routeOf

theorem parse_trim (part : String) : PushRoute.parse (trim part) = PushRoute.parse part := by
  rw [PushRoute.parse, PushRoute.parse, splitWhitespace_trim]

theorem routeOf_trim (part : String) : routeOf (trim part) = routeOf part := by
  rw [routeOf, routeOf, splitWhitespace_trim, parse_trim]

theorem routeOf_route {rest : List String} (h : splitWhitespace part = "route" :: rest) :
    routeOf part = (PushRoute.parse part).toOption.toList := by
  simp only [routeOf, h]

theorem routeOf_other (h : ∀ rest, splitWhitespace part ≠ "route" :: rest) : routeOf part = [] := by
  unfold routeOf
  split
  · rename_i hroute
    exact absurd hroute (h _)
  · rfl

theorem routes_apply (toLowercase : String → String) (reply : PushReply) (part : String) :
    (reply.apply toLowercase part).routes = reply.routes ++ routeOf part := by
  by_cases hroute : ∃ rest, splitWhitespace part = "route" :: rest
  · obtain ⟨rest, hrest⟩ := hroute
    rw [routeOf_route hrest]
    simp only [PushReply.apply, hrest]
    cases PushRoute.parse part with
    | ok route => rfl
    | error e => exact (List.append_nil _).symm
  · rw [routeOf_other fun rest hrest => hroute ⟨rest, hrest⟩, List.append_nil, PushReply.apply]
    split
    case h_4 => exact absurd ⟨_, by assumption⟩ hroute
    all_goals first | rfl | (split <;> rfl)

theorem routes_foldl (toLowercase : String → String) (reply : PushReply) (parts : List String) :
    (parts.foldl (PushReply.apply toLowercase) reply).routes = reply.routes ++ parts.flatMap routeOf := by
  induction parts generalizing reply with
  | nil => exact (List.append_nil _).symm
  | cons part parts ih => rw [List.foldl_cons, ih, routes_apply, List.append_assoc, List.flatMap_cons]

theorem flatMap_trimmed (parts : List String) :
    ((parts.map trim).filter fun part => !part.isEmpty).flatMap routeOf = parts.flatMap routeOf := by
  induction parts with
  | nil => rfl
  | cons part parts ih =>
    rw [List.map_cons, List.flatMap_cons, ← ih, ← routeOf_trim part]
    by_cases hempty : trim part = ""
    · rw [hempty]
      rfl
    · rw [List.filter_cons_of_pos (by simpa using hempty), List.flatMap_cons]

theorem routes_of_parse (h : PushReply.parse toLowercase reply.encode = .ok received) :
    received.routes = (directives reply).flatMap heard := by
  have hne : directives reply ≠ [] := by simp [directives]
  have hsplit : split (String.intercalate "," (directives reply)) ',' = _ := split_intercalate_flatMap hne
  rw [parse_eq, encode_eq, stripPrefix_append, Option.getD_some, hsplit] at h
  obtain rfl := Except.ok.inj h
  rw [applyAll, routes_foldl, flatMap_trimmed, List.flatMap_assoc]
  rfl

theorem routeWords_new (network netmask : String) :
    routeWords (PushRoute.new network netmask) = ["route", network, netmask, "vpn_gateway"] := rfl

/-- A pushed route is read back if its address is in the form that the client
takes, and dropped otherwise. -/
theorem heard_route (hnetwork : Token network) (hnetmask : isIpv4Addr netmask = true) :
    heard (PushRoute.new network netmask).encode =
      if isIpv4Addr network then [PushRoute.new network netmask] else [] := by
  have hwords : ∀ word ∈ routeWords (PushRoute.new network netmask), Token word := by
    rw [routeWords_new]
    simp only [List.forall_mem_cons]
    exact ⟨token_fixed _ (by decide), hnetwork, isIpv4Addr_token hnetmask, token_fixed _ (by decide),
      List.forall_mem_nil _⟩
  have htext := encode_route (PushRoute.new network netmask)
  have hcomma : ',' ∉ (PushRoute.new network netmask).encode.toList := by
    rw [htext]
    exact commaFree_words fun word hword => (hwords word hword).commaFree
  have htokens : splitWhitespace (PushRoute.new network netmask).encode =
      routeWords (PushRoute.new network netmask) := by
    rw [htext]
    exact splitWhitespace_words fun word hword => (hwords word hword).toWord
  rw [heard, split_eq_singleton hcomma, List.flatMap_singleton, routeOf_route (htokens.trans (routeWords_new _ _))]
  by_cases hvalid : isIpv4Addr network = true
  · have hroute : ValidRoute (PushRoute.new network netmask) := by
      refine ⟨hvalid, hnetmask, ?_, ?_⟩
      · intro gateway hgateway
        cases hgateway
      · intro metric hmetric
        cases hmetric
    rw [parse_route hroute htokens, if_pos hvalid]
    rfl
  · have hparse : PushRoute.parse (PushRoute.new network netmask).encode =
        .error (.error (.invalidPacket ("invalid IPv4 address: " ++ network))) := by
      simp only [PushRoute.parse, htokens, routeWords_new, List.drop_succ_cons, List.drop_zero, validateIpv4,
        if_neg hvalid]
      rfl
    rw [hparse, if_neg hvalid]
    rfl

end Hearing

section Entries

variable {N : NetParsers} {entry address length part : String}

/-- The routes that the client sets up for an entry of the configuration. -/
def arrived (entry : String) : List Network :=
  match cidrToNetmask entry with
  | some (network, netmask) =>
    (heard (PushRoute.new network netmask).encode).filterMap fun route => (addRoute route).map .v4
  | none => []

theorem isDigit_of_decimal {n : Nat} (h : decimal part = some n) : part ≠ "" ∧ ∀ c ∈ part.toList, c.isDigit = true := by
  unfold decimal at h
  split at h
  · cases h
  · rename_i hdigits
    rw [Bool.or_eq_true, not_or, List.any_eq_true] at hdigits
    refine ⟨fun hempty => hdigits.1 (by rw [hempty]; rfl), fun c hc => ?_⟩
    by_contra hnot
    exact hdigits.2 ⟨c, hc, by simpa using hnot⟩

theorem parseU32_of_decimal {n : Nat} (h : decimal part = some n) (hn : n < 2 ^ 32) : parseU32 part = some n := by
  obtain ⟨hne, hdigit⟩ := isDigit_of_decimal h
  have hchars : part.toList ≠ [] := fun hnil => hne (String.toList_eq_nil_iff.mp hnil)
  have hvalue : part.toList.foldl (fun n c => n * 10 + (c.toNat - 48)) 0 = n := by
    unfold decimal at h
    split at h
    · cases h
    · exact Option.some.inj h
  have hplus : ∀ rest, part.toList ≠ '+' :: rest := by
    intro rest hrest
    have hsign := hdigit '+' (hrest ▸ List.mem_cons_self)
    cases hsign
  unfold parseU32
  split
  · rename_i rest hrest
    exact absurd hrest (hplus rest)
  · rw [if_neg (by simpa [hchars] using hdigit)]
    simp only [hvalue, if_pos hn]

theorem chars_of_decimalAddr {addr : Ipv4Addr} (h : decimalAddr address = some addr) :
    address ≠ "" ∧ ∀ c ∈ address.toList, c.isDigit = true ∨ c = '.' := by
  unfold decimalAddr at h
  split at h
  · rename_i first second third fourth hsplit
    simp only [Option.bind_eq_bind, Option.bind_eq_some_iff] at h
    obtain ⟨a, ha, b, hb, c, hc, d, hd, -⟩ := h
    have hpieces : ∀ piece ∈ split address '.', ∀ c ∈ piece.toList, c.isDigit = true := by
      rw [hsplit]
      simp only [List.forall_mem_cons]
      exact ⟨(isDigit_of_decimal ha).2, (isDigit_of_decimal hb).2, (isDigit_of_decimal hc).2,
        (isDigit_of_decimal hd).2, List.forall_mem_nil _⟩
    constructor
    · rintro rfl
      cases hsplit
    · intro c hc
      by_cases hdot : c = '.'
      · exact .inr hdot
      · obtain ⟨piece, hpiece, hmem⟩ := exists_mem_splitOnP (p := (· == '.')) hc (by simpa using hdot)
        exact .inl (hpieces _ (List.mem_map_of_mem hpiece) c (by rwa [String.toList_ofList]))
  · cases h

theorem token_of_chars (hne : address ≠ "") (h : ∀ c ∈ address.toList, isWhitespace c = false ∧ c ≠ ',') : Token address :=
  ⟨⟨hne, fun c hc => (h c hc).1⟩, fun hc => (h _ hc).2 rfl⟩

theorem split_cidr (haddress : '/' ∉ address.toList) (hlength : '/' ∉ length.toList) :
    split (address ++ "/" ++ length) '/' = [address, length] := by
  have h := split_intercalate (List.cons_ne_nil address [length])
    (List.forall_mem_cons.mpr ⟨haddress, List.forall_mem_singleton.mpr hlength⟩)
  rwa [String.intercalate_cons_cons, String.intercalate_singleton] at h

theorem netmask_read : ∀ p : Fin 33,
    let mask := BitVec.ofNat 32 (2 ^ 32 - 2 ^ (32 - p.val))
    isIpv4Addr (dotted mask) = true ∧ parseIpv4Addr (dotted mask) = some mask ∧ countOnes mask = p.val := by
  decide +kernel

theorem cidrToNetmask_of (haddress : '/' ∉ address.toList) (hlength : '/' ∉ length.toList) :
    cidrToNetmask (address ++ "/" ++ length) = (parseU32 length).bind fun p =>
      if p > 32 then none else some (address, dotted (BitVec.ofNat 32 (2 ^ 32 - 2 ^ (32 - p)))) := by
  simp only [cidrToNetmask, split_cidr haddress hlength]
  rfl

theorem addRoute_new {net : Ipv4Net} {mask : Ipv4Addr} {netmask : String}
    (hmask : parseIpv4Addr netmask = some mask) (hones : countOnes mask = net.prefixLen)
    (haddress : parseIpv4Addr address = some net.addr) :
    addRoute (PushRoute.new address netmask) = some net := by
  obtain ⟨addr, prefixLen, hle⟩ := net
  obtain rfl : countOnes mask = prefixLen := hones
  simp only [addRoute, PushRoute.new, hmask, haddress, Option.bind_eq_bind, Option.bind_some]
  rfl

theorem arrived_v4 {net : Ipv4Net} (haddress : decimalAddr address = some net.addr)
    (hlength : decimal length = some net.prefixLen) :
    arrived (address ++ "/" ++ length) = if isIpv4Addr address then [.v4 net] else [] := by
  obtain ⟨hne, hchars⟩ := chars_of_decimalAddr haddress
  have hslash : '/' ∉ address.toList := fun h => (hchars _ h).elim (by decide) (by decide)
  have hslash' : '/' ∉ length.toList := fun h => by cases (isDigit_of_decimal hlength).2 _ h
  have htoken : Token address := by
    refine token_of_chars hne fun c hc => ?_
    rcases hchars c hc with hdigit | rfl
    · exact isDigit_solid c hdigit
    · decide
  obtain ⟨hmask, hread, hones⟩ := netmask_read ⟨net.prefixLen, Nat.lt_succ_of_le net.prefixLen_le⟩
  have hlen := net.prefixLen_le
  rw [arrived, cidrToNetmask_of hslash hslash', parseU32_of_decimal hlength (by omega), Option.bind_some,
    if_neg (Nat.not_lt.mpr hlen)]
  dsimp only at hmask hread hones ⊢
  generalize BitVec.ofNat 32 (2 ^ 32 - 2 ^ (32 - net.prefixLen)) = mask at hmask hread hones ⊢
  rw [heard_route htoken hmask]
  by_cases hvalid : isIpv4Addr address = true
  · have hroute := addRoute_new hread hones ((if_pos hvalid).trans haddress)
    rw [if_pos hvalid, if_pos hvalid, List.filterMap_cons, hroute]
    rfl
  · rw [if_neg hvalid, if_neg hvalid]
    rfl

/-- An IPv6 entry is not pushed, or the client drops it. -/
theorem arrived_v6 (hcolon : ':' ∈ address.toList)
    (hchars : ∀ c ∈ address.toList, c.isAlphanum = true ∨ c = ':' ∨ c = '.')
    (hlength : ∀ c ∈ length.toList, c.isDigit = true) : arrived (address ++ "/" ++ length) = [] := by
  have hslash : '/' ∉ address.toList := fun h => by rcases hchars _ h with h | h | h <;> cases h
  have hslash' : '/' ∉ length.toList := fun h => by cases hlength _ h
  have hne : address ≠ "" := by
    rintro rfl
    cases hcolon
  have htoken : Token address := by
    refine token_of_chars hne fun c hc => ?_
    rcases hchars c hc with halnum | rfl | rfl
    · exact isAlphanum_solid c halnum
    · decide
    · decide
  have hinvalid : ¬ isIpv4Addr address = true := by
    intro hvalid
    rcases isIpv4Addr_chars hvalid _ hcolon with h | h <;> cases h
  rw [arrived, cidrToNetmask_of hslash hslash']
  cases parseU32 length with
  | none => rfl
  | some p =>
    rw [Option.bind_some]
    by_cases hlong : p > 32
    · rw [if_pos hlong]
    · obtain ⟨hmask, -⟩ := netmask_read ⟨p, Nat.lt_succ_of_le (Nat.le_of_not_lt hlong)⟩
      rw [if_neg hlong]
      dsimp only at hmask ⊢
      rw [heard_route htoken hmask, if_neg hinvalid]
      rfl

def addressPart (entry : String) : String := (split entry '/').head?.getD ""

theorem arrived_iff (hN : N.Reads) {net : Network} (h : N.parse entry = some net) :
    arrived entry = [net.canonical] ↔
      isIpv4Addr (addressPart entry) = true ∧ ∃ v4 : Ipv4Net, net = .v4 v4 ∧ v4.addr = v4.network := by
  cases hv4 : N.ipv4Net entry with
  | some v4 =>
    obtain ⟨address, length, rfl, haddress, hlength⟩ := hN.ipv4 entry v4 hv4
    obtain ⟨hne, hchars⟩ := chars_of_decimalAddr haddress
    have hslash : '/' ∉ address.toList := fun h => (hchars _ h).elim (by decide) (by decide)
    have hslash' : '/' ∉ length.toList := fun h => by cases (isDigit_of_decimal hlength).2 _ h
    have hpart : addressPart (address ++ "/" ++ length) = address := by
      rw [addressPart, split_cidr hslash hslash']
      rfl
    obtain rfl : Network.v4 v4 = net := by
      rw [NetParsers.parse, hv4] at h
      exact Option.some.inj h
    rw [arrived_v4 haddress hlength, hpart]
    by_cases hvalid : isIpv4Addr address = true
    · rw [if_pos hvalid, List.cons.injEq, and_iff_left rfl, eq_comm, canonical_eq_self_iff]
      constructor
      · exact fun h => ⟨hvalid, v4, rfl, h⟩
      · rintro ⟨-, v4', heq, h⟩
        exact Network.v4.inj heq ▸ h
    · simp [hvalid]
  | none =>
    rw [NetParsers.parse, hv4] at h
    obtain ⟨v6, hv6, rfl⟩ := Option.map_eq_some_iff.mp h
    obtain ⟨address, length, rfl, hcolon, hchars, hlength⟩ := hN.ipv6 entry v6 hv6
    rw [arrived_v6 hcolon hchars hlength]
    simp

end Entries

section Replies

variable {C : Type} {N : NetParsers}

theorem exists_directives (reply : PushReply) :
    ∃ front back, ∀ routes, directives { reply with routes } = front ++ routes.map PushRoute.encode ++ back := by
  refine ⟨[s!"topology {reply.topology.asStr}"] ++
    (reply.ifconfig.map fun p => s!"ifconfig {p.1} {p.2}").toList ++
    (reply.ifconfigIpv6.map fun ipv6 => s!"ifconfig-ipv6 {ipv6}").toList,
    (reply.routeGateway.map fun gw => s!"route-gateway {gw}").toList ++
    (if reply.redirectGateway then ["redirect-gateway def1"] else []) ++
    reply.dns.map (fun dns => s!"dhcp-option DNS {dns}") ++
    reply.dnsSearch.map (fun domain => s!"dhcp-option DOMAIN {domain}") ++
    [s!"ping {reply.ping}", s!"ping-restart {reply.pingRestart}"] ++ reply.options, fun routes => ?_⟩
  simp only [directives, List.append_assoc]

def pushing (H : Host C) (entries : List String) : Host C :=
  { H with config := { H.config with pushRoutes := entries } }

theorem flatMap_arrived (entries : List String) :
    ((entries.filterMap fun cidr => (cidrToNetmask cidr).map fun p => PushRoute.new p.1 p.2).map
      PushRoute.encode).flatMap (fun text => (heard text).filterMap fun route => (addRoute route).map .v4) =
      entries.flatMap arrived := by
  induction entries with
  | nil => rfl
  | cons entry entries ih =>
    rw [List.flatMap_cons, ← ih, arrived]
    cases hcidr : cidrToNetmask entry with
    | none => rw [List.filterMap_cons_none (by rw [hcidr]; rfl)]; rfl
    | some p => rw [List.filterMap_cons_some (by rw [hcidr]; rfl)]; rfl

theorem addRoutes_received (toLowercase : String → String) (H : Host C) (gatewayIp clientIp cipher : String) :
    ∃ front back, ∀ entries, ∃ received,
      PushReply.parse toLowercase (pushReply (pushing H entries) gatewayIp clientIp cipher).encode = .ok received ∧
        addRoutes received = front ++ entries.flatMap arrived ++ back := by
  obtain ⟨front, back, hdirectives⟩ := exists_directives (pushReply H gatewayIp clientIp cipher)
  refine ⟨front.flatMap fun text => (heard text).filterMap fun route => (addRoute route).map .v4,
    back.flatMap fun text => (heard text).filterMap fun route => (addRoute route).map .v4, fun entries => ?_⟩
  refine ⟨_, parse_eq _ _, ?_⟩
  rw [addRoutes, routes_of_parse (parse_eq _ _), List.filterMap_flatMap, ← flatMap_arrived]
  have h : directives (pushReply (pushing H entries) gatewayIp clientIp cipher) = _ := hdirectives _
  rw [h, List.flatMap_append, List.flatMap_append]
  rfl

/-- An entry of the configuration reaches the client as one route to the network
it denotes only if it is an IPv4 network, has no bits set behind the prefix, and
its address has no leading zeros. -/
theorem push_routes_arrive_iff (hN : N.Reads) (toLowercase : String → String) (H : Host C)
    (gatewayIp clientIp cipher : String) :
    ∃ front back, ∀ entries, validatePushRoutes N entries = .ok () →
      (∃ received,
        PushReply.parse toLowercase (pushReply (pushing H entries) gatewayIp clientIp cipher).encode = .ok received ∧
          addRoutes received = front ++ entries.flatMap arrived ++ back) ∧
      ∀ entry ∈ entries, ∃ net, N.parse entry = some net ∧ (arrived entry = [net.canonical] ↔
        isIpv4Addr (addressPart entry) = true ∧ ∃ v4 : Ipv4Net, net = .v4 v4 ∧ v4.addr = v4.network) := by
  obtain ⟨front, back, hreceived⟩ := addRoutes_received toLowercase H gatewayIp clientIp cipher
  refine ⟨front, back, fun entries hvalid => ⟨hreceived entries, fun entry hentry => ?_⟩⟩
  have hsome := (validatePushRoutes_eq_ok_iff N entries).mp hvalid entry hentry
  obtain ⟨net, hnet⟩ := Option.isSome_iff_exists.mp hsome
  exact ⟨net, hnet, arrived_iff hN hnet⟩

theorem thirtyTwo_lt : 32 < 128 + 1 := by decide

def plainNets : NetParsers where
  ipv4Net entry := match split entry '/' with
    | [address, length] => do
      let addr ← decimalAddr address
      let prefixLen ← decimal length
      if h : prefixLen ≤ 32 then some ⟨addr, prefixLen, h⟩ else none
    | _ => none
  ipv6Net entry := if entry = "2001:db8::/32" then some (.block (0x20010db8#32 ++ 0#96) ⟨32, thirtyTwo_lt⟩) else none

theorem reads_plainNets : plainNets.Reads where
  ipv4 entry net h := by
    unfold plainNets at h
    dsimp only at h
    split at h
    · rename_i address length hsplit
      simp only [Option.bind_eq_bind, Option.bind_eq_some_iff] at h
      obtain ⟨addr, haddress, prefixLen, hlength, h⟩ := h
      split at h
      · obtain rfl := Option.some.inj h
        exact ⟨address, length, eq_of_split hsplit, haddress, hlength⟩
      · cases h
    · cases h
  ipv6 entry net h := by
    unfold plainNets at h
    dsimp only at h
    split at h
    · rename_i hentry
      exact ⟨"2001:db8::", "32", hentry, by decide, forall_mem_toList (by decide), forall_mem_toList (by decide)⟩
    · cases h

theorem push_route_arrives :
    ∃ front back received,
      PushReply.parse id (pushReply (pushing (plainHost false) ["10.2.0.0/16"]) "10.8.0.1" "10.8.0.2"
        "AES-256-GCM").encode = .ok received ∧
        addRoutes received = front ++ [.v4 (.block (ofOctets 10 2 0 0) 16)] ++ back := by
  obtain ⟨front, back, hentries⟩ := push_routes_arrive_iff reads_plainNets id (plainHost false) "10.8.0.1"
    "10.8.0.2" "AES-256-GCM"
  obtain ⟨⟨received, hparse, hroutes⟩, harrived⟩ := hentries ["10.2.0.0/16"] (by decide +kernel)
  obtain ⟨net, hnet, hiff⟩ := harrived _ List.mem_cons_self
  have hparsed : plainNets.parse "10.2.0.0/16" = some (.v4 (.block (ofOctets 10 2 0 0) 16)) := by decide +kernel
  obtain rfl := Option.some.inj (hnet.symm.trans hparsed)
  have hone := hiff.mpr ⟨by decide +kernel, _, rfl, by decide⟩
  rw [(canonical_eq_self_iff _).mpr (by decide)] at hone
  refine ⟨front, back, received, hparse, ?_⟩
  rw [hroutes, List.flatMap_singleton, hone]

/-- An entry with bits behind its prefix arrives with them, and an IPv6 entry
does not arrive. -/
theorem push_routes_altered :
    let entries := ["10.2.3.4/16", "2001:db8::/32"]
    let reply := (pushReply (pushing (plainHost false) entries) "10.8.0.1" "10.8.0.2" "AES-256-GCM").encode
    validatePushRoutes plainNets entries = .ok () ∧
      plainNets.parse "10.2.3.4/16" = some (.v4 (.block (ofOctets 10 2 3 4) 16)) ∧
      (Network.v4 (.block (ofOctets 10 2 3 4) 16)).canonical = .v4 (.block (ofOctets 10 2 0 0) 16) ∧
      (PushReply.parse id reply).toOption.map addRoutes = some [.v4 (.block (ofOctets 10 2 3 4) 16)] := by
  decide +kernel

end Replies

end CoreVpn.Client.Routes
