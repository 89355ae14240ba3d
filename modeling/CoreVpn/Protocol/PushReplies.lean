import CoreVpn.Protocol.ControlMessages

namespace CoreVpn.Protocol.PushReplies

open Lib.Computation Lib.Text Errors ControlMessages

variable {toLowercase : String → String} {reply : PushReply} {route : PushRoute} {part s t : String}

section Directives

structure Token (s : String) : Prop extends Word s where
  commaFree : ',' ∉ s.toList

instance (s : String) : Decidable (Token s) :=
  decidable_of_iff (Word s ∧ ',' ∉ s.toList) ⟨fun h => ⟨h.1, h.2⟩, fun h => ⟨h.toWord, h.commaFree⟩⟩

def keywords : List String :=
  ["topology", "ifconfig", "ifconfig-ipv6", "route", "route-gateway", "redirect-gateway", "dhcp-option",
    "ping", "ping-restart"]

structure Unknown (s : String) : Prop where
  nonempty : s ≠ ""
  commaFree : ',' ∉ s.toList
  trimmed : trim s = s
  head : ∀ token ∈ (splitWhitespace s).head?, token ∉ keywords

instance (s : String) : Decidable (Unknown s) :=
  decidable_of_iff (s ≠ "" ∧ ',' ∉ s.toList ∧ trim s = s ∧
      ∀ token ∈ (splitWhitespace s).head?.toList, token ∉ keywords)
    ⟨fun h => ⟨h.1, h.2.1, h.2.2.1, fun token ht => h.2.2.2 token (Option.mem_toList.mpr ht)⟩,
      fun h => ⟨h.nonempty, h.commaFree, h.trimmed, fun token ht => h.head token (Option.mem_toList.mp ht)⟩⟩

structure ValidRoute (route : PushRoute) : Prop where
  network : isIpv4Addr route.network = true
  netmask : isIpv4Addr route.netmask = true
  gateway : ∀ gw ∈ route.gateway, isIpv4Addr gw = true
  metric : ∀ metric ∈ route.metric, metric.toNat ≤ 9999

/-- What is known of a reply that was parsed. The second of the two interface
addresses may be missing, or both. -/
structure Regular (reply : PushReply) : Prop where
  ifconfig : ∀ p ∈ reply.ifconfig, (p.1 = "" → p.2 = "") ∧ (p.1 ≠ "" → Token p.1) ∧ (p.2 ≠ "" → Token p.2)
  ifconfigIpv6 : ∀ ipv6 ∈ reply.ifconfigIpv6, Token ipv6
  routes : ∀ route ∈ reply.routes, ValidRoute route
  routeGateway : ∀ gw ∈ reply.routeGateway, Token gw
  dns : ∀ dns ∈ reply.dns, Token dns
  dnsSearch : ∀ domain ∈ reply.dnsSearch, Token domain
  options : ∀ option ∈ reply.options, Unknown option

end Directives

section Tokens

theorem splitWhitespace_words {words : List String} (h : ∀ word ∈ words, Word word) :
    splitWhitespace (String.intercalate " " words) = words := by
  induction words with
  | nil => exact splitWhitespace_empty
  | cons word words ih =>
    have hword := (h word List.mem_cons_self).splitWhitespace_eq
    have hrest := ih fun w hw => h w (List.mem_cons_of_mem word hw)
    cases words with
    | nil => rw [String.intercalate_singleton, hword]
    | cons next words => rw [String.intercalate_cons_cons, splitWhitespace_blank, hword, hrest]; rfl

theorem commaFree_words {words : List String} (h : ∀ word ∈ words, ',' ∉ word.toList) :
    ',' ∉ (String.intercalate " " words).toList := by
  induction words with
  | nil => simp
  | cons word words ih =>
    have hword := h word List.mem_cons_self
    have hrest := ih fun w hw => h w (List.mem_cons_of_mem word hw)
    cases words with
    | nil => rwa [String.intercalate_singleton]
    | cons next words =>
      rw [String.intercalate_cons_cons, String.toList_append, String.toList_append]
      simp only [List.mem_append, not_or]
      exact ⟨⟨hword, by decide⟩, hrest⟩

theorem token_of_mem (hcomma : ',' ∉ part.toList) (h : s ∈ splitWhitespace part) : Token s := by
  obtain ⟨hword, hchars⟩ := word_of_mem_splitWhitespace h
  exact ⟨hword, fun hmem => hcomma (hchars _ hmem)⟩

theorem isAlphanum_solid (c : Char) (h : c.isAlphanum = true) : isWhitespace c = false ∧ c ≠ ',' := by
  have hrange : 48 ≤ c.toNat ∧ c.toNat ≤ 57 ∨ 65 ≤ c.toNat ∧ c.toNat ≤ 90 ∨ 97 ≤ c.toNat ∧ c.toNat ≤ 122 := by
    delta Char.isAlphanum Char.isAlpha Char.isUpper Char.isLower Char.isDigit at h
    simp only [Bool.or_eq_true, Bool.and_eq_true, decide_eq_true_eq] at h
    rcases h with (h | h) | h
    · exact .inr (.inl h)
    · exact .inr (.inr h)
    · exact .inl h
  constructor
  · simp only [isWhitespace, Bool.or_eq_false_iff, Bool.and_eq_false_iff, decide_eq_false_iff_not, beq_eq_false_iff_ne]
    omega
  · rintro rfl
    cases h

theorem isDigit_solid (c : Char) (h : c.isDigit = true) : isWhitespace c = false ∧ c ≠ ',' := by
  have halnum : c.isAlphanum = true := by
    rw [Char.isAlphanum, h, Bool.or_true]
  exact isAlphanum_solid c halnum

theorem isIpv4Addr_chars (h : isIpv4Addr s = true) : ∀ c ∈ s.toList, c.isDigit = true ∨ c = '.' := by
  obtain ⟨-, hoctets⟩ : (split s '.').length = 4 ∧ ∀ octet ∈ split s '.', isOctet octet = true := by
    simpa [isIpv4Addr] using h
  intro c hc
  by_cases hdot : c = '.'
  · exact .inr hdot
  · obtain ⟨piece, hpiece, hmem⟩ := exists_mem_splitOnP (p := (· == '.')) hc (by simpa using hdot)
    have hoctet := hoctets _ (List.mem_map_of_mem hpiece)
    simp only [isOctet, Bool.and_eq_true, List.all_eq_true, String.toList_ofList] at hoctet
    exact .inl (hoctet.1.1 c hmem)

theorem isIpv4Addr_token (h : isIpv4Addr s = true) : Token s := by
  have hchar := isIpv4Addr_chars h
  refine ⟨⟨?_, ?_⟩, ?_⟩
  · rintro rfl
    cases h
  · intro c hc
    rcases hchar c hc with hdigit | rfl
    · exact (isDigit_solid c hdigit).1
    · decide
  · intro hc
    rcases hchar _ hc with hdigit | hdot
    · exact (isDigit_solid _ hdigit).2 rfl
    · cases hdot

theorem toString_token (n : UInt32) : Token (toString n) := by
  have hsolid : ∀ c ∈ (toString n).toList, isWhitespace c = false ∧ c ≠ ',' :=
    fun c hc => isDigit_solid c (isDigit_of_mem_toString hc)
  refine ⟨⟨?_, fun c hc => (hsolid c hc).1⟩, fun hc => (hsolid _ hc).2 rfl⟩
  intro hempty
  have hdigits := toList_toString n
  rw [hempty] at hdigits
  exact Nat.toDigits_ne_nil hdigits.symm

end Tokens

section Reads

/-- Read back, a directive has the given effect. -/
structure Reads (toLowercase : String → String) (s : String) (effect : PushReply → PushReply) : Prop where
  commaFree : ',' ∉ s.toList
  nonempty : trim s ≠ ""
  apply_eq : ∀ reply, reply.apply toLowercase (trim s) = effect reply

theorem reads_of_tokens {effect : PushReply → PushReply} {tokens : List String} (hcomma : ',' ∉ s.toList)
    (hs : splitWhitespace s = tokens) (hne : tokens ≠ [])
    (heffect : ∀ part reply, splitWhitespace part = tokens → reply.apply toLowercase part = effect reply) :
    Reads toLowercase s effect where
  commaFree := hcomma
  nonempty := by
    intro hempty
    rw [← splitWhitespace_trim, hempty, splitWhitespace_empty] at hs
    exact hne hs.symm
  apply_eq := fun reply => heffect (trim s) reply ((splitWhitespace_trim s).trans hs)

theorem reads_words {effect : PushReply → PushReply} (words : List String) (hwords : ∀ word ∈ words, Token word)
    (hne : words ≠ [])
    (heffect : ∀ part reply, splitWhitespace part = words → reply.apply toLowercase part = effect reply) :
    Reads toLowercase (String.intercalate " " words) effect :=
  reads_of_tokens (commaFree_words fun word hword => (hwords word hword).commaFree)
    (splitWhitespace_words fun word hword => (hwords word hword).toWord) hne heffect

theorem token_fixed : ∀ s ∈ keywords ++ ["net30", "p2p", "subnet", "DNS", "DOMAIN", "def1", "vpn_gateway"],
    Token s := by
  decide +kernel

theorem reads_argument {effect : PushReply → PushReply} (keyword : String) (hkeyword : keyword ∈ keywords)
    (hs : Token s)
    (heffect : ∀ part reply, splitWhitespace part = [keyword, s] → reply.apply toLowercase part = effect reply) :
    Reads toLowercase (keyword ++ " " ++ s) effect := by
  have htext : keyword ++ " " ++ s = String.intercalate " " [keyword, s] := by
    rw [String.intercalate_cons_cons, String.intercalate_singleton]
  rw [htext]
  apply reads_words _ _ (List.cons_ne_nil _ _) heffect
  exact List.forall_mem_cons.mpr
    ⟨token_fixed keyword (List.mem_append_left _ hkeyword), List.forall_mem_singleton.mpr hs⟩

theorem reads_topology (hlower : Lowercases toLowercase) (topology : Topology) :
    Reads toLowercase s!"topology {topology.asStr}" fun reply => { reply with topology } := by
  have hname : Topology.parse toLowercase topology.asStr = topology := by
    cases topology with
    | net30 => rw [Topology.parse, hlower _ (by decide)]; rfl
    | p2p => rw [Topology.parse, hlower _ (by decide)]; rfl
    | subnet => rw [Topology.parse, hlower _ (by decide)]; rfl
  have htoken : Token topology.asStr := by
    apply token_fixed
    cases topology <;> decide
  apply reads_argument "topology" (by decide) htoken
  intro part reply hpart
  simp only [PushReply.apply, hpart, hname]

theorem splitWhitespace_optional (h : s ≠ "" → Token s) : splitWhitespace s = if s = "" then [] else [s] := by
  by_cases hs : s = ""
  · rw [if_pos hs, hs, splitWhitespace_empty]
  · rw [if_neg hs, (h hs).splitWhitespace_eq]

theorem commaFree_optional (h : s ≠ "" → Token s) : ',' ∉ s.toList := by
  by_cases hs : s = ""
  · rw [hs]
    decide
  · exact (h hs).commaFree

theorem reads_ifconfig {p : String × String} (hpair : p.1 = "" → p.2 = "") (hfst : p.1 ≠ "" → Token p.1)
    (hsnd : p.2 ≠ "" → Token p.2) :
    Reads toLowercase s!"ifconfig {p.1} {p.2}" fun reply => { reply with ifconfig := some p } := by
  have htokens : splitWhitespace ("ifconfig" ++ " " ++ p.1 ++ " " ++ p.2) =
      "ifconfig" :: ((if p.1 = "" then [] else [p.1]) ++ if p.2 = "" then [] else [p.2]) := by
    rw [splitWhitespace_blank, splitWhitespace_blank, splitWhitespace_optional hfst, splitWhitespace_optional hsnd,
      (token_fixed "ifconfig" (by decide)).splitWhitespace_eq]
    rfl
  change Reads toLowercase ("ifconfig" ++ " " ++ p.1 ++ " " ++ p.2) _
  refine reads_of_tokens ?_ htokens (List.cons_ne_nil _ _) ?_
  · simp [commaFree_optional hfst, commaFree_optional hsnd]
  · intro part reply hpart
    obtain ⟨ip, mask⟩ := p
    simp only [PushReply.apply, hpart]
    by_cases hip : ip = ""
    · obtain rfl : mask = "" := hpair hip
      simp [hip]
    · by_cases hmask : mask = ""
      · simp [hip, hmask]
      · simp [hip, hmask]

theorem reads_ifconfigIpv6 (h : Token s) :
    Reads toLowercase s!"ifconfig-ipv6 {s}" fun reply => { reply with ifconfigIpv6 := some s } := by
  apply reads_argument "ifconfig-ipv6" (by decide) h
  intro part reply hpart
  simp only [PushReply.apply, hpart]

theorem reads_routeGateway (h : Token s) :
    Reads toLowercase s!"route-gateway {s}" fun reply => { reply with routeGateway := some s } := by
  apply reads_argument "route-gateway" (by decide) h
  intro part reply hpart
  simp only [PushReply.apply, hpart]

theorem reads_redirectGateway :
    Reads toLowercase "redirect-gateway def1" fun reply => { reply with redirectGateway := true } := by
  apply reads_words ["redirect-gateway", "def1"]
  · intro word hword
    apply token_fixed
    revert word
    decide
  · exact List.cons_ne_nil _ _
  · intro part reply hpart
    simp only [PushReply.apply, hpart]

theorem reads_dns (h : Token s) :
    Reads toLowercase s!"dhcp-option DNS {s}" fun reply => { reply with dns := reply.dns ++ [s] } := by
  apply reads_words ["dhcp-option", "DNS", s]
  · simp only [List.forall_mem_cons]
    exact ⟨token_fixed _ (by decide), token_fixed _ (by decide), h, fun _ hnil => nomatch hnil⟩
  · exact List.cons_ne_nil _ _
  · intro part reply hpart
    simp only [PushReply.apply, hpart]

theorem reads_dnsSearch (h : Token s) :
    Reads toLowercase s!"dhcp-option DOMAIN {s}" fun reply =>
      { reply with dnsSearch := reply.dnsSearch ++ [s] } := by
  apply reads_words ["dhcp-option", "DOMAIN", s]
  · simp only [List.forall_mem_cons]
    exact ⟨token_fixed _ (by decide), token_fixed _ (by decide), h, fun _ hnil => nomatch hnil⟩
  · exact List.cons_ne_nil _ _
  · intro part reply hpart
    simp only [PushReply.apply, hpart]

theorem reads_ping (n : UInt32) : Reads toLowercase s!"ping {n}" fun reply => { reply with ping := n } := by
  apply reads_argument "ping" (by decide) (toString_token n)
  intro part reply hpart
  simp only [PushReply.apply, hpart, List.head?_cons, Option.bind_some, parseU32_toString, UInt32.ofNat_toNat]

theorem reads_pingRestart (n : UInt32) :
    Reads toLowercase s!"ping-restart {n}" fun reply => { reply with pingRestart := n } := by
  apply reads_argument "ping-restart" (by decide) (toString_token n)
  intro part reply hpart
  simp only [PushReply.apply, hpart, List.head?_cons, Option.bind_some, parseU32_toString, UInt32.ofNat_toNat]

theorem apply_unknown (h : ∀ token ∈ (splitWhitespace part).head?, token ∉ keywords) :
    reply.apply toLowercase part = { reply with options := reply.options ++ [part] } := by
  rw [PushReply.apply]
  split <;> simp_all [keywords]

theorem reads_unknown (h : Unknown s) :
    Reads toLowercase s fun reply => { reply with options := reply.options ++ [s] } where
  commaFree := h.commaFree
  nonempty := by
    rw [h.trimmed]
    exact h.nonempty
  apply_eq := by
    intro reply
    rw [h.trimmed, apply_unknown h.head]

section Routes

def routeWords (route : PushRoute) : List String :=
  ["route", route.network, route.netmask, route.gateway.getD "vpn_gateway"] ++ (route.metric.map toString).toList

theorem encode_route (route : PushRoute) : route.encode = String.intercalate " " (routeWords route) := by
  obtain ⟨network, netmask, gateway, metric⟩ := route
  cases gateway with
  | none =>
    cases metric with
    | none => simp [PushRoute.encode, routeWords, String.append_assoc]; rfl
    | some m => simp [PushRoute.encode, routeWords, String.append_assoc]; rfl
  | some gw =>
    cases metric with
    | none => simp [PushRoute.encode, routeWords, String.append_assoc]; rfl
    | some m => simp [PushRoute.encode, routeWords, String.append_assoc]; rfl

theorem validateIpv4_of (h : isIpv4Addr s = true) : validateIpv4 s = .ok () := by
  rw [validateIpv4, if_pos h]

theorem parse_route (h : ValidRoute route) (hpart : splitWhitespace part = routeWords route) :
    PushRoute.parse part = .ok route := by
  obtain ⟨network, netmask, gateway, metric⟩ := route
  have hgateway : (if gateway.getD "vpn_gateway" = "vpn_gateway" then none
      else if isIpv4Addr (gateway.getD "vpn_gateway") then some (gateway.getD "vpn_gateway") else none) =
        gateway := by
    cases gateway with
    | none => rfl
    | some gw =>
      have hgw : isIpv4Addr gw = true := h.gateway gw rfl
      have hname : gw ≠ "vpn_gateway" := by
        rintro rfl
        exact absurd hgw (by decide)
      simp only [Option.getD_some, if_neg hname, if_pos hgw]
  have hmetric : ((metric.map toString).toList.head?.bind fun m =>
      ((parseU32 m).filter fun n => n ≤ 9999).map UInt32.ofNat) = metric := by
    cases metric with
    | none => rfl
    | some n =>
      have hn : n.toNat ≤ 9999 := h.metric n rfl
      simp [parseU32_toString, Option.filter, hn]
  simp only [PushRoute.parse, hpart, routeWords, List.cons_append, List.nil_append, List.drop_succ_cons,
    List.drop_zero, validateIpv4_of h.network, validateIpv4_of h.netmask, Outcome.ok_bind, List.head?_cons,
    Option.bind_some, hgateway, hmetric]
  rfl

theorem reads_route (h : ValidRoute route) :
    Reads toLowercase route.encode fun reply => { reply with routes := reply.routes ++ [route] } := by
  rw [encode_route]
  apply reads_words
  · intro word hword
    simp only [routeWords, List.cons_append, List.nil_append, List.mem_cons, Option.mem_toList,
      Option.map_eq_some_iff] at hword
    rcases hword with rfl | rfl | rfl | rfl | ⟨n, -, rfl⟩
    · exact token_fixed _ (by decide)
    · exact isIpv4Addr_token h.network
    · exact isIpv4Addr_token h.netmask
    · cases hgw : route.gateway with
      | none => exact token_fixed _ (by decide)
      | some gw => exact isIpv4Addr_token (h.gateway gw hgw)
    · exact toString_token n
  · exact List.cons_ne_nil _ _
  · intro part reply hpart
    have hhead : splitWhitespace part = "route" :: (routeWords route).tail := hpart
    simp only [PushReply.apply, hhead, parse_route h hpart]

end Routes

end Reads

section Runs

def applyAll (toLowercase : String → String) (reply : PushReply) (directives : List String) : PushReply :=
  ((directives.map trim).filter fun part => !part.isEmpty).foldl (PushReply.apply toLowercase) reply

theorem applyAll_append (directives others : List String) :
    applyAll toLowercase reply (directives ++ others) =
      applyAll toLowercase (applyAll toLowercase reply directives) others := by
  rw [applyAll, List.map_append, List.filter_append, List.foldl_append]
  rfl

theorem applyAll_cons {effect : PushReply → PushReply} (h : Reads toLowercase s effect)
    (directives : List String) :
    applyAll toLowercase reply (s :: directives) = applyAll toLowercase (effect reply) directives := by
  have hne : (!(trim s).isEmpty) = true := by simpa using h.nonempty
  rw [applyAll, List.map_cons, List.filter_cons_of_pos (p := fun part : String => !part.isEmpty) hne, List.foldl_cons, h.apply_eq]
  rfl

theorem applyAll_optional {α : Type} {write : α → String} {o : Option α}
    (put : Option α → PushReply → PushReply)
    (hnone : put none reply = reply) (h : ∀ a ∈ o, Reads toLowercase (write a) (put (some a))) :
    applyAll toLowercase reply (o.map write).toList = put o reply := by
  cases o with
  | none => exact hnone.symm
  | some a => exact applyAll_cons (h a rfl) []

theorem applyAll_redirect (redirect : Bool) :
    applyAll toLowercase reply (if redirect then ["redirect-gateway def1"] else []) =
      { reply with redirectGateway := reply.redirectGateway || redirect } := by
  cases redirect with
  | false => simp [applyAll]
  | true =>
    rw [if_pos rfl, applyAll_cons reads_redirectGateway, Bool.or_true]
    rfl

theorem applyAll_map {α : Type} {write : α → String} {values : List α}
    (extend : List α → PushReply → PushReply)
    (hnil : ∀ reply, extend [] reply = reply)
    (hcons : ∀ a rest reply, extend rest (extend [a] reply) = extend (a :: rest) reply)
    (h : ∀ a ∈ values, Reads toLowercase (write a) (extend [a])) :
    applyAll toLowercase reply (values.map write) = extend values reply := by
  induction values generalizing reply with
  | nil => exact (hnil reply).symm
  | cons a values ih =>
    rw [List.map_cons, applyAll_cons (h a List.mem_cons_self), ih fun b hb => h b (List.mem_cons_of_mem a hb),
      hcons]

def directives (reply : PushReply) : List String :=
  [s!"topology {reply.topology.asStr}"] ++
  (reply.ifconfig.map fun p => s!"ifconfig {p.1} {p.2}").toList ++
  (reply.ifconfigIpv6.map fun ipv6 => s!"ifconfig-ipv6 {ipv6}").toList ++
  reply.routes.map PushRoute.encode ++
  (reply.routeGateway.map fun gw => s!"route-gateway {gw}").toList ++
  (if reply.redirectGateway then ["redirect-gateway def1"] else []) ++
  reply.dns.map (fun dns => s!"dhcp-option DNS {dns}") ++
  reply.dnsSearch.map (fun domain => s!"dhcp-option DOMAIN {domain}") ++
  [s!"ping {reply.ping}", s!"ping-restart {reply.pingRestart}"] ++
  reply.options

theorem encode_eq (reply : PushReply) :
    reply.encode = "PUSH_REPLY," ++ String.intercalate "," (directives reply) := by
  have hne : directives reply ≠ [] := by simp [directives]
  have hparts : reply.encode = String.intercalate "," ("PUSH_REPLY" :: directives reply) := by
    simp only [PushReply.encode, directives, List.append_assoc, List.cons_append, List.nil_append]
  rw [hparts, String.intercalate_cons_of_ne_nil hne]
  rfl

/-- Applied to the default reply, the directives of a reply give that reply. -/
theorem applyAll_directives (hlower : Lowercases toLowercase) (h : Regular reply) :
    applyAll toLowercase {} (directives reply) = reply := by
  obtain ⟨routes, ifconfig, ifconfigIpv6, dns, dnsSearch, redirectGateway, routeGateway, topology, ping,
    pingRestart, options⟩ := reply
  have htopology : applyAll toLowercase {} [s!"topology {topology.asStr}"] = { topology } :=
    applyAll_cons (reads_topology hlower topology) []
  have hifconfig : applyAll toLowercase { topology } (ifconfig.map fun p => s!"ifconfig {p.1} {p.2}").toList =
      { topology, ifconfig } :=
    applyAll_optional (fun ifconfig reply => { reply with ifconfig }) rfl fun p hp =>
      reads_ifconfig (h.ifconfig p hp).1 (h.ifconfig p hp).2.1 (h.ifconfig p hp).2.2
  have hipv6 : applyAll toLowercase { topology, ifconfig }
      (ifconfigIpv6.map fun ipv6 => s!"ifconfig-ipv6 {ipv6}").toList = { topology, ifconfig, ifconfigIpv6 } :=
    applyAll_optional (fun ifconfigIpv6 reply => { reply with ifconfigIpv6 }) rfl fun ipv6 hipv6 =>
      reads_ifconfigIpv6 (h.ifconfigIpv6 ipv6 hipv6)
  have hroutes : applyAll toLowercase { topology, ifconfig, ifconfigIpv6 } (routes.map PushRoute.encode) =
      { topology, ifconfig, ifconfigIpv6, routes } :=
    applyAll_map (fun routes reply => { reply with routes := reply.routes ++ routes })
      (by simp) (by simp) fun route hroute => reads_route (h.routes route hroute)
  have hgateway : applyAll toLowercase { topology, ifconfig, ifconfigIpv6, routes }
      (routeGateway.map fun gw => s!"route-gateway {gw}").toList =
        { topology, ifconfig, ifconfigIpv6, routes, routeGateway } :=
    applyAll_optional (fun routeGateway reply => { reply with routeGateway }) rfl fun gw hgw =>
      reads_routeGateway (h.routeGateway gw hgw)
  have hredirect : applyAll toLowercase { topology, ifconfig, ifconfigIpv6, routes, routeGateway }
      (if redirectGateway then ["redirect-gateway def1"] else []) =
        { topology, ifconfig, ifconfigIpv6, routes, routeGateway, redirectGateway } :=
    applyAll_redirect redirectGateway
  have hdns : applyAll toLowercase { topology, ifconfig, ifconfigIpv6, routes, routeGateway, redirectGateway }
      (dns.map fun dns => s!"dhcp-option DNS {dns}") =
        { topology, ifconfig, ifconfigIpv6, routes, routeGateway, redirectGateway, dns } :=
    applyAll_map (fun dns reply => { reply with dns := reply.dns ++ dns })
      (by simp) (by simp) fun server hserver => reads_dns (h.dns server hserver)
  have hsearch : applyAll toLowercase
      { topology, ifconfig, ifconfigIpv6, routes, routeGateway, redirectGateway, dns }
      (dnsSearch.map fun domain => s!"dhcp-option DOMAIN {domain}") =
        { topology, ifconfig, ifconfigIpv6, routes, routeGateway, redirectGateway, dns, dnsSearch } :=
    applyAll_map (fun domains reply => { reply with dnsSearch := reply.dnsSearch ++ domains })
      (by simp) (by simp) fun domain hdomain => reads_dnsSearch (h.dnsSearch domain hdomain)
  have hping : applyAll toLowercase
      { topology, ifconfig, ifconfigIpv6, routes, routeGateway, redirectGateway, dns, dnsSearch }
      [s!"ping {ping}", s!"ping-restart {pingRestart}"] =
        { topology, ifconfig, ifconfigIpv6, routes, routeGateway, redirectGateway, dns, dnsSearch, ping
          pingRestart } :=
    (applyAll_cons (reads_ping ping) _).trans (applyAll_cons (reads_pingRestart pingRestart) [])
  have hoptions : applyAll toLowercase { topology, ifconfig, ifconfigIpv6, routes, routeGateway, redirectGateway
                                         dns, dnsSearch, ping, pingRestart } (options.map id) =
      ⟨routes, ifconfig, ifconfigIpv6, dns, dnsSearch, redirectGateway, routeGateway, topology, ping,
        pingRestart, options⟩ :=
    applyAll_map (fun options reply => { reply with options := reply.options ++ options })
      (by simp) (by simp) fun option hoption => reads_unknown (h.options option hoption)
  rw [List.map_id] at hoptions
  simp only [directives, applyAll_append, htopology, hifconfig, hipv6, hroutes, hgateway, hredirect, hdns,
    hsearch, hping, hoptions]

theorem commaFree_directives (hlower : Lowercases toLowercase) (h : Regular reply) :
    ∀ directive ∈ directives reply, ',' ∉ directive.toList := by
  intro directive hmem
  simp only [directives, List.mem_append, List.mem_cons, List.not_mem_nil, or_false, Option.mem_toList,
    Option.map_eq_some_iff, List.mem_map] at hmem
  rcases hmem with ((((((((rfl | ⟨p, hp, rfl⟩) | ⟨ipv6, hipv6, rfl⟩) | ⟨route, hroute, rfl⟩) | ⟨gw, hgw, rfl⟩) |
    hredirect) | ⟨dns, hdns, rfl⟩) | ⟨domain, hdomain, rfl⟩) | hping) | hoption
  · exact (reads_topology hlower _).commaFree
  · obtain ⟨hpair, hfst, hsnd⟩ := h.ifconfig p hp
    exact (reads_ifconfig hpair hfst hsnd : Reads toLowercase _ _).commaFree
  · exact (reads_ifconfigIpv6 (h.ifconfigIpv6 ipv6 hipv6) : Reads toLowercase _ _).commaFree
  · exact (reads_route (h.routes route hroute) : Reads toLowercase _ _).commaFree
  · exact (reads_routeGateway (h.routeGateway gw hgw) : Reads toLowercase _ _).commaFree
  · split at hredirect
    · rw [List.mem_singleton.mp hredirect]
      exact (reads_redirectGateway : Reads toLowercase _ _).commaFree
    · cases hredirect
  · exact (reads_dns (h.dns dns hdns) : Reads toLowercase _ _).commaFree
  · exact (reads_dnsSearch (h.dnsSearch domain hdomain) : Reads toLowercase _ _).commaFree
  · rcases hping with rfl | rfl
    · exact (reads_ping _ : Reads toLowercase _ _).commaFree
    · exact (reads_pingRestart _ : Reads toLowercase _ _).commaFree
  · exact (h.options directive hoption).commaFree

theorem parse_eq (toLowercase : String → String) (s : String) :
    PushReply.parse toLowercase s =
      .ok (applyAll toLowercase {} (split ((stripPrefix s "PUSH_REPLY,").getD s) ',')) := by
  rw [PushReply.parse, applyAll]

theorem parse_encode (hlower : Lowercases toLowercase) (h : Regular reply) :
    PushReply.parse toLowercase reply.encode = .ok reply := by
  have hne : directives reply ≠ [] := by simp [directives]
  have hsplit : split (String.intercalate "," (directives reply)) ',' = directives reply :=
    split_intercalate hne (commaFree_directives hlower h)
  rw [parse_eq, encode_eq, stripPrefix_append, Option.getD_some, hsplit, applyAll_directives hlower h]

end Runs

section Parsed

theorem isIpv4Addr_of_validate (h : validateIpv4 s = .ok ()) : isIpv4Addr s = true := by
  by_contra hs
  rw [validateIpv4, if_neg hs] at h
  cases h

theorem validRoute_of_parse (h : PushRoute.parse part = .ok route) : ValidRoute route := by
  rw [PushRoute.parse] at h
  split at h
  · cases h
  · rename_i network rest htokens
    obtain ⟨⟨⟩, hnetwork, h⟩ := Outcome.bind_eq_ok_iff.mp h
    split at h
    · cases h
    · rename_i netmask others
      obtain ⟨⟨⟩, hnetmask, h⟩ := Outcome.bind_eq_ok_iff.mp h
      cases h
      refine ⟨isIpv4Addr_of_validate hnetwork, isIpv4Addr_of_validate hnetmask, ?_, ?_⟩
      · intro gw hgw
        obtain ⟨token, -, hgw⟩ := Option.bind_eq_some_iff.mp hgw
        split at hgw
        · cases hgw
        · split at hgw
          · rename_i hvalid
            cases hgw
            exact hvalid
          · cases hgw
      · intro metric hmetric
        obtain ⟨token, -, hmetric⟩ := Option.bind_eq_some_iff.mp hmetric
        obtain ⟨n, hn, rfl⟩ := Option.map_eq_some_iff.mp hmetric
        have hsmall : n ≤ 9999 := by simpa using (Option.filter_eq_some_iff.mp hn).2
        rwa [UInt32.toNat_ofNat_of_lt' (by change n < 2 ^ 32; omega)]

theorem regular_apply (h : Regular reply) (hne : part ≠ "") (hcomma : ',' ∉ part.toList) (htrim : trim part = part) :
    Regular (reply.apply toLowercase part) := by
  have htoken : ∀ {s : String}, s ∈ splitWhitespace part → Token s := token_of_mem hcomma
  rw [PushReply.apply]
  split
  · split
    · exact { h with }
    · exact h
  · rename_i rest htokens
    have hrest : ∀ {s : String}, s ∈ rest → Token s := fun hs => htoken (by simp [htokens, hs])
    refine { h with ifconfig := ?_ }
    rintro _ ⟨⟩
    cases rest with
    | nil => exact ⟨fun _ => rfl, fun hne => absurd rfl hne, fun hne => absurd rfl hne⟩
    | cons ip rest =>
      have hip : Token ip := hrest List.mem_cons_self
      refine ⟨fun hempty => absurd hempty hip.nonempty, fun _ => hip, ?_⟩
      cases rest with
      | nil => exact fun hne => absurd rfl hne
      | cons mask rest => exact fun _ => hrest (by simp)
  · split
    · rename_i ipv6 _ htokens
      refine { h with ifconfigIpv6 := ?_ }
      rintro _ ⟨⟩
      apply htoken
      simp [htokens]
    · exact h
  · split
    · rename_i route hroute
      have hvalid := List.forall_mem_singleton.mpr (validRoute_of_parse hroute)
      exact { h with routes := List.forall_mem_append.mpr ⟨h.routes, hvalid⟩ }
    · exact h
  · split
    · rename_i gw _ htokens
      refine { h with routeGateway := ?_ }
      rintro _ ⟨⟩
      apply htoken
      simp [htokens]
    · exact h
  · exact { h with }
  · split
    · rename_i dns _ htokens
      have hdns : ∀ server ∈ [dns], Token server := List.forall_mem_singleton.mpr (htoken (by simp [htokens]))
      exact { h with dns := List.forall_mem_append.mpr ⟨h.dns, hdns⟩ }
    · rename_i domain _ htokens
      have hdomain : ∀ name ∈ [domain], Token name := List.forall_mem_singleton.mpr (htoken (by simp [htokens]))
      exact { h with dnsSearch := List.forall_mem_append.mpr ⟨h.dnsSearch, hdomain⟩ }
    · exact h
  · split
    · exact { h with }
    · exact h
  · split
    · exact { h with }
    · exact h
  · have hunknown : Unknown part := by
      refine ⟨hne, hcomma, htrim, ?_⟩
      intro token htoken hknown
      obtain ⟨rest, htokens⟩ := List.head?_eq_some_iff.mp htoken
      simp_all [keywords]
    exact { h with options := List.forall_mem_append.mpr ⟨h.options, List.forall_mem_singleton.mpr hunknown⟩ }

theorem regular_foldl {parts : List String} (h : Regular reply)
    (hparts : ∀ part ∈ parts, part ≠ "" ∧ ',' ∉ part.toList ∧ trim part = part) :
    Regular (parts.foldl (PushReply.apply toLowercase) reply) := by
  induction parts generalizing reply with
  | nil => exact h
  | cons part parts ih =>
    obtain ⟨hne, hcomma, htrim⟩ := hparts part List.mem_cons_self
    exact ih (regular_apply h hne hcomma htrim) fun p hp => hparts p (List.mem_cons_of_mem part hp)

theorem mem_of_mem_trim {c : Char} (h : c ∈ (trim s).toList) : c ∈ s.toList := by
  rw [trim, String.toList_ofList] at h
  exact (List.dropWhile_suffix _).subset ((List.rdropWhile_prefix _ _).subset h)

theorem regular_default : Regular {} := by
  refine ⟨?_, ?_, ?_, ?_, ?_, ?_, ?_⟩ <;> intro _ h <;> cases h

theorem parse_regular (toLowercase : String → String) (s : String) :
    ∃ reply, PushReply.parse toLowercase s = .ok reply ∧ Regular reply := by
  refine ⟨_, rfl, regular_foldl regular_default ?_⟩
  intro part hpart
  obtain ⟨hmem, hne⟩ := List.mem_filter.mp hpart
  obtain ⟨piece, hpiece, rfl⟩ := List.mem_map.mp hmem
  refine ⟨by simpa using hne, ?_, trim_trim piece⟩
  intro hcomma
  exact (mem_of_mem_split hpiece _ (mem_of_mem_trim hcomma)).2 rfl

end Parsed

section Main

/-- A reply whose texts can be written as directives. -/
structure Writable (reply : PushReply) : Prop where
  ifconfig : ∀ p ∈ reply.ifconfig, Token p.1 ∧ Token p.2
  ifconfigIpv6 : ∀ ipv6 ∈ reply.ifconfigIpv6, Token ipv6
  routes : ∀ route ∈ reply.routes, ValidRoute route
  routeGateway : ∀ gw ∈ reply.routeGateway, Token gw
  dns : ∀ dns ∈ reply.dns, Token dns
  dnsSearch : ∀ domain ∈ reply.dnsSearch, Token domain
  options : ∀ option ∈ reply.options, Unknown option

theorem Writable.regular (h : Writable reply) : Regular reply := by
  refine { h with ifconfig := ?_ }
  intro p hp
  obtain ⟨hfst, hsnd⟩ := h.ifconfig p hp
  exact ⟨fun hempty => absurd hempty hfst.nonempty, fun _ => hfst, fun _ => hsnd⟩

/-- A reply that was parsed is written and read back as it is, whatever text it
came from, and so is every reply that is fit to be written. -/
theorem push_reply_round_trip (hlower : Lowercases toLowercase) :
    (∀ s, ∃ reply, PushReply.parse toLowercase s = .ok reply ∧
      PushReply.parse toLowercase reply.encode = .ok reply) ∧
    ∀ reply, Writable reply → PushReply.parse toLowercase reply.encode = .ok reply := by
  refine ⟨?_, fun reply h => parse_encode hlower h.regular⟩
  intro s
  obtain ⟨reply, hparse, hregular⟩ := parse_regular toLowercase s
  exact ⟨reply, hparse, parse_encode hlower hregular⟩

def fullReply : PushReply where
  routes := [⟨"192.168.1.0", "255.255.255.0", some "10.8.0.1", some 20⟩, PushRoute.new "10.9.0.0" "255.255.0.0"]
  ifconfig := some ("10.8.0.2", "255.255.255.0")
  ifconfigIpv6 := some "fd00::2/64"
  dns := ["1.1.1.1"]
  dnsSearch := ["example.org"]
  redirectGateway := true
  routeGateway := some "10.8.0.1"
  topology := .net30
  ping := 15
  pingRestart := 120
  options := ["peer-id 7"]

theorem writable_fullReply : Writable fullReply where
  ifconfig := by
    rintro _ ⟨⟩
    decide +kernel
  ifconfigIpv6 := by
    rintro _ ⟨⟩
    decide +kernel
  routes := by
    intro route hroute
    rcases List.mem_pair.mp hroute with rfl | rfl
    · refine ⟨by decide +kernel, by decide +kernel, ?_, ?_⟩
      · rintro _ ⟨⟩
        decide +kernel
      · rintro _ ⟨⟩
        decide
    · refine ⟨by decide +kernel, by decide +kernel, ?_, ?_⟩
      · rintro _ ⟨⟩
      · rintro _ ⟨⟩
  routeGateway := by
    rintro _ ⟨⟩
    decide +kernel
  dns := by decide +kernel
  dnsSearch := by decide +kernel
  options := by decide +kernel

theorem push_reply_round_trip_full :
    PushReply.parse id fullReply.encode = .ok fullReply :=
  (push_reply_round_trip (fun _ _ => rfl : Lowercases id)).2 fullReply writable_fullReply

end Main

end CoreVpn.Protocol.PushReplies
