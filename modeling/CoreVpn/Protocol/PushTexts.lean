import CoreVpn.Protocol.PushReplies

namespace CoreVpn.Protocol.PushTexts

open Lib.Computation Lib.Text Errors ControlMessages PushReplies

variable {toLowercase : String → String} {reply : PushReply} {route : PushRoute} {part s : String} {c : Char}

def optionCount (c : Char) (o : Option String) : Nat := o.elim 0 fun s => s.toList.count c

def listCount (c : Char) (texts : List String) : Nat := (texts.map fun s => s.toList.count c).sum

/-- How often a character occurs in the texts of a reply, those of its routes
not counted. -/
def textCount (c : Char) (reply : PushReply) : Nat :=
  optionCount c (reply.ifconfig.map Prod.fst) + optionCount c (reply.ifconfig.map Prod.snd) +
    optionCount c reply.ifconfigIpv6 + optionCount c reply.routeGateway + listCount c reply.dns +
    listCount c reply.dnsSearch + listCount c reply.options

theorem optionCount_some (s : String) : optionCount c (some s) = s.toList.count c := rfl

theorem listCount_cons (s : String) (texts : List String) :
    listCount c (s :: texts) = s.toList.count c + listCount c texts := by
  rw [listCount, List.map_cons, List.sum_cons]
  rfl

theorem listCount_append (texts others : List String) :
    listCount c (texts ++ others) = listCount c texts + listCount c others := by
  rw [listCount, List.map_append, List.sum_append]
  rfl

theorem listCount_nil : listCount c [] = 0 := rfl

section Parsed

theorem textCount_apply_le (c : Char) (reply : PushReply) (part : String) :
    textCount c (reply.apply toLowercase part) ≤ textCount c reply + part.toList.count c := by
  have htokens : listCount c (splitWhitespace part) ≤ part.toList.count c := sum_count_splitWhitespace_le part c
  rw [PushReply.apply]
  split
  · split <;> simp only [textCount, Nat.le_add_right]
  · rename_i rest hpart
    have hpair : (rest.head?.getD "").toList.count c + ((rest.drop 1).head?.getD "").toList.count c ≤
        listCount c rest := by
      cases rest with
      | nil => exact Nat.le_refl 0
      | cons ip rest =>
        cases rest with
        | nil => exact Nat.le_refl _
        | cons mask rest =>
          rw [listCount_cons, listCount_cons]
          exact Nat.add_le_add_left (Nat.le_add_right _ _) _
    rw [hpart, listCount_cons] at htokens
    simp only [textCount, Option.map_some, optionCount_some]
    omega
  · split
    · rename_i hpart
      simp only [hpart, listCount_cons] at htokens
      simp only [textCount, optionCount_some]
      omega
    · exact Nat.le_add_right _ _
  · split <;> simp only [textCount, Nat.le_add_right]
  · split
    · rename_i hpart
      simp only [hpart, listCount_cons] at htokens
      simp only [textCount, optionCount_some]
      omega
    · exact Nat.le_add_right _ _
  · simp only [textCount, Nat.le_add_right]
  · split
    · rename_i hpart
      simp only [hpart, listCount_cons] at htokens
      simp only [textCount, listCount_append, listCount_cons, listCount_nil]
      omega
    · rename_i hpart
      simp only [hpart, listCount_cons] at htokens
      simp only [textCount, listCount_append, listCount_cons, listCount_nil]
      omega
    · exact Nat.le_add_right _ _
  · split <;> simp only [textCount, Nat.le_add_right]
  · split <;> simp only [textCount, Nat.le_add_right]
  · simp only [textCount, listCount_append, listCount_cons, listCount_nil]
    omega

theorem textCount_foldl_le (c : Char) (reply : PushReply) (parts : List String) :
    textCount c (parts.foldl (PushReply.apply toLowercase) reply) ≤ textCount c reply + listCount c parts := by
  induction parts generalizing reply with
  | nil => exact Nat.le_refl _
  | cons part parts ih =>
    have hhead : textCount c (reply.apply toLowercase part) ≤ textCount c reply + part.toList.count c :=
      textCount_apply_le c reply part
    have htail := ih (reply.apply toLowercase part)
    rw [listCount_cons]
    exact htail.trans (by omega)

theorem textCount_applyAll_le (c : Char) (reply : PushReply) (directives : List String) :
    textCount c (applyAll toLowercase reply directives) ≤ textCount c reply + listCount c directives := by
  have htrim : listCount c (directives.map trim) ≤ listCount c directives := by
    induction directives with
    | nil => exact Nat.le_refl 0
    | cons directive directives ih =>
      rw [List.map_cons, listCount_cons, listCount_cons]
      exact Nat.add_le_add (count_trim_le directive c) ih
  have hfilter : listCount c ((directives.map trim).filter fun part => !part.isEmpty) ≤
      listCount c (directives.map trim) := sum_count_filter_le _ _ _
  rw [applyAll]
  exact (textCount_foldl_le c reply _).trans (Nat.add_le_add_left (hfilter.trans htrim) _)

theorem count_stripPrefix_le (s pattern : String) (c : Char) :
    ((stripPrefix s pattern).getD s).toList.count c ≤ s.toList.count c := by
  rw [stripPrefix]
  split
  · rw [Option.getD_some, String.toList_ofList]
    exact (List.drop_sublist _ _).count_le c
  · exact Nat.le_refl _

theorem textCount_parse_le (h : PushReply.parse toLowercase s = .ok reply) (c : Char) :
    textCount c reply ≤ s.toList.count c := by
  rw [parse_eq] at h
  obtain rfl := Except.ok.inj h
  have hdefault : textCount c {} = 0 := by
    simp [textCount, optionCount, listCount]
  have hall := (textCount_applyAll_le c {} (split ((stripPrefix s "PUSH_REPLY,").getD s) ',') :
    textCount c (applyAll toLowercase _ _) ≤ _)
  rw [hdefault, Nat.zero_add] at hall
  exact hall.trans ((sum_count_split_le _ ',' c).trans (count_stripPrefix_le s _ c))

end Parsed

section Written

theorem count_intercalate (separator : String) (h : c ∉ separator.toList) (texts : List String) :
    (String.intercalate separator texts).toList.count c = listCount c texts := by
  induction texts with
  | nil => rfl
  | cons s texts ih =>
    cases texts with
    | nil => rw [String.intercalate_singleton, listCount_cons, listCount_nil, Nat.add_zero]
    | cons next texts =>
      rw [String.intercalate_cons_cons, String.toList_append, String.toList_append, List.count_append,
        List.count_append, ih, List.count_eq_zero_of_not_mem h, Nat.add_zero, listCount_cons s]

theorem listCount_eq_zero {texts : List String} (h : ∀ s ∈ texts, c ∉ s.toList) : listCount c texts = 0 := by
  induction texts with
  | nil => rfl
  | cons s texts ih =>
    rw [listCount_cons, List.count_eq_zero_of_not_mem (h s List.mem_cons_self),
      ih fun t ht => h t (List.mem_cons_of_mem s ht)]

theorem count_route (h : ValidRoute route) : route.encode.toList.count 'T' = 0 := by
  have haddress : ∀ {s : String}, isIpv4Addr s = true → 'T' ∉ s.toList := by
    intro s hs hc
    rcases isIpv4Addr_chars hs _ hc with hdigit | hdot
    · cases hdigit
    · cases hdot
  rw [encode_route, count_intercalate " " (by decide)]
  apply listCount_eq_zero
  intro word hword
  simp only [routeWords, List.cons_append, List.nil_append, List.mem_cons, Option.mem_toList,
    Option.map_eq_some_iff] at hword
  rcases hword with rfl | rfl | rfl | rfl | ⟨n, -, rfl⟩
  · decide
  · exact haddress h.network
  · exact haddress h.netmask
  · cases hgw : route.gateway with
    | none => decide
    | some gw => exact haddress (h.gateway gw hgw)
  · intro hc
    have hdigit := isDigit_of_mem_toString hc
    cases hdigit

theorem count_number (keyword : String) (h : 'T' ∉ keyword.toList) (n : UInt32) :
    (keyword ++ toString n).toList.count 'T' = 0 := by
  apply List.count_eq_zero_of_not_mem
  rw [String.toList_append, List.mem_append]
  rintro (hc | hc)
  · exact h hc
  · have hdigit := isDigit_of_mem_toString hc
    cases hdigit

theorem listCount_written (keyword : String) (h : c ∉ keyword.toList) (texts : List String) :
    listCount c (texts.map fun s => keyword ++ s) = listCount c texts := by
  induction texts with
  | nil => rfl
  | cons s texts ih =>
    rw [List.map_cons, listCount_cons, ih, String.toList_append, List.count_append,
      List.count_eq_zero_of_not_mem h, Nat.zero_add, listCount_cons]

theorem listCount_optional (keyword : String) (h : c ∉ keyword.toList) (o : Option String) :
    listCount c (o.map fun s => keyword ++ s).toList = optionCount c o := by
  cases o with
  | none => rfl
  | some s => exact (listCount_written keyword h [s]).trans (Nat.add_zero _)

theorem listCount_ifconfig (ifconfig : Option (String × String)) :
    listCount 'T' (ifconfig.map fun p => s!"ifconfig {p.1} {p.2}").toList =
      optionCount 'T' (ifconfig.map Prod.fst) + optionCount 'T' (ifconfig.map Prod.snd) := by
  cases ifconfig with
  | none => rfl
  | some p =>
    have hcount : ("ifconfig " ++ p.1 ++ " " ++ p.2).toList.count 'T' =
        p.1.toList.count 'T' + p.2.toList.count 'T' := by
      simp [List.count_append]
    exact (Nat.add_zero _).trans hcount

theorem count_encode (h : Regular reply) : reply.encode.toList.count 'T' = textCount 'T' reply := by
  have htopology : (s!"topology {reply.topology.asStr}").toList.count 'T' = 0 := by
    cases reply.topology <;> decide
  have hipv6 : listCount 'T' (reply.ifconfigIpv6.map fun ipv6 => s!"ifconfig-ipv6 {ipv6}").toList =
      optionCount 'T' reply.ifconfigIpv6 := listCount_optional "ifconfig-ipv6 " (by decide) _
  have hroutes : listCount 'T' (reply.routes.map PushRoute.encode) = 0 := by
    apply listCount_eq_zero
    intro directive hdirective
    obtain ⟨route, hroute, rfl⟩ := List.mem_map.mp hdirective
    exact List.count_eq_zero.mp (count_route (h.routes route hroute))
  have hgateway : listCount 'T' (reply.routeGateway.map fun gw => s!"route-gateway {gw}").toList =
      optionCount 'T' reply.routeGateway := listCount_optional "route-gateway " (by decide) _
  have hredirect : listCount 'T' (if reply.redirectGateway then ["redirect-gateway def1"] else []) = 0 := by
    cases reply.redirectGateway <;> decide
  have hdns : listCount 'T' (reply.dns.map fun dns => s!"dhcp-option DNS {dns}") = listCount 'T' reply.dns :=
    listCount_written "dhcp-option DNS " (by decide) _
  have hsearch : listCount 'T' (reply.dnsSearch.map fun domain => s!"dhcp-option DOMAIN {domain}") =
      listCount 'T' reply.dnsSearch := listCount_written "dhcp-option DOMAIN " (by decide) _
  have hping : (s!"ping {reply.ping}").toList.count 'T' = 0 := count_number "ping " (by decide) _
  have hrestart : (s!"ping-restart {reply.pingRestart}").toList.count 'T' = 0 :=
    count_number "ping-restart " (by decide) _
  have hname : ("PUSH_REPLY,").toList.count 'T' = 0 := by decide
  rw [encode_eq, String.toList_append, List.count_append, hname, count_intercalate "," (by decide)]
  simp only [directives, listCount_append, listCount_cons, listCount_nil, htopology, listCount_ifconfig, hipv6,
    hroutes, hgateway, hredirect, hdns, hsearch, hping, hrestart, textCount]
  omega

end Written

end CoreVpn.Protocol.PushTexts
