import CoreVpn.Lib.Json
import CoreVpn.Lib.Lines

namespace CoreVpn.Auth.EmailDomains

open Lib.Text Lib.Lines

variable {s email : String} {separator : Char}

section Checks

def rsplitOnce (s : String) (separator : Char) : Option (String × String) :=
  match s.toList.rdropWhile (· != separator) with
  | [] => none
  | front => some (String.ofList front.dropLast, String.ofList (s.toList.rtakeWhile (· != separator)))

/-- The check of the provider, where `valid` is the syntax check for addresses. -/
def isDomainAllowed (valid : String → Bool) (toLowercase : String → String) (allowedDomains : List String)
    (email : String) : Bool :=
  if allowedDomains.isEmpty then true
  else if !valid email then false
  else match rsplitOnce email '@' with
    | some (_, domain) => allowedDomains.any fun d => toLowercase d == toLowercase domain
    | none => false

inductive Body where
  | html (text : String)
  | json (value : Lib.Json.Value)

structure Response where
  status : Nat
  body : Body

/-- What both handlers compare to the allowed domains. -/
def comparedDomain (email : String) : String := ((split email '@').getLast?).getD ""

def checkAllowedDomains (refusal : Response) (allowedDomains : List String) (email : String) : Except Response Unit :=
  if !allowedDomains.isEmpty then
    if !allowedDomains.any fun d => d == comparedDomain email then .error refusal else .ok ()
  else .ok ()

def oauthCallback : List String → String → Except Response Unit :=
  checkAllowedDomains ⟨403, .html ("<html><body><h1>Access Denied</h1><p>Your email domain is not authorized for " ++
    "VPN access.</p></body></html>")⟩

def oauthComplete : List String → String → Except Response Unit :=
  checkAllowedDomains ⟨403, .json (.object
    [("error", .string "Your email domain is not authorized for VPN access")])⟩

def emailDomain (email : Option String) : Option String := email.bind fun e => (split e '@')[1]?

end Checks

section Pieces

theorem getLast_splitOn (separator : Char) (chars : List Char) :
    (chars.splitOn separator).getLast (List.splitOn_ne_nil _ _) = chars.rtakeWhile (· != separator) := by
  induction chars using List.reverseRecOn with
  | nil => rfl
  | append_singleton chars c ih =>
    by_cases hc : c = separator
    · have hstop : ¬ (c != separator) = true := by simp [hc]
      rw [List.rtakeWhile_concat_neg (· != separator) chars c hstop]
      simp only [hc, List.splitOn_append_cons_self, List.splitOn_nil, List.getLast_append_singleton]
    · have hgo : (c != separator) = true := by simp [hc]
      rw [List.rtakeWhile_concat_pos (· != separator) chars c hgo, ← ih]
      simp only [splitOn_concat hc, List.getLast_append_singleton]

theorem comparedDomain_eq (email : String) : comparedDomain email = String.ofList (email.toList.rtakeWhile (· != '@')) := by
  rw [comparedDomain, split, List.getLast?_map, List.getLast?_eq_some_getLast (List.splitOn_ne_nil _ _),
    getLast_splitOn]
  rfl

theorem rsplitOnce_eq (h : '@' ∈ email.toList) :
    ∃ front, rsplitOnce email '@' = some (front, comparedDomain email) := by
  have hne : email.toList.rdropWhile (· != '@') ≠ [] := by
    rw [ne_eq, List.rdropWhile_eq_nil_iff]
    intro hall
    simpa using hall '@' h
  obtain ⟨c, rest, hcons⟩ := List.exists_cons_of_ne_nil hne
  refine ⟨String.ofList (c :: rest).dropLast, ?_⟩
  rw [rsplitOnce, hcons, comparedDomain_eq]

theorem exists_second_piece (h : '@' ∈ email.toList) : ∃ piece, (split email '@')[1]? = some piece := by
  obtain ⟨front, back, happend⟩ := List.append_of_mem h
  obtain ⟨first, others, hfront⟩ := List.exists_cons_of_ne_nil (List.splitOn_ne_nil '@' front)
  obtain ⟨last, more, hback⟩ := List.exists_cons_of_ne_nil (List.splitOn_ne_nil '@' back)
  rw [split, happend, List.splitOn_append_cons_self, hfront, hback]
  cases others with
  | nil => exact ⟨String.ofList last, rfl⟩
  | cons second others => exact ⟨String.ofList second, rfl⟩

end Pieces

section Agreement

variable {valid : String → Bool} {toLowercase : String → String} {allowedDomains : List String}

theorem checkAllowedDomains_eq_ok_iff (refusal : Response) :
    checkAllowedDomains refusal allowedDomains email = .ok () ↔
      allowedDomains = [] ∨ comparedDomain email ∈ allowedDomains := by
  have hany : (allowedDomains.any fun d => d == comparedDomain email) = true ↔ comparedDomain email ∈ allowedDomains := by
    simp
  rw [checkAllowedDomains]
  cases allowedDomains with
  | nil => simp
  | cons d ds =>
    rw [← hany]
    cases (d :: ds).any fun d => d == comparedDomain email <;> simp

theorem isDomainAllowed_iff (hvalid : valid email = true) (hat : '@' ∈ email.toList) :
    isDomainAllowed valid toLowercase allowedDomains email = true ↔
      allowedDomains = [] ∨ ∃ d ∈ allowedDomains, toLowercase d = toLowercase (comparedDomain email) := by
  obtain ⟨front, hsplit⟩ := rsplitOnce_eq hat
  rw [isDomainAllowed, hsplit, hvalid]
  cases allowedDomains with
  | nil => simp
  | cons d ds => simp

/-- The handlers decide as the provider does, and the domain of the user is the
one that is compared, up to letter case. -/
structure SameDomains (valid : String → Bool) (toLowercase : String → String) (allowedDomains : List String)
    (email : String) : Prop where
  callback : oauthCallback allowedDomains email = .ok () ↔
    isDomainAllowed valid toLowercase allowedDomains email = true
  complete : oauthComplete allowedDomains email = .ok () ↔
    isDomainAllowed valid toLowercase allowedDomains email = true
  userInfo : ∃ domain, emailDomain (some email) = some domain ∧
    toLowercase domain = toLowercase (comparedDomain email)

/-- A domain that is allowed up to letter case is on the list as it is written. -/
def ListedAsWritten (toLowercase : String → String) (allowedDomains : List String) (domain : String) : Prop :=
  (∃ d ∈ allowedDomains, toLowercase d = toLowercase domain) → domain ∈ allowedDomains

def PiecesAlike (toLowercase : String → String) (email : String) : Prop :=
  (split email '@')[1]?.map toLowercase = (split email '@').getLast?.map toLowercase

/-- The domain checks agree on an address if and only if its domain is listed as
it is written and is the piece behind the first separator too. -/
theorem domain_checks_agree_iff (valid : String → Bool) (toLowercase : String → String)
    (hat : ∀ email, valid email = true → '@' ∈ email.toList) (allowedDomains : List String) (email : String)
    (hvalid : valid email = true) :
    SameDomains valid toLowercase allowedDomains email ↔
      ListedAsWritten toLowercase allowedDomains (comparedDomain email) ∧ PiecesAlike toLowercase email := by
  have hallowed : isDomainAllowed valid toLowercase allowedDomains email = true ↔
      allowedDomains = [] ∨ ∃ d ∈ allowedDomains, toLowercase d = toLowercase (comparedDomain email) :=
    isDomainAllowed_iff hvalid (hat email hvalid)
  have hdecide : (allowedDomains = [] ∨ comparedDomain email ∈ allowedDomains ↔
      allowedDomains = [] ∨ ∃ d ∈ allowedDomains, toLowercase d = toLowercase (comparedDomain email)) ↔
        ListedAsWritten toLowercase allowedDomains (comparedDomain email) := by
    constructor
    · intro hsame hlisted
      obtain hnil | hmem := hsame.mpr (.inr hlisted)
      · obtain ⟨d, hd, -⟩ := hlisted
        rw [hnil] at hd
        cases hd
      · exact hmem
    · intro hlisted
      exact or_congr_right ⟨fun hmem => ⟨_, hmem, rfl⟩, hlisted⟩
  have hpieces : (∃ domain, emailDomain (some email) = some domain ∧
      toLowercase domain = toLowercase (comparedDomain email)) ↔ PiecesAlike toLowercase email := by
    obtain ⟨piece, hpiece⟩ := exists_second_piece (hat email hvalid)
    have hlast : (split email '@').getLast? = some (comparedDomain email) := by
      rw [comparedDomain, List.getLast?_eq_some_getLast (split_ne_nil email '@')]
      rfl
    have hdomain : emailDomain (some email) = some piece := hpiece
    rw [PiecesAlike, hpiece, hlast, hdomain, Option.map_some, Option.map_some]
    simp
  constructor
  · intro hsame
    have hcallback := hsame.callback
    rw [oauthCallback, checkAllowedDomains_eq_ok_iff, hallowed] at hcallback
    exact ⟨hdecide.mp hcallback, hpieces.mp hsame.userInfo⟩
  · rintro ⟨hlisted, halike⟩
    have hboth := hdecide.mpr hlisted
    exact ⟨by rw [oauthCallback, checkAllowedDomains_eq_ok_iff, hallowed, hboth],
      by rw [oauthComplete, checkAllowedDomains_eq_ok_iff, hallowed, hboth], hpieces.mpr halike⟩

theorem domain_checks_of_plain_address :
    SameDomains (fun email => email.toList.contains '@') (fun s => String.ofList (s.toList.map Char.toLower))
      ["example.com"] "alice@example.com" :=
  (domain_checks_agree_iff _ _ (fun _ hvalid => List.contains_iff_mem.mp hvalid) ["example.com"] "alice@example.com"
    (by decide)).mpr ⟨fun _ => by decide +kernel, by rw [PiecesAlike]; decide +kernel⟩

/-- A capital in the address is enough for the handlers to refuse it. -/
theorem domain_checks_differ :
    ¬ SameDomains (fun email => email.toList.contains '@') (fun s => String.ofList (s.toList.map Char.toLower))
      ["example.com"] "alice@Example.com" := by
  intro hsame
  have hcompared : comparedDomain "alice@Example.com" = "Example.com" := by decide +kernel
  have hallowed : isDomainAllowed (fun email => email.toList.contains '@')
      (fun s => String.ofList (s.toList.map Char.toLower)) ["example.com"] "alice@Example.com" = true := by
    decide +kernel
  have haccepts := hsame.callback.mpr hallowed
  rw [oauthCallback, checkAllowedDomains_eq_ok_iff, hcompared] at haccepts
  revert haccepts
  decide

end Agreement

end CoreVpn.Auth.EmailDomains
