import CoreVpn.Audit.Escaping
import CoreVpn.Lib.KeyValues

namespace CoreVpn.Audit.CefRecords

open Lib.Calendar Lib.Text Lib.Json Lib.Escapes Lib.KeyValues AuditEvents Formats Escaping

variable {config : FormatConfig} {event : AuditEvent}

section Reading

/-- The fields of the header and the entries of the extension, as a reader of the
format finds them. -/
def readCef (record : String) : Option (List String × List (String × String)) := do
  let (header, extension) ← takeFields '|' 7 record.toList
  return (header.map fun field => String.ofList (unescape cefTable field),
    (pieces extension).map fun piece =>
      (String.ofList (entry piece).1, String.ofList (unescape cefTable (entry piece).2)))

end Reading

section Fields

structure Field where
  key : String
  value : String
  escaped : Bool

def Field.text (field : Field) : String := if field.escaped then escapeCef field.value else field.value

def Field.print (field : Field) : String := pair field.key field.text

def actorFields (actor : AuditActor) : List Field :=
  (actor.name.map fun name => ⟨"suser", name, true⟩).toList ++
    (actor.sourceIp.map fun ip => ⟨"src", ip, false⟩).toList ++
    (actor.sessionId.map fun session => ⟨"sproc", session, true⟩).toList

def targetFields (target : AuditTarget) : List Field :=
  (target.id.map fun id => ⟨"duid", id, true⟩).toList ++
    (target.name.map fun name => ⟨"duser", name, true⟩).toList

def fields (event : AuditEvent) : List Field :=
  [⟨"rt", integer (timestampMillis clockStart event.timestamp), false⟩, ⟨"msg", event.message, true⟩,
    ⟨"outcome", event.outcome.debug, false⟩, ⟨"cat", event.category.asStr, false⟩] ++
    event.actor.elim [] actorFields ++ event.target.elim [] targetFields ++
    [⟨"dvchost", event.host, true⟩, ⟨"externalId", event.id, false⟩]

theorem cefExtensions_eq (event : AuditEvent) : cefExtensions event = (fields event).map Field.print := by
  have hactor : ∀ actor, cefActor actor = (actorFields actor).map Field.print := by
    intro actor
    unfold cefActor actorFields
    cases actor.name <;> cases actor.sourceIp <;> cases actor.sessionId <;> rfl
  have htarget : ∀ target, cefTarget target = (targetFields target).map Field.print := by
    intro target
    unfold cefTarget targetFields
    cases target.id <;> cases target.name <;> rfl
  rw [cefExtensions, fields, List.map_append, List.map_append, List.map_append]
  cases event.actor <;> cases event.target <;> simp only [Option.elim, hactor, htarget] <;> rfl

theorem forall_fields {P : Field → Prop} : (∀ field ∈ fields event, P field) ↔
    (P ⟨"rt", integer (timestampMillis clockStart event.timestamp), false⟩ ∧ P ⟨"msg", event.message, true⟩ ∧
      P ⟨"outcome", event.outcome.debug, false⟩ ∧ P ⟨"cat", event.category.asStr, false⟩) ∧
    (∀ actor ∈ event.actor, (∀ name ∈ actor.name, P ⟨"suser", name, true⟩) ∧
      (∀ ip ∈ actor.sourceIp, P ⟨"src", ip, false⟩) ∧ ∀ session ∈ actor.sessionId, P ⟨"sproc", session, true⟩) ∧
    (∀ target ∈ event.target, (∀ id ∈ target.id, P ⟨"duid", id, true⟩) ∧
      ∀ name ∈ target.name, P ⟨"duser", name, true⟩) ∧
    P ⟨"dvchost", event.host, true⟩ ∧ P ⟨"externalId", event.id, false⟩ := by
  have hoption : ∀ (value : Option String) (f : String → Field),
      (∀ field ∈ (value.map f).toList, P field) ↔ ∀ s ∈ value, P (f s) := by
    intro value f
    cases value <;> simp
  have hactor : (∀ field ∈ event.actor.elim [] actorFields, P field) ↔ ∀ actor ∈ event.actor,
      (∀ name ∈ actor.name, P ⟨"suser", name, true⟩) ∧ (∀ ip ∈ actor.sourceIp, P ⟨"src", ip, false⟩) ∧
        ∀ session ∈ actor.sessionId, P ⟨"sproc", session, true⟩ := by
    cases event.actor with
    | none => simp
    | some actor =>
      rw [Option.elim, actorFields, List.forall_mem_append, List.forall_mem_append, hoption, hoption, hoption,
        and_assoc]
      simp
  have htarget : (∀ field ∈ event.target.elim [] targetFields, P field) ↔ ∀ target ∈ event.target,
      (∀ id ∈ target.id, P ⟨"duid", id, true⟩) ∧ ∀ name ∈ target.name, P ⟨"duser", name, true⟩ := by
    cases event.target with
    | none => simp
    | some target =>
      rw [Option.elim, targetFields, List.forall_mem_append, hoption, hoption]
      simp
  rw [fields, List.forall_mem_append, List.forall_mem_append, List.forall_mem_append, hactor, htarget, and_assoc,
    and_assoc]
  simp

structure IsKey (key : List Char) : Prop where
  nonempty : key ≠ []
  alphanumeric : ∀ c ∈ key, c.isAlphanum = true

theorem IsKey.notMem {key : List Char} (h : IsKey key) : ' ' ∉ key ∧ '=' ∉ key := by
  constructor
  · intro hmem
    cases h.alphanumeric _ hmem
  · intro hmem
    cases h.alphanumeric _ hmem

theorem isKey_of_all {key : String} (h : (!key.isEmpty && key.toList.all Char.isAlphanum) = true) :
    IsKey key.toList := by
  rw [Bool.and_eq_true, List.all_eq_true] at h
  refine ⟨?_, h.2⟩
  intro hnil
  have hempty : key = "" := String.toList_injective hnil
  rw [hempty] at h
  exact absurd h.1 (by decide)

theorem isKey_of_mem (event : AuditEvent) : ∀ field ∈ fields event, IsKey field.key.toList := by
  rw [forall_fields]
  refine ⟨⟨?_, ?_, ?_, ?_⟩, fun actor _ => ⟨fun _ _ => ?_, fun _ _ => ?_, fun _ _ => ?_⟩,
    fun target _ => ⟨fun _ _ => ?_, fun _ _ => ?_⟩, ?_, ?_⟩ <;> exact isKey_of_all (by dsimp only; decide)

end Fields

section Forgery

/-- The text does not look like anything but a value: no space in it is followed
by a key, and no backslash by a code. -/
def Inert (s : String) : Prop := Single s.toList ∧ Plain cefTable s.toList

theorem endsKey_escape (s : List Char) : endsKey (escape cefTable s) = false := by
  induction s with
  | nil => rfl
  | cons c s ih =>
    rw [escape_cons]
    cases hlookup : cefTable.lookup c with
    | some d =>
      rw [escapeChar_of_some hlookup]
      rfl
    | none =>
      have hne : (c == '=') = false := by
        rw [beq_eq_false_iff_ne]
        rintro rfl
        cases hlookup
      rw [escapeChar_of_none hlookup, List.singleton_append, endsKey, ih, hne, Bool.and_false, Bool.or_false]

theorem startsKey_escape (s : List Char) : startsKey (escape cefTable s) = false := by
  cases s with
  | nil => rfl
  | cons c s =>
    rw [escape_cons]
    cases hlookup : cefTable.lookup c with
    | some d =>
      rw [escapeChar_of_some hlookup]
      rfl
    | none =>
      rw [escapeChar_of_none hlookup, List.singleton_append, startsKey, endsKey_escape, Bool.and_false]

theorem single_escape (s : List Char) : Single (escape cefTable s) := by
  induction s with
  | nil => exact single_of_length le_rfl
  | cons c s ih =>
    have hcons : ∀ c, Single (c :: escape cefTable s) := by
      intro c
      refine single_cons.mpr ⟨fun h => ?_, ih⟩
      rw [startsKey_escape] at h
      cases h.2
    rw [escape_cons]
    cases hlookup : cefTable.lookup c with
    | some d =>
      rw [escapeChar_of_some hlookup]
      exact single_cons.mpr ⟨fun h => absurd h.1 (by decide), hcons d⟩
    | none =>
      rw [escapeChar_of_none hlookup]
      exact hcons c

theorem text_read_iff (field : Field) :
    (Single field.text.toList ∧ unescape cefTable field.text.toList = field.value.toList) ↔
      (field.escaped = false → Inert field.value) := by
  rw [Field.text]
  cases field.escaped with
  | true =>
    rw [if_pos rfl, toList_escapeCef]
    exact iff_of_true ⟨single_escape _, unescape_escape invertible_cefTable _⟩ (by simp)
  | false =>
    rw [if_neg Bool.false_ne_true, unescape_eq_self_iff]
    exact ⟨fun h _ => h, fun h => h rfl⟩

theorem toList_print (field : Field) : field.print.toList = field.key.toList ++ '=' :: field.text.toList := by
  rw [Field.print, pair, String.toList_append, String.toList_append, List.append_assoc]
  rfl

theorem extension_read_iff (event : AuditEvent) :
    (pieces (String.intercalate " " (cefExtensions event)).toList).map
        (fun piece => (String.ofList (entry piece).1, String.ofList (unescape cefTable (entry piece).2))) =
      (fields event).map (fun field => (field.key, field.value)) ↔
    ∀ field ∈ fields event, field.escaped = false → Inert field.value := by
  have hkeys := isKey_of_mem event
  have htext : (String.intercalate " " (cefExtensions event)).toList =
      [' '].intercalate ((fields event).map fun field => field.key.toList ++ '=' :: field.text.toList) := by
    rw [cefExtensions_eq, String.toList_intercalate, List.map_map]
    exact congrArg _ (List.map_congr_left fun field _ => toList_print field)
  have hstarts : ∀ text ∈ (fields event).map (fun field => field.key.toList ++ '=' :: field.text.toList),
      startsKey text = true := by
    intro text hmem
    obtain ⟨field, hfield, rfl⟩ := List.mem_map.mp hmem
    exact startsKey_append (hkeys field hfield).nonempty (hkeys field hfield).alphanumeric _
  rw [htext, map_pieces_eq_iff (by simp [fields]) hstarts _ (by simp), List.map_map, List.map_eq_map_iff,
    List.forall_mem_map, ← forall₂_and]
  refine forall₂_congr fun field hfield => ?_
  obtain ⟨hspace, hequals⟩ := (hkeys field hfield).notMem
  have hwhole : field.key.toList ++ '=' :: field.text.toList = field.key.toList ++ ['='] ++ field.text.toList := by
    simp
  rw [← text_read_iff, Function.comp_apply, entry_append hequals, hwhole, single_append_iff (by simp [hspace])]
  refine and_congr_right fun _ => ?_
  rw [Prod.mk.injEq, String.ofList_toList, and_iff_right rfl, ← String.toList_inj, String.toList_ofList]

theorem inert_of_notMem {s : String} (hspace : ' ' ∉ s.toList) (hslash : '\\' ∉ s.toList) : Inert s :=
  ⟨fun _ hsuffix => absurd (hsuffix.subset List.mem_cons_self) hspace,
    fun _ _ hin => hslash (hin.subset List.mem_cons_self)⟩

/-- Only two values in the extension are neither escaped nor harmless in themselves. -/
theorem inert_iff (event : AuditEvent) : (∀ field ∈ fields event, field.escaped = false → Inert field.value) ↔
    (∀ ip ∈ event.actor.bind AuditActor.sourceIp, Inert ip) ∧ Inert event.id := by
  have hnumber : ∀ n, Inert (integer n) := by
    intro n
    refine inert_of_notMem (fun hmem => ?_) fun hmem => ?_
    · rcases mem_integer hmem with hdigit | hminus
      · cases hdigit
      · cases hminus
    · rcases mem_integer hmem with hdigit | hminus
      · cases hdigit
      · cases hminus
  have houtcome : ∀ outcome : AuditOutcome, Inert outcome.debug := by
    intro outcome
    cases outcome <;> exact inert_of_notMem (by decide) (by decide)
  have hcategory : ∀ category : AuditCategory, Inert category.asStr := by
    intro category
    cases category <;> exact inert_of_notMem (by decide) (by decide)
  have hip : (∀ actor ∈ event.actor, ∀ ip ∈ actor.sourceIp, Inert ip) ↔
      ∀ ip ∈ event.actor.bind AuditActor.sourceIp, Inert ip := by
    cases event.actor <;> simp
  rw [forall_fields, ← hip]
  simp [hnumber, houtcome, hcategory]

end Forgery

section Records

def header (config : FormatConfig) (event : AuditEvent) : List String :=
  ["CEF:0", escapeCef config.cefVendor, escapeCef config.cefProduct, escapeCef config.cefVersion,
    escapeCef (signatureId event), escapeCef event.action, toString event.severity.toCefSeverity.toNat]

theorem toList_joined (b c d e f g rest : String) :
    ("CEF:0|" ++ b ++ "|" ++ c ++ "|" ++ d ++ "|" ++ e ++ "|" ++ f ++ "|" ++ g ++ "|" ++ rest).toList =
      (["CEF:0", b, c, d, e, f, g].map String.toList).flatMap (· ++ ['|']) ++ rest.toList := by
  have hcef : "CEF:0|".toList = "CEF:0".toList ++ ['|'] := by decide
  have hbar : "|".toList = ['|'] := by decide
  simp only [String.toList_append, hcef, hbar, List.map_cons, List.map_nil, List.flatMap_cons, List.flatMap_nil,
    List.append_assoc, List.append_nil]

-- Stated over free texts first: with the encoder's own ones the literals are compared by unfolding them.
theorem toList_encodeCef (config : FormatConfig) (event : AuditEvent) : (encodeCef config event).toList =
    ((header config event).map String.toList).flatMap (· ++ ['|']) ++
      (String.intercalate " " (cefExtensions event)).toList :=
  toList_joined _ _ _ _ _ _ _

theorem closed_header (config : FormatConfig) (event : AuditEvent) :
    ∀ field ∈ (header config event).map String.toList, Closed '|' field := by
  have hescaped : ∀ s, Closed '|' (escapeCef s).toList := by
    intro s
    rw [toList_escapeCef]
    exact closed_escape (by decide) (by decide) (by decide) _
  have hnumber : ∀ severity : AuditSeverity, Closed '|' (toString severity.toCefSeverity.toNat).toList := by
    intro severity
    cases severity <;> exact closed_of_notMem (by decide) (by decide)
  have hcef : Closed '|' "CEF:0".toList := closed_of_notMem (by decide) (by decide)
  simp only [header, List.map_cons, List.map_nil, List.forall_mem_cons]
  exact ⟨hcef, hescaped _, hescaped _, hescaped _, hescaped _, hescaped _, hnumber _, List.forall_mem_nil _⟩

theorem unescape_header (config : FormatConfig) (event : AuditEvent) :
    ((header config event).map String.toList).map (fun field => String.ofList (unescape cefTable field)) =
      ["CEF:0", config.cefVendor, config.cefProduct, config.cefVersion, signatureId event, event.action,
        toString event.severity.toCefSeverity.toNat] := by
  have hescaped : ∀ s, String.ofList (unescape cefTable (escapeCef s).toList) = s :=
    leftInverse_restoreAll (by decide) invertible_cefTable
  have hnumber : ∀ severity : AuditSeverity,
      String.ofList (unescape cefTable (toString severity.toCefSeverity.toNat).toList) =
        toString severity.toCefSeverity.toNat := by
    intro severity
    cases severity <;> decide
  have hcef : String.ofList (unescape cefTable "CEF:0".toList) = "CEF:0" := by decide
  simp only [header, List.map_cons, List.map_nil, hescaped, hnumber, hcef]

/-- A reader of the format finds in a record what was written to it, if and only
if the two values that are not escaped look like nothing else. -/
theorem cef_unforged_iff (config : FormatConfig) (event : AuditEvent) :
    readCef (encodeCef config event) =
      some (["CEF:0", config.cefVendor, config.cefProduct, config.cefVersion, signatureId event, event.action,
          toString event.severity.toCefSeverity.toNat],
        (fields event).map fun field => (field.key, field.value)) ↔
    (∀ ip ∈ event.actor.bind AuditActor.sourceIp, Inert ip) ∧ Inert event.id := by
  have hsplit := takeFields_flatMap (closed_header config event)
    (String.intercalate " " (cefExtensions event)).toList
  have hcount : ((header config event).map String.toList).length = 7 := rfl
  rw [hcount] at hsplit
  rw [← inert_iff, ← extension_read_iff, readCef, toList_encodeCef, hsplit, ← unescape_header config event]
  simp

/-- An address with a key in it, which a reader takes for another field. -/
def forged : AuditEvent where
  id := "1"
  timestamp := 0
  category := .authentication
  action := "auth.failure"
  severity := .medium
  outcome := .failure
  message := "Authentication failed"
  actor := some { actorType := "user", name := some "eve", sourceIp := some "10.0.0.1 suser=admin" }
  host := "vpn"

/-- The forged name comes after the real one, and a reader finds both. -/
theorem cef_forged :
    readCef (encodeCef {} forged) ≠
      some (["CEF:0", "PegasusHeavy", "CoreVPN", "1.0", signatureId forged, "auth.failure", "5"],
        (fields forged).map fun field => (field.key, field.value)) := by
  decide +kernel

end Records

end CoreVpn.Audit.CefRecords
