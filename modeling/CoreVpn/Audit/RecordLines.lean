import CoreVpn.Audit.Backups
import CoreVpn.Audit.CefRecords
import CoreVpn.Lib.LineRecords

namespace CoreVpn.Audit.RecordLines

open Lib.Calendar Lib.Computation Lib.Wire Lib.Text Lib.Json Lib.Escapes Lib.Rotation Lib.Machine Lib.LineRecords
open AuditEvents Formats FileSinks Backups Escaping

section Encoders

variable {config : FormatConfig} {event : AuditEvent}

/-- No break stands in what is put before the message. The name of the actor is
escaped there, but not against breaks. -/
structure PlainHeader (config : FormatConfig) (event : AuditEvent) : Prop where
  host : Unbroken event.host.toList
  appName : Unbroken config.syslogAppName.toList
  action : Unbroken event.action.toList
  id : Unbroken event.id.toList
  actor : ∀ actor ∈ event.actor, Unbroken actor.actorType.toList ∧ (∀ name ∈ actor.name, Unbroken name.toList) ∧
    ∀ ip ∈ actor.sourceIp, Unbroken ip.toList

/-- An event brings the break at the end of its line itself, unless it is written as
JSON by lines, and brings no other. -/
def Terminated (config : FormatConfig) (event : AuditEvent) : Prop :=
  match config.format with
  | .json | .jsonLines => True
  | .cef => (∀ ip ∈ event.actor.bind AuditActor.sourceIp, Unbroken ip.toList) ∧ EndsOnce event.id.toList
  | .syslog => PlainHeader config event ∧ EndsOnce event.message.toList
  | .leef | .cloudWatch | .azureMonitor | .ocsf => False

theorem unbroken_print (v : Value) : Unbroken (print v).toList := by
  rw [print, String.toList_ofList]
  exact unbroken_of_le (le_of_mem_chars v)

theorem not_endsOnce_print (fields : List (String × Value)) : ¬ EndsOnce (print (.object fields)).toList :=
  fun h => (unbroken_print _).1 h.mem

theorem unbroken_string_append (s t : String) :
    Unbroken (s ++ t).toList ↔ Unbroken s.toList ∧ Unbroken t.toList := by
  rw [String.toList_append, unbroken_append]

theorem unbroken_pair {key : String} (hkey : Unbroken key.toList) (value : String) :
    Unbroken (pair key value).toList ↔ Unbroken value.toList := by
  have hequals : Unbroken "=".toList := by decide
  rw [pair, unbroken_string_append, unbroken_string_append, and_iff_right ⟨hkey, hequals⟩]

theorem unbroken_integer (n : Int) : Unbroken (integer n).toList := by
  refine unbroken_of_le fun c hc => ?_
  obtain hdigit | rfl := mem_integer hc
  · exact le_trans (by decide) (Char.isDigit_iff_toNat.mp hdigit).1
  · decide

theorem unbroken_toString (n : Nat) : Unbroken (toString n).toList := unbroken_integer (n : Int)

theorem unbroken_outcome (outcome : AuditOutcome) : Unbroken outcome.debug.toList := by
  cases outcome <;> decide

theorem unbroken_category (category : AuditCategory) : Unbroken category.asStr.toList := by
  cases category <;> decide

theorem endsOnce_pair {key : String} (hkey : Unbroken key.toList) (value : String) :
    EndsOnce (pair key value).toList ↔ EndsOnce value.toList := by
  have htext : (pair key value).toList = key.toList ++ '=' :: value.toList := by
    rw [pair, String.toList_append, String.toList_append, List.append_assoc]
    rfl
  rw [htext, endsOnce_append (List.cons_ne_nil _ _), endsOnce_cons (by decide), and_iff_right hkey,
    and_iff_right (by decide)]

theorem pair_ne_nil (key value : String) : (pair key value).toList ≠ [] := by
  rw [pair, String.toList_append, String.toList_append]
  simp

section Cef

theorem unbroken_cefActor (actor : AuditActor) :
    (∀ text ∈ cefActor actor, Unbroken text.toList) ↔ ∀ ip ∈ actor.sourceIp, Unbroken ip.toList := by
  have hname : ∀ name, Unbroken (pair "suser" (escapeCef name)).toList := fun name =>
    (unbroken_pair (by decide) _).mpr (unbroken_escapeCef name)
  have hsession : ∀ session, Unbroken (pair "sproc" (escapeCef session)).toList := fun session =>
    (unbroken_pair (by decide) _).mpr (unbroken_escapeCef session)
  have hip : ∀ ip, Unbroken (pair "src" ip).toList ↔ Unbroken ip.toList := unbroken_pair (by decide)
  unfold cefActor
  cases actor.name <;> cases actor.sourceIp <;> cases actor.sessionId <;> simp [hname, hsession, hip]

theorem unbroken_cefTarget (target : AuditTarget) : ∀ text ∈ cefTarget target, Unbroken text.toList := by
  have hid : ∀ id, Unbroken (pair "duid" (escapeCef id)).toList := fun id =>
    (unbroken_pair (by decide) _).mpr (unbroken_escapeCef id)
  have hname : ∀ name, Unbroken (pair "duser" (escapeCef name)).toList := fun name =>
    (unbroken_pair (by decide) _).mpr (unbroken_escapeCef name)
  unfold cefTarget
  cases target.id <;> cases target.name <;> simp [hid, hname]

def cefFront (event : AuditEvent) : List String :=
  [pair "rt" (integer (timestampMillis clockStart event.timestamp)), pair "msg" (escapeCef event.message),
    pair "outcome" event.outcome.debug, pair "cat" event.category.asStr] ++
    event.actor.elim [] cefActor ++ event.target.elim [] cefTarget ++ [pair "dvchost" (escapeCef event.host)]

theorem cefExtensions_eq_front (event : AuditEvent) :
    cefExtensions event = cefFront event ++ [pair "externalId" event.id] := by
  rw [cefExtensions, cefFront, List.append_assoc _ [_] [_]]
  rfl

theorem unbroken_cefFront (event : AuditEvent) : (∀ text ∈ cefFront event, Unbroken text.toList) ↔
    ∀ ip ∈ event.actor.bind AuditActor.sourceIp, Unbroken ip.toList := by
  have hactor : (∀ text ∈ event.actor.elim [] cefActor, Unbroken text.toList) ↔
      ∀ ip ∈ event.actor.bind AuditActor.sourceIp, Unbroken ip.toList := by
    cases event.actor with
    | none => simp
    | some actor => exact unbroken_cefActor actor
  have htarget : ∀ text ∈ event.target.elim [] cefTarget, Unbroken text.toList := by
    cases event.target with
    | none => exact List.forall_mem_nil _
    | some target => exact unbroken_cefTarget target
  rw [cefFront, List.forall_mem_append, List.forall_mem_append, List.forall_mem_append, hactor,
    and_iff_left (by simpa using (unbroken_pair (by decide) _).mpr (unbroken_escapeCef _)), and_iff_left htarget]
  refine and_iff_right ?_
  simp only [List.forall_mem_cons]
  exact ⟨(unbroken_pair (by decide) _).mpr (unbroken_integer _),
    (unbroken_pair (by decide) _).mpr (unbroken_escapeCef _), (unbroken_pair (by decide) _).mpr (unbroken_outcome _),
    (unbroken_pair (by decide) _).mpr (unbroken_category _), List.forall_mem_nil _⟩

theorem unbroken_header (config : FormatConfig) (event : AuditEvent) :
    Unbroken (((CefRecords.header config event).map String.toList).flatMap (· ++ ['|'])) := by
  have hbar : Unbroken ['|'] := by decide
  have hcef : Unbroken "CEF:0".toList := by decide
  simp only [CefRecords.header, List.map_cons, List.map_nil, List.flatMap_cons, List.flatMap_nil, unbroken_append,
    unbroken_escapeCef, unbroken_toString, unbroken_nil, hbar, hcef, and_self]

theorem endsOnce_encodeCef (config : FormatConfig) (event : AuditEvent) :
    EndsOnce (encodeCef config event).toList ↔
      (∀ ip ∈ event.actor.bind AuditActor.sourceIp, Unbroken ip.toList) ∧ EndsOnce event.id.toList := by
  have hlast : (pair "externalId" event.id).toList ≠ [] := pair_ne_nil _ _
  have hextension : (String.intercalate " " (cefExtensions event)).toList =
      [' '].intercalate ((cefFront event).map String.toList ++ [(pair "externalId" event.id).toList]) := by
    rw [cefExtensions_eq_front, String.toList_intercalate, List.map_append, List.map_singleton]
    rfl
  rw [CefRecords.toList_encodeCef, hextension, endsOnce_append (intercalate_concat_ne_nil hlast _),
    and_iff_right (unbroken_header config event), endsOnce_intercalate (by decide) hlast, List.forall_mem_map,
    unbroken_cefFront, endsOnce_pair (by decide)]

end Cef

theorem not_endsOnce_encodeLeef (config : FormatConfig) (event : AuditEvent) :
    ¬ EndsOnce (encodeLeef config event).toList := by
  have hlast : (pair "identHostName" (escapeLeef event.host)).toList ≠ [] := pair_ne_nil _ _
  -- The equation of a definition that is a long text is slow to derive.
  delta encodeLeef
  rw [String.toList_append, leefExtensions, String.toList_intercalate, List.map_append, List.map_singleton]
  intro h
  obtain ⟨-, htab⟩ := (endsOnce_append (intercalate_concat_ne_nil hlast _)).mp h
  obtain ⟨-, hhost⟩ := (endsOnce_intercalate (by decide) hlast _).mp htab
  exact (unbroken_escapeLeef event.host).1 ((endsOnce_pair (by decide) _).mp hhost).mem

section Syslog

theorem unbroken_parameter {key : String} (hkey : Unbroken key.toList) (value : String) :
    Unbroken (parameter key value).toList ↔ Unbroken value.toList := by
  have hopen : Unbroken "=\"".toList := by decide
  have hclose : Unbroken "\"".toList := by decide
  rw [parameter, unbroken_string_append, unbroken_string_append, unbroken_string_append, and_iff_left hclose,
    and_iff_right ⟨hkey, hopen⟩]

theorem unbroken_syslogActor (actor : AuditActor) : Unbroken (syslogActor actor).toList ↔
    Unbroken actor.actorType.toList ∧ (∀ name ∈ actor.name, Unbroken name.toList) ∧
      ∀ ip ∈ actor.sourceIp, Unbroken ip.toList := by
  have hoption : ∀ (value : Option String) (f : String → String),
      Unbroken (value.elim "" f).toList ↔ ∀ s ∈ value, Unbroken (f s).toList := by
    intro value f
    cases value with
    | none => simpa using unbroken_nil
    | some s => simp
  have hspace : Unbroken " ".toList := by decide
  have hopen : Unbroken "[actor@32473 ".toList := by decide
  have hclose : Unbroken "]".toList := by decide
  have htype : Unbroken "type".toList := by decide
  have hname : Unbroken "name".toList := by decide
  have hip : Unbroken "sourceIp".toList := by decide
  delta syslogActor
  simp only [unbroken_string_append, hoption, unbroken_parameter htype, unbroken_parameter hname,
    unbroken_parameter hip, unbroken_escapeSyslogSd, hspace, hopen, hclose, true_and, and_true, and_assoc]

theorem unbroken_structuredData (event : AuditEvent) : Unbroken (structuredData event).toList ↔
    Unbroken event.id.toList ∧ ∀ actor ∈ event.actor, Unbroken actor.actorType.toList ∧
      (∀ name ∈ actor.name, Unbroken name.toList) ∧ ∀ ip ∈ actor.sourceIp, Unbroken ip.toList := by
  have hactor : Unbroken (event.actor.elim "" syslogActor).toList ↔ ∀ actor ∈ event.actor,
      Unbroken actor.actorType.toList ∧ (∀ name ∈ actor.name, Unbroken name.toList) ∧
        ∀ ip ∈ actor.sourceIp, Unbroken ip.toList := by
    cases event.actor with
    | none => simpa using unbroken_nil
    | some actor => simpa using unbroken_syslogActor actor
  have hspace : Unbroken " ".toList := by decide
  have hopen : Unbroken "[corevpn@32473 ".toList := by decide
  have hclose : Unbroken "]".toList := by decide
  have hid : Unbroken "eventId".toList := by decide
  have houtcome : Unbroken "outcome".toList := by decide
  have hcategory : Unbroken "category".toList := by decide
  delta structuredData
  simp only [unbroken_string_append, hactor, unbroken_parameter hid, unbroken_parameter houtcome,
    unbroken_parameter hcategory, unbroken_outcome, unbroken_category, hspace, hopen, hclose, true_and, and_true]

theorem unbroken_syslogHeader (config : FormatConfig) (event : AuditEvent) :
    Unbroken (syslogHeader config event).toList ↔ PlainHeader config event := by
  have hless : Unbroken "<".toList := by decide
  have hversion : Unbroken ">1 ".toList := by decide
  have hspace : Unbroken " ".toList := by decide
  have hprocess : Unbroken " - ".toList := by decide
  have hdot : Unbroken ".".toList := by decide
  have htime : Unbroken (toRfc3339Opts clockStart 6 event.timestamp).toList :=
    unbroken_of_le (le_of_mem_toRfc3339Opts _ _ _)
  delta syslogHeader signatureId
  simp only [unbroken_string_append, unbroken_toString, unbroken_category,
    unbroken_structuredData, hless, hversion, hspace, hprocess, hdot, htime, true_and, and_true]
  constructor
  · rintro ⟨⟨⟨hhost, happ⟩, haction⟩, hid, hactor⟩
    exact ⟨hhost, happ, haction, hid, hactor⟩
  · rintro ⟨hhost, happ, haction, hid, hactor⟩
    exact ⟨⟨⟨hhost, happ⟩, haction⟩, hid, hactor⟩

theorem endsOnce_encodeSyslog (config : FormatConfig) (event : AuditEvent) :
    EndsOnce (encodeSyslog config event).toList ↔ PlainHeader config event ∧ EndsOnce event.message.toList := by
  rw [encodeSyslog, String.toList_append]
  by_cases hmessage : event.message.toList = []
  · have hspace : " ".toList = [' '] := by decide
    rw [hmessage, List.append_nil]
    delta syslogHeader
    rw [String.toList_append, hspace]
    exact iff_of_false (fun h => absurd (endsOnce_concat.mp h).2 (by decide)) fun h => not_endsOnce_nil h.2
  · rw [endsOnce_append hmessage, unbroken_syslogHeader]

end Syslog

/-- The record that a file gets for an event is a line, if and only if the event
brings the break that its format needs. -/
theorem endsOnce_record_iff (config : FormatConfig) (event : AuditEvent) (toStringPretty : Value → String) :
    (∃ record, encode (fileFormat config) event toStringPretty = .ok record ∧ EndsOnce record.toList) ↔
      Terminated config event := by
  have hok : ∀ record : String, (∃ other, (.ok record : Except AuditError String) = .ok other ∧
      EndsOnce other.toList) ↔ EndsOnce record.toList := by
    intro record
    simp
  have hjson : EndsOnce (encodeJsonLines event).toList := by
    rw [encodeJsonLines, String.toList_append]
    exact endsOnce_concat.mpr ⟨unbroken_print _, rfl⟩
  obtain ⟨format, pretty, vendor, product, version, facility, appName⟩ := config
  cases format with
  | json => exact (hok _).trans (iff_of_true hjson trivial)
  | jsonLines => exact (hok _).trans (iff_of_true hjson trivial)
  | cef => exact (hok _).trans (endsOnce_encodeCef _ event)
  | leef => exact (hok _).trans (iff_of_false (not_endsOnce_encodeLeef _ event) not_false)
  | syslog => exact (hok _).trans (endsOnce_encodeSyslog _ event)
  | cloudWatch => exact (hok _).trans (iff_of_false (not_endsOnce_print _) not_false)
  | azureMonitor => exact (hok _).trans (iff_of_false (not_endsOnce_print _) not_false)
  | ocsf => exact (hok _).trans (iff_of_false (not_endsOnce_print _) not_false)

end Encoders

section Sinks

variable {E ε : Type} {c : FileConfig} {path : String} {s : FileSink} {lines : List String}

def surroundings : Call E → Surroundings
  | .send now _ => now
  | .flush now => now

def sent : List (Call E) → List E
  | [] => []
  | .send _ event :: calls => event :: sent calls
  | .flush _ :: calls => sent calls

def records (encode : E → Except ε String) (calls : List (Call E)) : List String :=
  (sent calls).filterMap fun event => (encode event).toOption

/-- The sink writes to one path, and has at least one backup whatever is configured. -/
def located (c : FileConfig) (path : String) : FileConfig := { c with path, maxFiles := max 1 c.maxFiles }

def extended (rotated : Bool) (lines : List String) : List (List String) → List (List String)
  | [] => [lines]
  | current :: older => if rotated then lines :: current :: older else (current ++ lines) :: older

theorem map_extended (rotated : Bool) (lines : List String) (chain : List (List String)) :
    (extended rotated lines chain).map text =
      (begun rotated (chain.map text)).modifyHead (· ++ text lines) := by
  cases chain with
  | nil => simp [extended, begun]
  | cons current older => cases rotated <;> simp [extended, begun, text]

theorem flatten_extended (rotated : Bool) (lines : List String) (chain : List (List String)) :
    (extended rotated lines chain).reverse.flatten = chain.reverse.flatten ++ lines := by
  cases chain with
  | nil => simp [extended]
  | cons current older => cases rotated <;> simp [extended]

/-- The lines are in the files, each of them whole, and in the buffer. -/
def Kept (c : FileConfig) (path : String) (s : FileSink) (lines : List String) : Prop :=
  ∃ chain : List (List String), Holds (located c path) s (chain.map text) ∧ chain.reverse.flatten ++ s.buffer = lines

theorem Kept.push (h : Kept c path s lines) (line : String) :
    Kept c path { s with buffer := s.buffer ++ [line] } (lines ++ [line]) := by
  obtain ⟨chain, hholds, hlines⟩ := h
  refine ⟨chain, ⟨hholds.path, hholds.isOpen, hholds.files⟩, ?_⟩
  rw [← hlines, List.append_assoc]

theorem Kept.drain (h : Kept c path s lines) {now : Surroundings} (hpath : resolvePath now c.path = path) :
    Kept c path (writeLines c now s.buffer { s with buffer := [] }) lines := by
  obtain ⟨chain, hholds, hlines⟩ := h
  have hemptied : Holds (located c path) { s with buffer := [] } (chain.map text) :=
    ⟨hholds.path, hholds.isOpen, hholds.files⟩
  by_cases hbuffer : s.buffer = []
  · rw [hbuffer] at hlines ⊢
    exact ⟨chain, hemptied, hlines⟩
  · have hrotate : rotate (located c path) { s with buffer := [] } = rotate c { s with buffer := [] } := by
      have hcount : max 1 c.maxFiles - 1 = c.maxFiles - 1 := by omega
      simp only [rotate, located, hcount]
    have hready := hemptied.ready (le_max_left 1 c.maxFiles)
    rw [hrotate] at hready
    have hwritten := hready.foldl_writeLine (begun_ne_nil _ _) s.buffer
    rw [← map_extended] at hwritten
    refine ⟨extended (checkRotation c s) s.buffer chain, ?_, ?_⟩
    · rw [writeLines_eq (s := { s with buffer := [] }) (hpath.trans hholds.path.symm) hbuffer]
      exact hwritten
    · rw [writeLines_buffer, flatten_extended, ← hlines]
      exact List.append_nil _

theorem Kept.step (h : Kept c path s lines) (encode : E → Except ε String) {call : Call E}
    (hpath : resolvePath (surroundings call) c.path = path) :
    Kept c path (step c encode s call).2 (lines ++ records encode [call]) := by
  cases call with
  | send now event =>
    cases hencode : encode event with
    | error e => simpa [FileSinks.step, send, records, sent, hencode, Except.toOption] using h
    | ok line =>
      have hrecords : records encode [.send now event] = [line] := by simp [records, sent, hencode, Except.toOption]
      have hpushed := h.push line
      rw [FileSinks.step, send_of_ok hencode, hrecords]
      dsimp only
      split
      · exact hpushed.drain hpath
      · exact hpushed
  | flush now =>
    have hdrained : Kept c path (writeLines c now s.buffer { s with buffer := [] }) lines := h.drain hpath
    simpa [FileSinks.step, flush, records, sent] using hdrained

theorem records_cons (encode : E → Except ε String) (call : Call E) (calls : List (Call E)) :
    records encode (call :: calls) = records encode [call] ++ records encode calls := by
  cases call with
  | send now event => exact List.filterMap_append (l := [event])
  | flush now => rfl

theorem Kept.exec (h : Kept c path s lines) (encode : E → Except ε String) {calls : List (Call E)}
    (hpath : ∀ call ∈ calls, resolvePath (surroundings call) c.path = path) :
    Kept c path (exec (FileSinks.step c encode) s calls) (lines ++ records encode calls) := by
  induction calls generalizing s lines with
  | nil => simpa [records, sent] using h
  | cons call calls ih =>
    rw [List.forall_mem_cons] at hpath
    have hrest := ih (h.step encode hpath.1) hpath.2
    rwa [List.append_assoc, ← records_cons] at hrest

theorem kept_new {now : Surroundings} (hpath : resolvePath now c.path = path) {files : Files String Bytes}
    (hfresh : ∀ i, files (name path i) = none) : Kept c path (FileSink.new c now files) [] :=
  ⟨[], ⟨hpath, rfl, hfresh⟩, rfl⟩

/-- The files, from the oldest to the newest, hold one line for each event in order:
the record of the event, up to the break at its end. Only the newest files are kept. -/
def OneLinePerEvent (encode : E → Except ε String) (events : List E) (path : String) (kept : Nat)
    (files : Files String Bytes) : Prop :=
  ∃ chain : List (List String), (∀ line ∈ chain.reverse.flatten, Unbroken line.toList) ∧
    chain.reverse.flatten.map (fun line => .ok (line ++ "\n")) = events.map encode ∧
    Numbered (name path) files ((chain.map fun lines => text (lines.map (· ++ "\n"))).take (kept + 1))

theorem OneLinePerEvent.endsOnce {encode : E → Except ε String} {events : List E} {kept : Nat}
    {files : Files String Bytes} (h : OneLinePerEvent encode events path kept files) :
    ∀ event ∈ events, ∃ record, encode event = .ok record ∧ EndsOnce record.toList := by
  obtain ⟨chain, hunbroken, hlines, -⟩ := h
  intro event hevent
  have hmem := List.mem_map_of_mem (f := encode) hevent
  rw [← hlines] at hmem
  obtain ⟨line, hline, hrecord⟩ := List.mem_map.mp hmem
  refine ⟨line ++ "\n", hrecord.symm, line.toList, hunbroken line hline, ?_⟩
  rw [String.toList_append]
  rfl

def lineOf (record : String) : String := String.ofList record.toList.dropLast

theorem lineOf_append {record : String} (h : EndsOnce record.toList) :
    lineOf record ++ "\n" = record ∧ Unbroken (lineOf record).toList := by
  obtain ⟨line, hline, heq⟩ := h
  have hbreak : "\n".toList = ['\n'] := by decide
  rw [lineOf, String.toList_ofList, heq, List.dropLast_concat]
  refine ⟨?_, hline⟩
  rw [← String.toList_inj, String.toList_append, String.toList_ofList, hbreak, heq]

theorem map_records {encode : E → Except ε String} {calls : List (Call E)}
    (h : ∀ event ∈ sent calls, ∃ record, encode event = .ok record ∧ EndsOnce record.toList) :
    (records encode calls).map .ok = (sent calls).map encode ∧
      ∀ record ∈ records encode calls, EndsOnce record.toList := by
  unfold records
  generalize sent calls = events at h ⊢
  induction events with
  | nil => exact ⟨rfl, List.forall_mem_nil _⟩
  | cons event events ih =>
    rw [List.forall_mem_cons] at h
    obtain ⟨⟨record, hrecord, hends⟩, hrest⟩ := h
    obtain ⟨hmap, hall⟩ := ih hrest
    have hcons : (event :: events).filterMap (fun event => (encode event).toOption) =
        record :: events.filterMap fun event => (encode event).toOption :=
      List.filterMap_cons_some (by rw [hrecord]; rfl)
    rw [hcons, List.map_cons, List.map_cons, hmap, hrecord, List.forall_mem_cons]
    exact ⟨rfl, hends, hall⟩

theorem Kept.oneLinePerEvent {encode : E → Except ε String} {calls : List (Call E)}
    (h : Kept c path s (records encode calls)) (hbuffer : s.buffer = [])
    (hends : ∀ event ∈ sent calls, ∃ record, encode event = .ok record ∧ EndsOnce record.toList) :
    OneLinePerEvent encode (sent calls) path (max 1 c.maxFiles) s.files := by
  obtain ⟨chain, hholds, hrecords⟩ := h
  obtain ⟨hmap, hall⟩ := map_records hends
  rw [hbuffer, List.append_nil] at hrecords
  rw [← hrecords] at hmap hall
  have hlines : (chain.map (List.map lineOf)).reverse.flatten = chain.reverse.flatten.map lineOf := by
    rw [List.map_flatten, List.map_reverse]
  have hback : ∀ lines ∈ chain, (lines.map lineOf).map (· ++ "\n") = lines := by
    intro lines hmem
    have hrecord : ∀ record ∈ lines, lineOf record ++ "\n" = record := fun record hrecord =>
      (lineOf_append (hall record (List.mem_flatten.mpr ⟨lines, List.mem_reverse.mpr hmem, hrecord⟩))).1
    rw [List.map_map]
    exact (List.map_congr_left hrecord).trans (List.map_id lines)
  refine ⟨chain.map (List.map lineOf), ?_, ?_, ?_⟩
  · rw [hlines, List.forall_mem_map]
    exact fun record hrecord => (lineOf_append (hall record hrecord)).2
  · rw [hlines, List.map_map, ← hmap]
    exact List.map_congr_left fun record hrecord => congrArg Except.ok (lineOf_append (hall record hrecord)).1
  · have hfiles := hholds.files
    have htexts : (chain.map (List.map lineOf)).map (fun lines => text (lines.map (· ++ "\n"))) = chain.map text := by
      rw [List.map_map]
      exact List.map_congr_left fun lines hmem => congrArg text (hback lines hmem)
    rw [htexts]
    exact hfiles

theorem oneLinePerEvent_iff (c : FileConfig) (encode : E → Except ε String) {now last : Surroundings}
    {files : Files String Bytes} (hfresh : ∀ i, files (name path i) = none) {calls : List (Call E)}
    (hpath : ∀ now' ∈ now :: last :: calls.map surroundings, resolvePath now' c.path = path) :
    OneLinePerEvent encode (sent calls) path (max 1 c.maxFiles)
        (exec (step c encode) (FileSink.new c now files) (calls ++ [.flush last])).files ↔
      ∀ event ∈ sent calls, ∃ record, encode event = .ok record ∧ EndsOnce record.toList := by
  refine ⟨OneLinePerEvent.endsOnce, fun hends => ?_⟩
  rw [List.forall_mem_cons, List.forall_mem_cons, List.forall_mem_map] at hpath
  obtain ⟨hnow, hlast, hcalls⟩ := hpath
  have hkept := (kept_new hnow hfresh).exec encode hcalls
  rw [List.nil_append] at hkept
  rw [exec_append]
  exact (hkept.drain hlast).oneLinePerEvent (writeLines_buffer _ _) hends

/-- What is sent to a sink and flushed stands in the files by lines, if and only if
each event brings the break that its format needs. -/
theorem one_line_per_event_iff (c : FileConfig) (config : FormatConfig) (toStringPretty : Value → String)
    (path : String) (now last : Surroundings) (files : Files String Bytes)
    (hfresh : ∀ i, files (name path i) = none) (calls : List (Call AuditEvent))
    (hpath : ∀ now' ∈ now :: last :: calls.map surroundings, resolvePath now' c.path = path) :
    let encode := fun event => Formats.encode (fileFormat config) event toStringPretty
    OneLinePerEvent encode (sent calls) path (max 1 c.maxFiles)
        (exec (step c encode) (FileSink.new c now files) (calls ++ [.flush last])).files ↔
      ∀ event ∈ sent calls, Terminated config event := by
  intro encode
  rw [oneLinePerEvent_iff c encode hfresh hpath]
  exact forall₂_congr fun event _ => endsOnce_record_iff config event toStringPretty

def login : AuditEvent where
  id := "1"
  timestamp := 0
  category := .authentication
  action := "auth.success"
  severity := .info
  outcome := .success
  message := "User logged in"
  actor := some { actorType := "user", name := some "alice", sourceIp := some "10.0.0.1" }
  host := "vpn"

def twoLogins : List (Call AuditEvent) := [.send noon login, .send noon login]

theorem two_logins_by_lines :
    let encode := fun event => Formats.encode (fileFormat { format := .json }) event print
    OneLinePerEvent encode [login, login] "audit.log" 1
      (exec (step oneBackup encode) (FileSink.new oneBackup noon fun _ => none) (twoLogins ++ [.flush noon])).files :=
  (one_line_per_event_iff oneBackup { format := .json } print "audit.log" noon noon (fun _ => none) (fun _ => rfl)
    twoLogins (by decide +kernel)).mpr fun _ _ => trivial

def largeFile : FileConfig := { oneBackup with maxSize := 1048576 }

/-- In a common format, the second login comes on the line of the first. -/
theorem two_logins_on_a_line :
    let encode := fun event => Formats.encode (fileFormat { format := .cef }) event print
    let files := (exec (step largeFile encode) (FileSink.new largeFile noon fun _ => none)
      (twoLogins ++ [.flush noon])).files
    (∃ record, encode login = .ok record ∧ '\n' ∉ record.toList ∧
      files "audit.log" = some (asBytes (record ++ record))) ∧
    ¬ OneLinePerEvent encode [login, login] "audit.log" 1 files := by
  intro encode files
  refine ⟨⟨_, rfl, by decide +kernel, by decide +kernel⟩, fun h => ?_⟩
  obtain ⟨record, hrecord, hends⟩ := h.endsOnce login List.mem_cons_self
  cases hrecord
  exact absurd hends (by decide +kernel)

end Sinks

end CoreVpn.Audit.RecordLines
