import CoreVpn.Lib.Machine

namespace CoreVpn.Audit.Loggers

open Lib.Machine

variable {E : Type}

section Model

structure AuditConfig where
  enabled : Bool
  bufferSize : Nat
  sinks : Nat

/-- The background task with an event from the channel, which it has sent to so many
sinks. It may be waiting for the next sink to take it. -/
structure Task (E : Type) where
  event : E
  next : Nat := 0
  sending : Bool := false
  deriving DecidableEq

/-- A flush call that has not returned: the events whose log calls had returned when it
began, the number of sinks it has flushed, and, while it waits for the next one, what
had been sent to this sink when the call turned to it. -/
structure FlushCall (E : Type) where
  due : List E
  next : Nat := 0
  covering : Option (List E) := none
  deriving DecidableEq

/-- The logger and its background task. What was logged, what each sink has taken and
what each of its flushes covers is recorded, the oldest first. -/
structure AuditLogger (E : Type) where
  logged : List E := []
  channel : List E := []
  task : Option (Task E) := none
  sent : Nat → List E := fun _ => []
  flushes : Nat → List (List E) := fun _ => []
  calls : Nat → Option (FlushCall E) := fun _ => none

variable (config : AuditConfig)

/-- A call that finds the channel full waits, and returns once there is room. -/
def log (event : E) (s : AuditLogger E) : AuditLogger E :=
  if !config.enabled then { s with logged := s.logged ++ [event] }
  else if s.channel.length < config.bufferSize then
    { s with logged := s.logged ++ [event], channel := s.channel ++ [event] }
  else s

def processEvents (s : AuditLogger E) : AuditLogger E :=
  match s.task with
  | none =>
    match s.channel with
    | [] => s
    | event :: channel => { s with channel, task := some { event } }
  | some task =>
    if task.sending then
      { s with
        sent := Function.update s.sent task.next (s.sent task.next ++ [task.event])
        task := some { task with next := task.next + 1, sending := false } }
    else if task.next < config.sinks then { s with task := some { task with sending := true } }
    else { s with task := none }

def flush (id : Nat) (s : AuditLogger E) : AuditLogger E :=
  match s.calls id with
  | some _ => s
  | none => { s with calls := Function.update s.calls id (some { due := s.logged }) }

def resume (id : Nat) (s : AuditLogger E) : Option (FlushCall E) × AuditLogger E :=
  match s.calls id with
  | none => (none, s)
  | some call =>
    match call.covering with
    | some covered => (none, { s with
        flushes := Function.update s.flushes call.next (s.flushes call.next ++ [covered])
        calls := Function.update s.calls id (some { call with next := call.next + 1, covering := none }) })
    | none =>
      if call.next < config.sinks then (none, { s with
        calls := Function.update s.calls id (some { call with covering := some (s.sent call.next) }) })
      else (some call, { s with calls := Function.update s.calls id none })

inductive Action (E : Type) where
  | log (event : E)
  | process
  | flush (id : Nat)
  | resume (id : Nat)

/-- The callers and the background task take turns in any order. A step tells which
flush call returns with it. -/
def step (s : AuditLogger E) : Action E → Option (FlushCall E) × AuditLogger E
  | .log event => (none, log config event s)
  | .process => (none, processEvents config s)
  | .flush id => (none, flush id s)
  | .resume id => resume config id s

variable {config} {s : AuditLogger E} {id : Nat} {call : FlushCall E}

theorem resume_of_none (hcall : s.calls id = none) : resume config id s = (none, s) := by
  rw [resume, hcall]

theorem resume_of_covering {covered : List E} (hcall : s.calls id = some call) (hcovering : call.covering = some covered) :
    resume config id s = (none, { s with
      flushes := Function.update s.flushes call.next (s.flushes call.next ++ [covered])
      calls := Function.update s.calls id (some { call with next := call.next + 1, covering := none }) }) := by
  simp only [resume, hcall, hcovering]

theorem resume_of_lt (hcall : s.calls id = some call) (hcovering : call.covering = none)
    (hnext : call.next < config.sinks) :
    resume config id s = (none, { s with
      calls := Function.update s.calls id (some { call with covering := some (s.sent call.next) }) }) := by
  simp only [resume, hcall, hcovering, if_pos hnext]

theorem resume_of_le (hcall : s.calls id = some call) (hcovering : call.covering = none)
    (hnext : config.sinks ≤ call.next) :
    resume config id s = (some call, { s with calls := Function.update s.calls id none }) := by
  simp only [resume, hcall, hcovering, if_neg (not_lt.mpr hnext)]

end Model

section Delivery

variable {config : AuditConfig} {s : AuditLogger E}

def inHand (k : Nat) : Option (Task E) → List E
  | none => []
  | some task => if k < task.next then [] else [task.event]

/-- Nothing is lost on the way to a sink, nothing comes twice, and the order stays. -/
def Delivers (config : AuditConfig) (s : AuditLogger E) : Prop :=
  ∀ k < config.sinks, s.sent k ++ inHand k s.task ++ s.channel = s.logged

theorem Delivers.log (henabled : config.enabled = true) (h : Delivers config s) (event : E) :
    Delivers config (log config event s) := by
  intro k hk
  rw [Loggers.log, henabled]
  by_cases hroom : s.channel.length < config.bufferSize
  · simp [hroom, ← h k hk]
  · simp [hroom, h k hk]

theorem Delivers.processEvents (h : Delivers config s) : Delivers config (processEvents config s) := by
  intro k hk
  have hsame := h k hk
  cases htask : s.task with
  | none =>
    cases hchannel : s.channel with
    | nil => simpa only [Loggers.processEvents, htask, hchannel] using hsame
    | cons event channel =>
      simp only [Loggers.processEvents, htask, hchannel]
      simpa [htask, hchannel, inHand] using hsame
  | some task =>
    rw [htask] at hsame
    simp only [Loggers.processEvents, htask]
    split_ifs with hsending hnext
    · by_cases hk' : k = task.next
      · subst hk'
        simpa [inHand] using hsame
      · have hlt : k < task.next + 1 ↔ k < task.next := by omega
        simpa [inHand, Function.update_of_ne hk', hlt] using hsame
    · exact hsame
    · have hlt : k < task.next := by omega
      simpa [inHand, hlt] using hsame

theorem delivers_flush (h : Delivers config s) (id : Nat) : Delivers config (flush id s) := by
  unfold flush
  split <;> exact h

theorem delivers_resume (h : Delivers config s) (id : Nat) : Delivers config (resume config id s).2 := by
  unfold resume
  split
  · exact h
  · split
    · exact h
    · split <;> exact h

theorem Delivers.step (henabled : config.enabled = true) (h : Delivers config s) (action : Action E) :
    Delivers config (step config s action).2 := by
  cases action with
  | log event => exact h.log henabled event
  | process => exact h.processEvents
  | flush id => exact delivers_flush h id
  | resume id => exact delivers_resume h id

/-- In every run of a logger that is enabled, what was logged is in each sink or on its way there. -/
theorem delivers_exec (henabled : config.enabled = true) (actions : List (Action E)) :
    Delivers config (exec (step config) {} actions) :=
  exec_of_step (fun _ action h => h.step henabled action) (fun _ _ => rfl) actions

theorem delivers_exec_two_events :
    Delivers ⟨true, 1, 1⟩ (exec (step ⟨true, 1, 1⟩) {} [.log "login", .process, .log "logout", .process]) :=
  delivers_exec rfl _

end Delivery

section Flushing

variable {config : AuditConfig} {s : AuditLogger E}

structure Answered (config : AuditConfig) (s : AuditLogger E) (call : FlushCall E) : Prop where
  sent : ∀ k < config.sinks, call.due <+: s.sent k
  covering : ∀ covered ∈ call.covering, call.due <+: covered
  flushed : ∀ k < call.next, ∃ covered ∈ s.flushes k, call.due <+: covered

/-- When a call returns, each sink has had its events, and has been flushed after them. -/
def Covers (config : AuditConfig) (s : AuditLogger E) (call : FlushCall E) : Prop :=
  ∀ k < config.sinks, ∃ covered ∈ s.flushes k, call.due <+: covered

structure Extends (s t : AuditLogger E) : Prop where
  sent : ∀ k, s.sent k <+: t.sent k
  flushes : ∀ k, s.flushes k ⊆ t.flushes k

theorem Answered.mono {t : AuditLogger E} {call : FlushCall E} (h : Answered config s call) (hext : Extends s t) :
    Answered config t call where
  sent k hk := (h.sent k hk).trans (hext.sent k)
  covering := h.covering
  flushed k hk := by
    obtain ⟨covered, hmem, hdue⟩ := h.flushed k hk
    exact ⟨covered, hext.flushes k hmem, hdue⟩

theorem extends_log (event : E) : Extends s (log config event s) := by
  unfold log
  split_ifs <;> exact ⟨fun _ => List.prefix_rfl, fun _ => List.Subset.refl _⟩

theorem extends_processEvents : Extends s (processEvents config s) := by
  refine ⟨fun k => ?_, fun k => ?_⟩
  · unfold processEvents
    split
    · split <;> exact List.prefix_rfl
    · rename_i task _
      split_ifs
      · by_cases hk : k = task.next
        · subst hk
          simp
        · simp [Function.update_of_ne hk]
      · exact List.prefix_rfl
      · exact List.prefix_rfl
  · unfold processEvents
    split
    · split <;> exact List.Subset.refl _
    · split_ifs <;> exact List.Subset.refl _

theorem log_calls (event : E) : (log config event s).calls = s.calls := by
  unfold log
  split_ifs <;> rfl

theorem processEvents_calls : (processEvents config s).calls = s.calls := by
  unfold processEvents
  split
  · split <;> rfl
  · split_ifs <;> rfl

def AllAnswered (config : AuditConfig) (s : AuditLogger E) : Prop :=
  ∀ id, ∀ call ∈ s.calls id, Answered config s call

theorem AllAnswered.mono {t : AuditLogger E} (h : AllAnswered config s) (hext : Extends s t) (hcalls : t.calls = s.calls) :
    AllAnswered config t := by
  intro id call hcall
  rw [hcalls] at hcall
  exact (h id call hcall).mono hext

theorem AllAnswered.update {t : AuditLogger E} {id : Nat} {call : Option (FlushCall E)} (h : AllAnswered config s)
    (hext : Extends s t) (hcalls : t.calls = Function.update s.calls id call)
    (hcall : ∀ call' ∈ call, Answered config t call') : AllAnswered config t := by
  intro other found hfound
  rw [hcalls] at hfound
  by_cases hother : other = id
  · rw [hother, Function.update_self] at hfound
    exact hcall found hfound
  · rw [Function.update_of_ne hother] at hfound
    exact (h other found hfound).mono hext

/-- Whenever a flush call begins, the channel is empty and the task has no event in
hand; and only a logger that is enabled is given events. -/
def Settled (config : AuditConfig) (s : AuditLogger E) : Action E → Prop
  | .log _ => config.enabled = true
  | .flush _ => s.channel = [] ∧ s.task = none
  | _ => True

theorem AllAnswered.flush (hdelivers : Delivers config s) (hidle : s.channel = [] ∧ s.task = none)
    (h : AllAnswered config s) (id : Nat) : AllAnswered config (flush id s) := by
  unfold Loggers.flush
  split
  · exact h
  · refine h.update ⟨fun _ => List.prefix_rfl, fun _ => List.Subset.refl _⟩ rfl ?_
    rintro call' ⟨⟩
    refine ⟨fun k hk => ?_, by simp, by simp⟩
    have hsent := hdelivers k hk
    rw [hidle.1, hidle.2, inHand, List.append_nil, List.append_nil] at hsent
    rw [hsent]

theorem AllAnswered.resume (h : AllAnswered config s) (id : Nat) :
    AllAnswered config (resume config id s).2 ∧
      ∀ call ∈ (Loggers.resume config id s).1, Covers config (Loggers.resume config id s).2 call := by
  cases hcall : s.calls id with
  | none =>
    rw [resume_of_none hcall]
    exact ⟨h, by simp⟩
  | some call =>
    have hanswered := h id call hcall
    cases hcovering : call.covering with
    | some covered =>
      have hext : Extends s { s with
          flushes := Function.update s.flushes call.next (s.flushes call.next ++ [covered])
          calls := Function.update s.calls id (some { call with next := call.next + 1, covering := none }) } := by
        refine ⟨fun _ => List.prefix_rfl, fun k => ?_⟩
        by_cases hk : k = call.next
        · subst hk
          simp
        · simp [Function.update_of_ne hk]
      rw [resume_of_covering hcall hcovering]
      refine ⟨h.update hext rfl ?_, by simp⟩
      rintro call' ⟨⟩
      refine ⟨(hanswered.mono hext).sent, by simp, fun k hk => ?_⟩
      by_cases hlast : k = call.next
      · refine ⟨covered, ?_, hanswered.covering covered hcovering⟩
        rw [hlast]
        simp
      · exact (hanswered.mono hext).flushed k (by dsimp only at hk; omega)
    | none =>
      have hsame : ∀ calls, Extends s { s with calls } := fun _ =>
        ⟨fun _ => List.prefix_rfl, fun _ => List.Subset.refl _⟩
      by_cases hnext : call.next < config.sinks
      · rw [resume_of_lt hcall hcovering hnext]
        refine ⟨h.update (hsame _) rfl ?_, by simp⟩
        rintro call' ⟨⟩
        refine ⟨hanswered.sent, ?_, hanswered.flushed⟩
        rintro covered ⟨⟩
        exact hanswered.sent call.next hnext
      · rw [resume_of_le hcall hcovering (not_lt.mp hnext)]
        refine ⟨h.update (hsame _) rfl (by simp), ?_⟩
        rintro call' ⟨⟩
        exact fun k hk => hanswered.flushed k (by omega)

/-- What every step of a settled run preserves. -/
structure Sound (config : AuditConfig) (s : AuditLogger E) : Prop where
  delivers : Delivers config s
  answered : AllAnswered config s

theorem Sound.step {action : Action E} (hsettled : Settled config s action) (h : Sound config s) :
    Sound config (step config s action).2 := by
  cases action with
  | log event => exact ⟨h.delivers.log hsettled event, h.answered.mono (extends_log event) (log_calls event)⟩
  | process => exact ⟨h.delivers.processEvents, h.answered.mono extends_processEvents processEvents_calls⟩
  | flush id => exact ⟨delivers_flush h.delivers id, h.answered.flush h.delivers hsettled id⟩
  | resume id => exact ⟨delivers_resume h.delivers id, (h.answered.resume id).1⟩

theorem sound_new : Sound config ({} : AuditLogger E) :=
  ⟨fun _ _ => rfl, fun _ call hcall => absurd hcall (Option.not_mem_none call)⟩

def Reported (config : AuditConfig) (s : AuditLogger E) (action : Action E) : Prop :=
  ∀ call ∈ (step config s action).1, Covers config (step config s action).2 call

theorem Sound.reported {action : Action E} (h : Sound config s) : Reported config s action := by
  cases action with
  | resume id => exact (h.answered.resume id).2
  | _ => exact fun call hcall => absurd hcall (Option.not_mem_none call)

/-- If flush calls begin only when the background task has caught up, then each of them
covers all that was logged before it. -/
theorem flush_covers_when_settled (config : AuditConfig) {actions : List (Action E)}
    (h : EachStep (step config) (Settled config) {} actions) :
    EachStep (step config) (Reported config) {} actions :=
  EachStep.of_invariant (fun _ _ hsettled hsound => Sound.step hsettled hsound)
    (fun _ _ _ hsound => Sound.reported hsound) sound_new h

def oneSink : AuditConfig where
  enabled := true
  bufferSize := 1
  sinks := 1

theorem flush_after_delivery :
    let actions : List (Action String) :=
      [.log "login", .process, .process, .process, .process, .flush 0, .resume 0, .resume 0, .resume 0]
    EachStep (step oneSink) (Settled oneSink) {} actions ∧ EachStep (step oneSink) (Reported oneSink) {} actions := by
  intro actions
  have hsettled : EachStep (step oneSink) (Settled oneSink) {} actions :=
    ⟨rfl, trivial, trivial, trivial, trivial, ⟨rfl, rfl⟩, trivial, trivial, trivial, trivial⟩
  exact ⟨hsettled, flush_covers_when_settled oneSink hsettled⟩

/-- The flush returns before the task has got to the event. -/
theorem flush_before_delivery :
    ¬ EachStep (step oneSink) (Reported oneSink) {}
      [.log "login", .flush 0, .resume 0, .resume 0, .resume 0] := by
  rintro ⟨-, -, -, -, hreturn, -⟩
  obtain ⟨covered, hmem, hdue⟩ := hreturn _ rfl 0 (by decide)
  rw [List.mem_singleton.mp hmem] at hdue
  exact absurd hdue (by decide)

end Flushing

end CoreVpn.Audit.Loggers
