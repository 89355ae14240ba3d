import CoreVpn.Lib.Machine
import CoreVpn.Plugin.Tasks

namespace CoreVpn.Plugin.Disconnects

open Lib.Machine Tasks

def ClientRuns (w : World) (t : Nat) : Prop := ∃ task, w.tasks t = some task ∧ task.client.running = true

def AtMostOneClient (w : World) : Prop := ∀ t u, ClientRuns w t → ClientRuns w u → t = u

def AbortsTookEffect (w : World) : Prop :=
  ∀ t task, w.tasks t = some task → task.aborted = true → task.stage = .finished

/-- Once a disconnect call has returned that no connect call overlapped or
followed, and the aborts have taken effect, nothing is left of a connection. -/
def Disconnected (w : World) : Prop :=
  ∀ c call, w.calls c = some call → call.stage = .disconnected → call.alone = true → AbortsTookEffect w →
    (∀ t, ¬ ClientRuns w t) ∧ w.inner.connectionTask = none

/-- What is, or may become, a running client: a connect call that is about to
spawn its task, a task that has not run yet and is not aborted, and the client itself. -/
inductive Source where
  | call (c : Nat)
  | task (t : Nat)
  | client (t : Nat)

def Live (w : World) : Source → Prop
  | .call c => ∃ call, w.calls c = some call ∧ call.stage = .starting
  | .task t => ∃ task, w.tasks t = some task ∧ task.stage = .spawned ∧ task.aborted = false
  | .client t => ClientRuns w t

/-- A call that aborts the stored task finds no client running and none about
to be started but by that task, and a task that was aborted before it ran does
not run. Of the disconnect calls only those count that no connect call overlaps. -/
def Settled (w : World) : Event → Prop
  | .resume c => ∀ call, w.calls c = some call →
      (call.stage = .connecting → ∀ source, Live w source → ∃ t ∈ w.inner.connectionTask, source = .task t) ∧
      (call.stage = .stopping → call.alone = true →
        ∀ t, (Live w (.task t) → t ∈ w.inner.connectionTask) ∧ ¬ Live w (.client t))
  | .poll t _ => ∀ task, w.tasks t = some task → task.stage = .spawned → task.aborted = false
  | _ => True

section Sources

variable {w w' : World} {event : Event}

/-- How a step changes what is live: nothing is added, or a connect call comes
to its spawn, or one source gives way to another. -/
inductive Change (w w' : World) : Event → Prop where
  | fewer {event : Event} (h : ∀ source, Live w' source → Live w source) : Change w w' event
  | enters {c : Nat} {call : Call} (hcall : w.calls c = some call) (hstage : call.stage = .connecting)
      (h : ∀ source, Live w' source → source = .call c ∨
        Live w source ∧ ∀ t ∈ w.inner.connectionTask, source ≠ .task t) : Change w w' (.resume c)
  | passes {event : Event} (old new : Source) (hold : Live w old)
      (h : ∀ source, Live w' source → source = new ∨ Live w source ∧ source ≠ old) : Change w w' event

theorem update_eq_some {α : Type} {f : Nat → Option α} {i j : Nat} {a : Option α} {b : α}
    (h : Function.update f i a j = some b) : (j = i ∧ a = some b) ∨ (j ≠ i ∧ f j = some b) := by
  by_cases hj : j = i
  · subst hj
    rw [Function.update_self] at h
    exact .inl ⟨rfl, h⟩
  · rw [Function.update_of_ne hj] at h
    exact .inr ⟨hj, h⟩

theorem live_setTask {t : Nat} {after : Task} {source : Source} (h : Live (setTask t after w) source) :
    (source = .task t ∧ after.stage = .spawned ∧ after.aborted = false) ∨
      (source = .client t ∧ after.client.running = true) ∨
      (Live w source ∧ source ≠ .task t ∧ source ≠ .client t) := by
  cases source with
  | call c => exact .inr (.inr ⟨h, nofun, nofun⟩)
  | task u =>
    obtain ⟨task, htask, hstage⟩ := h
    obtain ⟨rfl, hafter⟩ | ⟨hu, hbefore⟩ := update_eq_some htask
    · cases hafter
      exact .inl ⟨rfl, hstage⟩
    · exact .inr (.inr ⟨⟨task, hbefore, hstage⟩, fun heq => hu (Source.task.inj heq), nofun⟩)
  | client u =>
    obtain ⟨task, htask, hrunning⟩ := h
    obtain ⟨rfl, hafter⟩ | ⟨hu, hbefore⟩ := update_eq_some htask
    · cases hafter
      exact .inr (.inl ⟨rfl, hrunning⟩)
    · exact .inr (.inr ⟨⟨task, hbefore, hrunning⟩, nofun, fun heq => hu (Source.client.inj heq)⟩)

theorem live_setTask_fewer {t : Nat} {task after : Task} (htask : w.tasks t = some task)
    (hstage : after.stage = .spawned → task.stage = .spawned) (haborted : after.aborted = task.aborted)
    (hclient : after.client.running = true → task.client.running = true) :
    ∀ source, Live (setTask t after w) source → Live w source := by
  intro source h
  obtain ⟨rfl, hspawned, hwanted⟩ | ⟨rfl, hrunning⟩ | ⟨hlive, -, -⟩ := live_setTask h
  · exact ⟨task, htask, hstage hspawned, haborted ▸ hwanted⟩
  · exact ⟨task, htask, hclient hrunning⟩
  · exact hlive

theorem live_abort {source : Source} (h : Live (abort w) source) :
    Live w source ∧ ∀ t ∈ w.inner.connectionTask, source ≠ .task t := by
  rw [abort] at h
  cases hstored : w.inner.connectionTask with
  | none =>
    rw [hstored] at h
    exact ⟨h, nofun⟩
  | some t =>
    rw [hstored] at h
    cases source with
    | call c => exact ⟨h, fun _ _ => nofun⟩
    | task u =>
      obtain ⟨task, htask, hstage, hwanted⟩ := h
      obtain ⟨rfl, hafter⟩ | ⟨hu, hbefore⟩ := update_eq_some htask
      · obtain ⟨before, hbefore, rfl⟩ := Option.map_eq_some_iff.mp hafter
        cases hwanted
      · refine ⟨⟨task, hbefore, hstage, hwanted⟩, ?_⟩
        rintro _ ⟨⟩ ⟨⟩
        exact hu rfl
    | client u =>
      refine ⟨?_, fun _ _ => nofun⟩
      obtain ⟨task, htask, hrunning⟩ := h
      obtain ⟨rfl, hafter⟩ | ⟨-, hbefore⟩ := update_eq_some htask
      · obtain ⟨before, hbefore, rfl⟩ := Option.map_eq_some_iff.mp hafter
        exact ⟨before, hbefore, hrunning⟩
      · exact ⟨task, hbefore, hrunning⟩

theorem live_moveTo {c : Nat} {call : Call} {stage : CallStage} {source : Source}
    (h : Live (moveTo c call stage w) source) :
    (source = .call c ∧ stage = .starting) ∨ (Live w source ∧ source ≠ .call c) := by
  cases source with
  | call d =>
    obtain ⟨found, hfound, hstage⟩ := h
    obtain ⟨rfl, hafter⟩ | ⟨hd, hbefore⟩ := update_eq_some hfound
    · cases hafter
      exact .inl ⟨rfl, hstage⟩
    · exact .inr ⟨⟨found, hbefore, hstage⟩, fun heq => hd (Source.call.inj heq)⟩
  | task t => exact .inr ⟨h, nofun⟩
  | client t => exact .inr ⟨h, nofun⟩

theorem live_spawn {source : Source} (h : Live (spawn w) source) : source = .task w.nextTask ∨ Live w source := by
  cases source with
  | call c => exact .inr h
  | task t =>
    obtain ⟨task, htask, hstage⟩ := h
    obtain ⟨rfl, -⟩ | ⟨-, hbefore⟩ := update_eq_some htask
    · exact .inl rfl
    · exact .inr ⟨task, hbefore, hstage⟩
  | client t =>
    obtain ⟨task, htask, hrunning⟩ := h
    obtain ⟨rfl, hafter⟩ | ⟨-, hbefore⟩ := update_eq_some htask
    · cases hafter
      cases hrunning
    · exact .inr ⟨task, hbefore, hrunning⟩

theorem change_resume {c : Nat} {call : Call} (hcall : w.calls c = some call) :
    Change w (resume c call w) (.resume c) := by
  rw [resume]
  cases hstage : call.stage with
  | connecting =>
    refine .enters hcall hstage fun source h => ?_
    obtain ⟨rfl, -⟩ | ⟨hlive, -⟩ := live_moveTo h
    · exact .inl rfl
    · exact .inr (live_abort hlive)
  | starting =>
    refine .passes (.call c) (.task w.nextTask) ⟨call, hcall, hstage⟩ fun source h => ?_
    obtain ⟨-, ⟨⟩⟩ | ⟨hlive, hne⟩ := live_moveTo h
    obtain rfl | hbefore := live_spawn hlive
    · exact .inl rfl
    · exact .inr ⟨hbefore, hne⟩
  | storing t =>
    refine .fewer fun source h => ?_
    obtain ⟨-, ⟨⟩⟩ | ⟨hlive, -⟩ := live_moveTo h
    exact hlive
  | connected => exact .fewer fun source h => h
  | disconnecting =>
    refine .fewer fun source h => ?_
    obtain ⟨-, ⟨⟩⟩ | ⟨hlive, -⟩ := live_moveTo h
    exact hlive
  | stopping =>
    refine .fewer fun source h => ?_
    obtain ⟨-, ⟨⟩⟩ | ⟨hlive, -⟩ := live_moveTo h
    exact (live_abort hlive).1
  | stopped =>
    refine .fewer fun source h => ?_
    obtain ⟨-, ⟨⟩⟩ | ⟨hlive, -⟩ := live_moveTo h
    exact hlive
  | disconnected => exact .fewer fun source h => h

theorem poll_of_not_spawned {task : Task} (delivered : Bool) (inner : PluginInner) (h : task.stage ≠ .spawned) :
    (task.poll delivered inner).1.stage ≠ .spawned ∧
      (task.poll delivered inner).1.client.running = task.client.running := by
  obtain ⟨stage, aborted, client⟩ := task
  cases stage with
  | spawned => exact absurd rfl h
  | listening =>
    obtain ⟨running, failed, events⟩ := client
    cases events with
    | cons event events => exact ⟨nofun, rfl⟩
    | nil => cases running <;> exact ⟨nofun, rfl⟩
  | signalling event => cases event <;> cases delivered <;> exact ⟨nofun, rfl⟩
  | marking => exact ⟨nofun, rfl⟩
  | completing => exact ⟨nofun, rfl⟩
  | reporting =>
    obtain ⟨running, failed, events⟩ := client
    cases failed <;> exact ⟨nofun, rfl⟩
  | failing => exact ⟨nofun, rfl⟩
  | finished => exact ⟨nofun, rfl⟩

theorem change_poll {t : Nat} {task : Task} {delivered : Bool} (htask : w.tasks t = some task)
    (hwanted : task.stage = .spawned → task.aborted = false) :
    Change w (setTask t (task.poll delivered w.inner).1 { w with inner := (task.poll delivered w.inner).2 })
      (.poll t delivered) := by
  by_cases hstage : task.stage = .spawned
  · refine .passes (.task t) (.client t) ⟨task, htask, hstage, hwanted hstage⟩ fun source h => ?_
    obtain ⟨-, hspawned, -⟩ | ⟨rfl, -⟩ | ⟨hlive, hne, -⟩ := live_setTask h
    · rw [Task.poll, hstage] at hspawned
      cases hspawned
    · exact .inl rfl
    · exact .inr ⟨hlive, hne⟩
  · obtain ⟨hlater, hrunning⟩ := poll_of_not_spawned delivered w.inner hstage
    refine .fewer fun source h => ?_
    obtain ⟨-, hspawned, -⟩ | ⟨rfl, hruns⟩ | ⟨hlive, -, -⟩ := live_setTask h
    · exact absurd hspawned hlater
    · exact ⟨task, htask, hrunning ▸ hruns⟩
    · exact hlive

theorem run_client_running {client : Client} {clientStep : ClientStep}
    (h : (client.run clientStep).running = true) : client.running = true := by
  obtain ⟨running, failed, events⟩ := client
  cases running with
  | true => rfl
  | false => cases clientStep <;> cases h

theorem change_refl (w : World) (event : Event) : Change w w event := .fewer fun _ h => h

/-- A call that arrives is not about to spawn, and leaves the other calls where they are. -/
theorem change_arrival (call : Call) (htasks : w'.tasks = w.tasks) (hstage : call.stage ≠ .starting)
    (hcalls : ∀ d found, w'.calls d = some found →
      found = call ∨ ∃ before, w.calls d = some before ∧ before.stage = found.stage) : Change w w' event := by
  refine .fewer fun source h => ?_
  cases source with
  | call d =>
    obtain ⟨found, hfound, hstarting⟩ := h
    obtain rfl | ⟨before, hbefore, hsame⟩ := hcalls d found hfound
    · exact absurd hstarting hstage
    · exact ⟨before, hbefore, hsame.trans hstarting⟩
  | task t =>
    rw [Live, htasks] at h
    exact h
  | client t =>
    rw [Live, ClientRuns, htasks] at h
    exact h

theorem change_connect (w : World) (c : Nat) : Change w (step w (.connect c)).2 (.connect c) := by
  cases hcall : w.calls c with
  | some call =>
    simp only [step, hcall]
    exact change_refl w _
  | none =>
    simp only [step, hcall]
    refine change_arrival ⟨.connecting, false⟩ rfl nofun fun d found hfound => ?_
    dsimp only at hfound
    obtain ⟨-, hafter⟩ | ⟨-, hbefore⟩ := update_eq_some hfound
    · exact .inl (Option.some.inj hafter).symm
    · obtain ⟨before, hcall, rfl⟩ := Option.map_eq_some_iff.mp hbefore
      exact .inr ⟨before, hcall, rfl⟩

theorem change_disconnect (w : World) (c : Nat) : Change w (step w (.disconnect c)).2 (.disconnect c) := by
  cases hcall : w.calls c with
  | some call =>
    simp only [step, hcall]
    exact change_refl w _
  | none =>
    simp only [step, hcall]
    refine change_arrival ⟨.disconnecting, decide (w.underWay = ∅)⟩ rfl nofun fun d found hfound => ?_
    obtain ⟨-, hafter⟩ | ⟨-, hbefore⟩ := update_eq_some hfound
    · exact .inl (Option.some.inj hafter).symm
    · exact .inr ⟨found, hbefore, rfl⟩

theorem change_cancel (w : World) (t : Nat) : Change w (step w (.cancel t)).2 (.cancel t) := by
  cases htask : w.tasks t with
  | none =>
    simp only [step, htask]
    exact change_refl w _
  | some task =>
    simp only [step, htask]
    cases haborted : task.aborted with
    | false => exact change_refl w _
    | true => exact .fewer (live_setTask_fewer htask nofun haborted.symm fun h => h)

theorem change_client (w : World) (t : Nat) (clientStep : ClientStep) :
    Change w (step w (.client t clientStep)).2 (.client t clientStep) := by
  cases htask : w.tasks t with
  | none =>
    simp only [step, htask]
    exact change_refl w _
  | some task =>
    simp only [step, htask]
    exact .fewer (live_setTask_fewer htask (fun h => h) rfl run_client_running)

theorem change_step (hsettled : Settled w event) : Change w (step w event).2 event := by
  cases event with
  | connect c => exact change_connect w c
  | disconnect c => exact change_disconnect w c
  | resume c =>
    cases hcall : w.calls c with
    | none =>
      simp only [step, hcall]
      exact change_refl w _
    | some call =>
      simp only [step, hcall]
      exact change_resume hcall
  | poll t delivered =>
    cases htask : w.tasks t with
    | none =>
      simp only [step, htask]
      exact change_refl w _
    | some task =>
      simp only [step, htask]
      by_cases haborted : task.aborted = true ∧ task.stage ≠ .spawned
      · rw [if_pos haborted]
        exact change_refl w _
      · rw [if_neg haborted]
        exact change_poll htask (hsettled task htask)
  | cancel t => exact change_cancel w t
  | client t clientStep => exact change_client w t clientStep

end Sources

def Sole (w : World) : Prop := ∀ a b, Live w a → Live w b → a = b

theorem Sole.next {w w' : World} {event : Event} (h : Sole w) (hchange : Change w w' event)
    (hsettled : Settled w event) : Sole w' := by
  intro a b ha hb
  cases hchange with
  | fewer hfewer => exact h a b (hfewer a ha) (hfewer b hb)
  | @enters c call hcall hstage henters =>
    have hstored := (hsettled call hcall).1 hstage
    have hentered : ∀ source, Live w' source → source = .call c := by
      intro source hlive
      obtain hnew | ⟨hbefore, hne⟩ := henters source hlive
      · exact hnew
      · obtain ⟨t, ht, htask⟩ := hstored source hbefore
        exact absurd htask (hne t ht)
    rw [hentered a ha, hentered b hb]
  | passes old new hold hpasses =>
    have hpassed : ∀ source, Live w' source → source = new := by
      intro source hlive
      obtain hnew | ⟨hbefore, hne⟩ := hpasses source hlive
      · exact hnew
      · exact absurd (h source old hbefore hold) hne
    rw [hpassed a ha, hpassed b hb]

section Calls

variable {w : World}

def connects : CallStage → Bool
  | .connecting | .starting | .storing _ => true
  | _ => false

def hasTaken : CallStage → Bool
  | .stopped | .disconnected => true
  | _ => false

def nextStage (task : Nat) : CallStage → CallStage
  | .connecting => .starting
  | .starting => .storing task
  | .storing _ => .connected
  | .disconnecting => .stopping
  | .stopping => .stopped
  | .stopped => .disconnected
  | .connected => .connected
  | .disconnected => .disconnected

theorem abort_calls (w : World) : (abort w).calls = w.calls ∧ (abort w).underWay = w.underWay ∧
    (abort w).inner.connectionTask = none := by
  rw [abort]
  cases hstored : w.inner.connectionTask with
  | none => exact ⟨rfl, rfl, hstored⟩
  | some t => exact ⟨rfl, rfl, rfl⟩

theorem resume_calls {c : Nat} {call : Call} (hcall : w.calls c = some call) :
    (resume c call w).calls =
      Function.update w.calls c (some { call with stage := nextStage w.nextTask call.stage }) := by
  have hsame : w.calls = Function.update w.calls c (some call) := by rw [← hcall, Function.update_eq_self]
  obtain ⟨stage, alone⟩ := call
  cases stage with
  | connecting => exact congrArg (Function.update · c _) (abort_calls w).1
  | stopping => exact congrArg (Function.update · c _) (abort_calls w).1
  | connected => exact hsame
  | disconnected => exact hsame
  | _ => rfl

theorem resume_underWay (c : Nat) (call : Call) (w : World) :
    (resume c call w).underWay = w.underWay ∨
      (∃ t, call.stage = .storing t) ∧ (resume c call w).underWay = w.underWay.erase c := by
  obtain ⟨stage, alone⟩ := call
  cases stage with
  | connecting => exact .inl (abort_calls w).2.1
  | storing t => exact .inr ⟨⟨t, rfl⟩, rfl⟩
  | stopping => exact .inl (abort_calls w).2.1
  | _ => exact .inl rfl

/-- What is known of the calls: which connect calls are under way, and that
there is none besides a disconnect call that is alone. -/
structure Tracked (w : World) : Prop where
  underWay : ∀ c call, w.calls c = some call → connects call.stage = true → c ∈ w.underWay
  alone : ∀ c call, w.calls c = some call → call.alone = true → w.underWay = ∅

theorem connects_of_next {task : Nat} {stage : CallStage} (h : connects (nextStage task stage) = true) :
    connects stage = true ∧ ∀ t, stage ≠ .storing t := by
  cases stage with
  | connecting => exact ⟨rfl, nofun⟩
  | starting => exact ⟨rfl, nofun⟩
  | _ => cases h

theorem Tracked.resume {c : Nat} {call : Call} (h : Tracked w) (hcall : w.calls c = some call) :
    Tracked (resume c call w) := by
  have hcalls := resume_calls hcall
  constructor
  · intro d found hfound hconnects
    rw [hcalls] at hfound
    obtain ⟨rfl, hafter⟩ | ⟨hd, hbefore⟩ := update_eq_some hfound
    · cases hafter
      obtain ⟨hearlier, hnot⟩ := connects_of_next hconnects
      obtain hsame | ⟨⟨t, ht⟩, -⟩ := resume_underWay d call w
      · rw [hsame]
        exact h.underWay d call hcall hearlier
      · exact absurd ht (hnot t)
    · have hmem := h.underWay d found hbefore hconnects
      obtain hsame | ⟨-, herase⟩ := resume_underWay c call w
      · rwa [hsame]
      · rw [herase]
        exact Finset.mem_erase.mpr ⟨hd, hmem⟩
  · intro d found hfound halone
    rw [hcalls] at hfound
    have hempty : w.underWay = ∅ := by
      obtain ⟨-, hafter⟩ | ⟨-, hbefore⟩ := update_eq_some hfound
      · cases hafter
        exact h.alone c call hcall halone
      · exact h.alone d found hbefore halone
    obtain hsame | ⟨-, herase⟩ := resume_underWay c call w
    · rw [hsame, hempty]
    · rw [herase, hempty]
      rfl

theorem Tracked.of_eq {w' : World} (h : Tracked w) (hcalls : w'.calls = w.calls) (hunder : w'.underWay = w.underWay) :
    Tracked w' := by
  constructor
  · rw [hcalls, hunder]
    exact h.underWay
  · rw [hcalls, hunder]
    exact h.alone

theorem step_calls (w : World) (event : Event) :
    ((∃ c, event = .connect c ∨ event = .disconnect c ∨ event = .resume c)) ∨
      (step w event).2.calls = w.calls ∧ (step w event).2.underWay = w.underWay := by
  cases event with
  | connect c => exact .inl ⟨c, .inl rfl⟩
  | disconnect c => exact .inl ⟨c, .inr (.inl rfl)⟩
  | resume c => exact .inl ⟨c, .inr (.inr rfl)⟩
  | poll t delivered =>
    right
    rw [step]
    cases w.tasks t with
    | none => exact ⟨rfl, rfl⟩
    | some task => dsimp only; split <;> exact ⟨rfl, rfl⟩
  | cancel t =>
    right
    rw [step]
    cases w.tasks t with
    | none => exact ⟨rfl, rfl⟩
    | some task => dsimp only; split <;> exact ⟨rfl, rfl⟩
  | client t clientStep =>
    right
    rw [step]
    cases w.tasks t with
    | none => exact ⟨rfl, rfl⟩
    | some task => exact ⟨rfl, rfl⟩

theorem Tracked.next (h : Tracked w) (event : Event) : Tracked (step w event).2 := by
  obtain ⟨c, rfl | rfl | rfl⟩ | ⟨hcalls, hunder⟩ := step_calls w event
  · rw [step]
    cases hcall : w.calls c with
    | some call => exact h
    | none =>
      constructor
      · intro d found hfound hconnects
        dsimp only at hfound ⊢
        obtain ⟨rfl, -⟩ | ⟨-, hbefore⟩ := update_eq_some hfound
        · exact Finset.mem_insert_self d w.underWay
        · obtain ⟨call, hcall, rfl⟩ := Option.map_eq_some_iff.mp hbefore
          exact Finset.mem_insert_of_mem (h.underWay d call hcall hconnects)
      · intro d found hfound halone
        dsimp only at hfound
        obtain ⟨-, hafter⟩ | ⟨-, hbefore⟩ := update_eq_some hfound
        · cases hafter
          cases halone
        · obtain ⟨call, -, rfl⟩ := Option.map_eq_some_iff.mp hbefore
          cases halone
  · rw [step]
    cases hcall : w.calls c with
    | some call => exact h
    | none =>
      constructor
      · intro d found hfound hconnects
        obtain ⟨rfl, hafter⟩ | ⟨-, hbefore⟩ := update_eq_some hfound
        · cases hafter
          cases hconnects
        · exact h.underWay d found hbefore hconnects
      · intro d found hfound halone
        obtain ⟨-, hafter⟩ | ⟨-, hbefore⟩ := update_eq_some hfound
        · cases hafter
          exact of_decide_eq_true halone
        · exact h.alone d found hbefore halone
  · rw [step]
    cases hcall : w.calls c with
    | some call => exact h.resume hcall
    | none => exact h
  · exact h.of_eq hcalls hunder

structure Quiet (w : World) : Prop where
  live : ∀ source, ¬ Live w source
  connectionTask : w.inner.connectionTask = none

theorem not_under_way (h : Tracked w) (hempty : w.underWay = ∅) {c : Nat} {call : Call} (hcall : w.calls c = some call) :
    connects call.stage = false := by
  cases hconnects : connects call.stage with
  | false => rfl
  | true =>
    have hmem := h.underWay c call hcall hconnects
    rw [hempty] at hmem
    cases hmem

theorem poll_connectionTask {task : Task} {delivered : Bool} {inner : PluginInner} (h : inner.connectionTask = none) :
    (task.poll delivered inner).2.connectionTask = none := by
  obtain ⟨stage, aborted, client⟩ := task
  cases stage with
  | listening => cases hevents : client.events <;> simpa only [Task.poll, hevents] using h
  | completing => rfl
  | failing => rfl
  | _ => exact h

theorem Quiet.connectionTask_step (hquiet : Quiet w) (h : Tracked w) (hempty : w.underWay = ∅) (event : Event) :
    (step w event).2.inner.connectionTask = none := by
  have hnone := hquiet.connectionTask
  cases event with
  | connect c =>
    rw [step]
    cases w.calls c <;> exact hnone
  | disconnect c =>
    rw [step]
    cases w.calls c <;> exact hnone
  | resume c =>
    rw [step]
    cases hcall : w.calls c with
    | none => exact hnone
    | some call =>
      have hidle := not_under_way h hempty hcall
      obtain ⟨stage, alone⟩ := call
      cases stage with
      | connecting => cases hidle
      | starting => cases hidle
      | storing t => cases hidle
      | stopping => exact (abort_calls w).2.2
      | _ => exact hnone
  | poll t delivered =>
    rw [step]
    cases w.tasks t with
    | none => exact hnone
    | some task =>
      dsimp only
      split
      · exact hnone
      · exact poll_connectionTask hnone
  | cancel t =>
    rw [step]
    cases w.tasks t with
    | none => exact hnone
    | some task => dsimp only; split <;> exact hnone
  | client t clientStep =>
    rw [step]
    cases w.tasks t <;> exact hnone

theorem Quiet.next {event : Event} (hquiet : Quiet w) (h : Tracked w) (hempty : w.underWay = ∅)
    (hsettled : Settled w event) : Quiet (step w event).2 := by
  refine ⟨fun source hlive => ?_, hquiet.connectionTask_step h hempty event⟩
  cases change_step hsettled with
  | fewer hfewer => exact hquiet.live source (hfewer source hlive)
  | enters hcall hstage _ =>
    have hidle := not_under_way h hempty hcall
    rw [hstage] at hidle
    cases hidle
  | passes old new hold _ => exact hquiet.live old hold

theorem quiet_of_take {c : Nat} {call : Call} (h : Tracked w) (hcall : w.calls c = some call)
    (hstage : call.stage = .stopping) (halone : call.alone = true)
    (hsettled : ∀ t, (Live w (.task t) → t ∈ w.inner.connectionTask) ∧ ¬ Live w (.client t)) :
    Quiet (resume c call w) := by
  have hempty := h.alone c call hcall halone
  rw [resume, hstage]
  refine ⟨fun source hlive => ?_, (abort_calls w).2.2⟩
  obtain ⟨-, ⟨⟩⟩ | ⟨hafter, -⟩ := live_moveTo hlive
  obtain ⟨hbefore, hne⟩ := live_abort hafter
  cases source with
  | call d =>
    obtain ⟨found, hfound, hstarting⟩ := hbefore
    have hidle := not_under_way h hempty hfound
    rw [hstarting] at hidle
    cases hidle
  | task t => exact hne t ((hsettled t).1 hbefore) rfl
  | client t => exact (hsettled t).2 hbefore

def Ended (w : World) : Prop :=
  ∀ c call, w.calls c = some call → call.alone = true → hasTaken call.stage = true → Quiet w

/-- A call that no connect call overlaps and that has taken the stored task had
done so before, or does so in this step. -/
theorem taken_cases {event : Event} {c : Nat} {after : Call} (hafter : (step w event).2.calls c = some after)
    (halone : after.alone = true) (htaken : hasTaken after.stage = true) :
    (∃ call, w.calls c = some call ∧ call.alone = true ∧ hasTaken call.stage = true) ∨
      ∃ call, event = .resume c ∧ w.calls c = some call ∧ call.stage = .stopping ∧ call.alone = true := by
  have hbefore : w.calls c = some after →
      ∃ call, w.calls c = some call ∧ call.alone = true ∧ hasTaken call.stage = true :=
    fun hcall => ⟨after, hcall, halone, htaken⟩
  obtain ⟨d, rfl | rfl | rfl⟩ | ⟨hcalls, -⟩ := step_calls w event
  · cases hcall : w.calls d with
    | some call =>
      simp only [step, hcall] at hafter
      exact .inl (hbefore hafter)
    | none =>
      simp only [step, hcall] at hafter
      obtain ⟨-, hnew⟩ | ⟨-, hold⟩ := update_eq_some hafter
      · cases hnew
        cases halone
      · obtain ⟨call, -, rfl⟩ := Option.map_eq_some_iff.mp hold
        cases halone
  · cases hcall : w.calls d with
    | some call =>
      simp only [step, hcall] at hafter
      exact .inl (hbefore hafter)
    | none =>
      simp only [step, hcall] at hafter
      obtain ⟨-, hnew⟩ | ⟨-, hold⟩ := update_eq_some hafter
      · cases hnew
        cases htaken
      · exact .inl (hbefore hold)
  · cases hcall : w.calls d with
    | none =>
      simp only [step, hcall] at hafter
      exact .inl (hbefore hafter)
    | some call =>
      have hstep : (step w (.resume d)).2 = resume d call w := by simp only [step, hcall]
      rw [hstep, resume_calls hcall] at hafter
      obtain ⟨rfl, hnew⟩ | ⟨-, hold⟩ := update_eq_some hafter
      · cases hnew
        cases hstage : call.stage with
        | stopping => exact .inr ⟨call, rfl, hcall, hstage, halone⟩
        | stopped | disconnected => exact .inl ⟨call, hcall, halone, by rw [hstage]; rfl⟩
        | _ =>
          rw [hstage] at htaken
          cases htaken
      · exact .inl (hbefore hold)
  · rw [hcalls] at hafter
    exact .inl (hbefore hafter)

theorem Ended.next {event : Event} (h : Ended w) (htracked : Tracked w) (hsettled : Settled w event) :
    Ended (step w event).2 := by
  intro c after hafter halone htaken
  obtain ⟨call, hcall, halone, htaken⟩ | ⟨call, rfl, hcall, hstage, halone⟩ := taken_cases hafter halone htaken
  · exact (h c call hcall halone htaken).next htracked (htracked.alone c call hcall halone) hsettled
  · have hstep : (step w (.resume c)).2 = resume c call w := by simp only [step, hcall]
    rw [hstep]
    exact quiet_of_take htracked hcall hstage halone ((hsettled call hcall).2 hstage halone)

end Calls

/-- What every step of a settled run preserves. -/
structure Sound (w : World) : Prop where
  sole : Sole w
  tracked : Tracked w
  ended : Ended w

theorem Sound.next {w : World} {event : Event} (hsettled : Settled w event) (h : Sound w) :
    Sound (step w event).2 :=
  ⟨h.sole.next (change_step hsettled) hsettled, h.tracked.next event, h.ended.next h.tracked hsettled⟩

theorem sound_start : Sound {} := by
  refine ⟨fun a b ha => ?_, ⟨nofun, nofun⟩, nofun⟩
  cases a with
  | call c => obtain ⟨_, ⟨⟩, -⟩ := ha
  | task t => obtain ⟨_, ⟨⟩, -⟩ := ha
  | client t => obtain ⟨_, ⟨⟩, -⟩ := ha

/-- As long as calls that abort the stored task find no client running and none
about to be started but by that task, there is never more than one client, and a
disconnect call leaves none. -/
theorem disconnects_when_settled {events : List Event} (h : EachStep step Settled {} events) :
    Always step (fun w => AtMostOneClient w ∧ Disconnected w) {} events := by
  have hsound : Always step Sound {} events :=
    always_of_step (fun _ _ hsettled hw => Sound.next hsettled hw) sound_start h
  refine Always.imp (fun w hw => ⟨fun t u ht hu => ?_, ?_⟩) hsound
  · exact Source.client.inj (hw.sole (.client t) (.client u) ht hu)
  · intro c call hcall hstage halone _
    have hquiet := hw.ended c call hcall halone (by rw [hstage]; rfl)
    exact ⟨fun t => hquiet.live (.client t), hquiet.connectionTask⟩

/-- The first client ends by itself. The second connection is given up before its
task has run. -/
def endedEvents : List Event :=
  [.connect 0, .resume 0, .resume 0, .resume 0, .poll 0 true, .client 0 (.finish false),
    .connect 1, .resume 1, .resume 1, .resume 1, .disconnect 2, .resume 2, .resume 2, .cancel 1, .resume 2]

theorem disconnects_after_end :
    EachStep step Settled {} endedEvents ∧
      Always step (fun w => AtMostOneClient w ∧ Disconnected w) {} endedEvents := by
  have hsettled : EachStep step Settled {} endedEvents := by
    refine ⟨trivial, ?_, ?_, ?_, ?_, trivial, trivial, ?_, ?_, ?_, trivial, ?_, ?_, trivial, ?_, trivial⟩
    case refine_1 =>
      rintro call ⟨⟩
      refine ⟨fun _ source hlive => ?_, nofun⟩
      rcases source with (_ | c) | t | t <;> obtain ⟨_, ⟨⟩, hstage⟩ := hlive
      cases hstage
    case refine_4 =>
      rintro task ⟨⟩ -
      rfl
    case refine_5 =>
      rintro call ⟨⟩
      refine ⟨fun _ source hlive => ?_, nofun⟩
      rcases source with (_ | _ | c) | (_ | t) | _ | t <;> obtain ⟨_, ⟨⟩, hstage⟩ := hlive
      · cases hstage
      · cases hstage
      · cases hstage.1
      · cases hstage
    case refine_9 =>
      rintro call ⟨⟩
      refine ⟨nofun, fun _ _ t => ⟨?_, ?_⟩⟩
      · rintro ⟨task, htask, hstage, -⟩
        rcases t with _ | _ | t <;> cases htask
        · cases hstage
        · rfl
      · rintro ⟨task, htask, hrunning⟩
        rcases t with _ | _ | t <;> cases htask <;> cases hrunning
    all_goals
      rintro call ⟨⟩
      exact ⟨nofun, nofun⟩
  exact ⟨hsettled, disconnects_when_settled hsettled⟩

/-- A disconnect call while the client runs. The connection task is gone
afterwards, but its client is not. -/
def orphanEvents : List Event :=
  [.connect 0, .resume 0, .resume 0, .resume 0, .poll 0 true,
    .disconnect 1, .resume 1, .resume 1, .resume 1, .cancel 0]

theorem client_survives_disconnect :
    ¬ Always step (fun w => AtMostOneClient w ∧ Disconnected w) {} orphanEvents := by
  intro halways
  obtain ⟨-, hdisconnected⟩ := Always.iff.mp halways orphanEvents [] rfl
  have haborts : AbortsTookEffect (exec step {} orphanEvents) := by
    intro t task htask haborted
    cases t with
    | zero =>
      cases htask
      rfl
    | succ t => cases htask
  obtain ⟨hnone, -⟩ := hdisconnected 1 ⟨.disconnected, true⟩ rfl rfl rfl haborts
  exact hnone 0 ⟨_, rfl, rfl⟩

end CoreVpn.Plugin.Disconnects
