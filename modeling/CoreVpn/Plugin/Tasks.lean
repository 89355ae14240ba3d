import Mathlib.Tactic

namespace CoreVpn.Plugin.Tasks

def stateInit : UInt32 := 1
def stateStarting : UInt32 := 3
def stateStarted : UInt32 := 4
def stateStopping : UInt32 := 5
def stateStopped : UInt32 := 6

/-- A task is known by the number of tasks spawned before it. The handle of a
task that is dropped leaves the task running. -/
structure PluginInner where
  state : UInt32 := stateInit
  connectionTask : Option Nat := none
  deriving DecidableEq

/-- What the client reports to the connection task. What the reports say goes
into signals only. -/
inductive ConnectionEvent where
  | pushReply
  | connected
  | error
  deriving DecidableEq

/-- The client task that a connection task starts. Its channel is closed once it has ended. -/
structure Client where
  running : Bool := false
  failed : Bool := false
  events : List ConnectionEvent := []
  deriving DecidableEq

inductive Stage where
  | spawned
  | listening
  | signalling (event : ConnectionEvent)
  | marking
  | completing
  | reporting
  | failing
  | finished
  deriving DecidableEq

structure Task where
  stage : Stage := .spawned
  aborted : Bool := false
  client : Client := {}
  deriving DecidableEq

/-- The connection task runs from one await to the next. A signal may fail to
be delivered, and then the task gives up without asking for its client. -/
def Task.poll (delivered : Bool) (task : Task) (inner : PluginInner) : Task × PluginInner :=
  match task.stage with
  | .spawned => ({ task with stage := .listening, client := { running := true } }, inner)
  | .listening =>
    match task.client.events with
    | event :: events => ({ task with stage := .signalling event, client := { task.client with events } }, inner)
    | [] => (if task.client.running then task else { task with stage := .completing }, inner)
  | .signalling event =>
    let next := match event with
      | .connected => Stage.marking
      | _ => .listening
    ({ task with stage := if delivered then next else .failing }, inner)
  | .marking => ({ task with stage := .listening }, { inner with state := stateStarted })
  | .completing => ({ task with stage := .reporting }, { state := stateStopped, connectionTask := none })
  | .reporting => ({ task with stage := if task.client.failed then .failing else .finished }, inner)
  | .failing => ({ task with stage := .finished }, { state := stateStopped, connectionTask := none })
  | .finished => (task, inner)

/-- Where a call waits: a connect call for the lock, for its signal and for the
lock again, a disconnect call for the lock, for both, and for its last signal. -/
inductive CallStage where
  | connecting
  | starting
  | storing (task : Nat)
  | connected
  | disconnecting
  | stopping
  | stopped
  | disconnected
  deriving DecidableEq

/-- A call, and whether it is a disconnect call that no connect call has
overlapped or followed. -/
structure Call where
  stage : CallStage
  alone : Bool
  deriving DecidableEq

structure World where
  inner : PluginInner := {}
  tasks : Nat → Option Task := fun _ => none
  nextTask : Nat := 0
  calls : Nat → Option Call := fun _ => none
  underWay : Finset Nat := ∅

def abort (w : World) : World :=
  match w.inner.connectionTask with
  | some t =>
    { w with
      inner := { w.inner with connectionTask := none }
      tasks := Function.update w.tasks t ((w.tasks t).map fun task => { task with aborted := true }) }
  | none => w

def setState (state : UInt32) (w : World) : World := { w with inner := { w.inner with state } }

def moveTo (c : Nat) (call : Call) (stage : CallStage) (w : World) : World :=
  { w with calls := Function.update w.calls c (some { call with stage }) }

def spawn (w : World) : World :=
  { w with tasks := Function.update w.tasks w.nextTask (some {}), nextTask := w.nextTask + 1 }

def resume (c : Nat) (call : Call) (w : World) : World :=
  match call.stage with
  | .connecting => moveTo c call .starting (setState stateStarting (abort w))
  | .starting => moveTo c call (.storing w.nextTask) (spawn w)
  | .storing t =>
    moveTo c call .connected
      { w with inner := { w.inner with connectionTask := some t }, underWay := w.underWay.erase c }
  | .disconnecting => moveTo c call .stopping (setState stateStopping w)
  | .stopping => moveTo c call .stopped (setState stateStopped (abort w))
  | .stopped => moveTo c call .disconnected w
  | .connected | .disconnected => w

inductive ClientStep where
  | report (event : ConnectionEvent)
  | finish (failed : Bool)

def Client.run (client : Client) : ClientStep → Client
  | .report event => if client.running then { client with events := client.events ++ [event] } else client
  | .finish failed => if client.running then { client with running := false, failed } else client

/-- What can happen next. A call arrives under a number that no other call has. -/
inductive Event where
  | connect (c : Nat)
  | disconnect (c : Nat)
  | resume (c : Nat)
  | poll (t : Nat) (delivered : Bool)
  | cancel (t : Nat)
  | client (t : Nat) (step : ClientStep)

def setTask (t : Nat) (task : Task) (w : World) : World :=
  { w with tasks := Function.update w.tasks t (some task) }

/-- An abort takes effect where the task waits. A task that has not run yet may
or may not run up to its first await. -/
def step (w : World) : Event → Unit × World
  | .connect c =>
    match w.calls c with
    | none =>
      let calls := fun i => (w.calls i).map fun call => { call with alone := false }
      ((), { w with calls := Function.update calls c (some ⟨.connecting, false⟩), underWay := insert c w.underWay })
    | some _ => ((), w)
  | .disconnect c =>
    match w.calls c with
    | none => ((), { w with calls := Function.update w.calls c (some ⟨.disconnecting, decide (w.underWay = ∅)⟩) })
    | some _ => ((), w)
  | .resume c =>
    match w.calls c with
    | some call => ((), resume c call w)
    | none => ((), w)
  | .poll t delivered =>
    match w.tasks t with
    | some task =>
      if task.aborted = true ∧ task.stage ≠ .spawned then ((), w)
      else
        let (task, inner) := task.poll delivered w.inner
        ((), setTask t task { w with inner })
    | none => ((), w)
  | .cancel t =>
    match w.tasks t with
    | some task => if task.aborted then ((), setTask t { task with stage := .finished } w) else ((), w)
    | none => ((), w)
  | .client t clientStep =>
    match w.tasks t with
    | some task => ((), setTask t { task with client := task.client.run clientStep } w)
    | none => ((), w)

end CoreVpn.Plugin.Tasks
