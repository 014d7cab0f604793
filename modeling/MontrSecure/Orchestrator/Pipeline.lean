import MontrSecure.Api.DastRoutes
import MontrSecure.Async.Lawful
import MontrSecure.Orchestrator.Controller
import MontrSecure.Orchestrator.Transport

/-!
# Pipeline

The orchestrator as a system of interleaved calls: the lifecycle calls of the controller, the
delivered layer jobs, and the authorize handler of the API, over the state store, the queues and the
layer runners. Any number of calls run at once; a crash loses the memory of the process and the
in-process queue, and a fresh controller takes over.
-/

namespace MontrSecure

open Async

/-! ## Calls and world -/

/-- What can be called. -/
inductive Call where
  | createScan (input : CreateScanInput) (id : ScanId)
  | start (scanId : ScanId)
  | pause (scanId : ScanId)
  | resume (scanId : ScanId)
  | cancel (scanId : ScanId)
  | kill (signal : KillSwitchSignal)
  /-- A kill signal that arrives over Redis. -/
  | remoteKill (signal : KillSwitchSignal)
  | approveGate (scanId : ScanId) (gate : Gate) (approver : EntityId)
  /-- The processor, invoked by the scheduler. -/
  | runLayerJob (job : LayerJobData)
  | authorizeScanDast (req : AuthorizeRequest)

/-- How an operation is answered, where the world has a choice. -/
inductive Choice where
  /-- It is carried out. -/
  | resolve
  /-- The store, the queue or the runner rejects. -/
  | reject (e : Err)
  /-- The runner returns. -/
  | output (raw : RawOutput)

/-- What happens outside every task. -/
inductive Env where
  /-- The clock is read as `now` from here on. -/
  | clock (now : IsoDateTime)
  /-- The runner task `n` waits for meters a call. -/
  | record (n : ℕ) (entry : MeterEntry)
  /-- A runner stores a pull request it has opened. -/
  | storePullRequest (pr : PullRequest)

/-- What lies outside the process. The in-process queue is here too, as the crash of the process is
what tells it from the durable ones. -/
structure World where
  db : Database := {}
  inline : InlineQueue := {}
  bull : LayerId → BullQueue := fun _ => {}
  /-- The kill signals published over Redis and not delivered. -/
  killChannel : List KillSwitchSignal := []

/-- The jobs that wait to be delivered. -/
def World.queuedJobs (w : World) : List LayerJobData :=
  w.inline.jobs ++ layerOrder.flatMap fun layer => (w.bull layer).waiting.map (·.job)

/-- A deployment: its configuration, its scheduler, and the runtime's `URL` class. -/
structure Deployment where
  config : MontrConfig
  transport : Transport := .inline
  hostOf : String → Option String := fun _ => none

/-- A task of the pipeline. -/
abbrev PipelineTask := Task Call Op Op.Ans Memory Err

namespace Deployment

/-! ## Hooks -/

/-- The program of a call. -/
def body (d : Deployment) : Call → Action Unit
  | .createScan input id => createScan input id
  | .start scanId => start d.config scanId
  | .pause scanId => pause d.config scanId
  | .resume scanId => resume d.config scanId
  | .cancel scanId => cancel d.config scanId
  | .kill signal => kill d.config signal
  | .remoteKill signal => handleRemoteKill d.config signal
  | .approveGate scanId gate approver => approveGate d.config scanId gate approver
  | .runLayerJob job => runLayerJob d.config job
  | .authorizeScanDast req => authorizeScanDast d.config d.hostOf req

/-- A job is delivered by its queue, a remote kill by the channel; any other call may come at any
time. -/
def enter (d : Deployment) (n : ℕ) (c : Call) (w : World) : Option World :=
  match c with
  | .runLayerJob job =>
    match d.transport with
    | .inline => (w.inline.take? n job).map fun inline => { w with inline }
    | .bullmq =>
      ((w.bull job.layer).take? n job).map fun q =>
        { w with bull := Function.update w.bull job.layer q }
  | .remoteKill signal =>
    match w.killChannel with
    | [] => none
    | s :: rest => if s = signal then some { w with killChannel := rest } else none
  | _ => some w

/-- `scheduler.enqueue`. -/
def enqueue (d : Deployment) (job : LayerJobData) (w : World) : World :=
  match d.transport with
  | .inline => { w with inline := w.inline.push job }
  | .bullmq => { w with bull := Function.update w.bull job.layer ((w.bull job.layer).add job) }

/-- What an operation does and how it is answered. The in-process scheduler never rejects. -/
def perform (d : Deployment) (op : Op) (ch : Choice) (m : Memory) (w : World) : World × op.Ans :=
  match op with
  | .store q =>
    match ch with
    | .reject e => (w, .error e)
    | _ =>
      match q.exec m.now w.db with
      | .ok (v, db) => ({ w with db }, .ok v)
      | .error e => (w, .error e)
  | .schedulerStart =>
    match d.transport, ch with
    | .bullmq, .reject e => (w, .error e)
    | _, _ => (w, .ok ())
  | .enqueue job _ =>
    match d.transport, ch with
    | .bullmq, .reject e => (w, .error e)
    | _, _ => (d.enqueue job w, .ok ())
  | .publishKill signal =>
    match d.transport, ch with
    | .bullmq, .reject e => (w, .error e)
    | .bullmq, _ => ({ w with killChannel := w.killChannel ++ [signal] }, .ok ())
    | .inline, _ => (w, .ok ())
  | .runLayer _ =>
    match ch with
    | .output raw => (w, .ok raw)
    | .reject e => (w, .error e)
    | .resolve => (w, .ok .malformed)
  | .sleep _ signal =>
    -- `realSleep` rejects as soon as the signal is aborted.
    match m.kills.reason? signal with
    | some reason => (w, .error reason)
    | none => (w, .ok ())
  | .tick => (w, .ok ())

/-- The end of a processor frees its queue. -/
def leave (d : Deployment) (n : ℕ) (c : Call) (res : Except Err Unit) (w : World) : World :=
  match c with
  | .runLayerJob job =>
    match d.transport with
    | .inline => { w with inline := w.inline.done n }
    | .bullmq =>
      { w with
        bull := Function.update w.bull job.layer
          ((w.bull job.layer).done n (retryPolicies job.layer).removeOnComplete res.isOk) }
  | _ => w

/-- What the environment does. Only a runner in flight meters calls, into the meter it was given. -/
def env (e : Env) (tasks : List PipelineTask) (m : Memory) (w : World) : Option (Memory × World) :=
  match e with
  | .clock now => some ({ m with now }, w)
  | .record n entry =>
    match (tasks[n]?).bind Task.awaiting with
    | some (.runLayer ctx) =>
      some ({ m with meterHeap := m.meterHeap.modify ctx.meter (·.record entry) }, w)
    | _ => none
  | .storePullRequest pr =>
    (w.db.pullRequests.insert? pr).map fun pullRequests =>
      (m, { w with db := { w.db with pullRequests } })

/-- What is left when the process stops: the database and the durable queues. -/
def crash (m : Memory) (w : World) : Memory × World :=
  ({ now := m.now }, { w with inline := {}, bull := fun layer => (w.bull layer).stall })

/-- The pipeline. -/
def system (d : Deployment) : System Call Op Op.Ans Choice Env Memory World Err where
  body := d.body
  enter := d.enter
  perform := fun _ _ => d.perform
  leave := d.leave
  env := env
  crash := crash

end Deployment

/-! ## Runs -/

/-- A configuration of the pipeline. -/
abbrev PipelineConfig := Config Call Op Op.Ans Env Memory World Err

/-- An event of the pipeline. -/
abbrev PipelineStep := Event Call Op Op.Ans Env Err

/-- Before anything has been called. -/
def initialConfig : PipelineConfig := { mem := {}, world := {}, tasks := [], history := [] }

/-- The configurations the runs of a deployment reach when every step meets `ok`. -/
abbrev Deployment.Reaches (d : Deployment) (ok : PipelineConfig → PipelineStep → Prop)
    (cfg : PipelineConfig) : Prop :=
  Reachable d.system ok initialConfig cfg

end MontrSecure
