import MontrSecure.Orchestrator.Fsm

/-!
# Job transports

The queues behind the two schedulers of `packages/orchestrator`. `InlineJobScheduler`
(`scheduler.ts`) is one FIFO queue in the process, drained one job at a time.
`BullMqJobScheduler` (`bullmq-scheduler.ts`) has a durable queue and a worker for each layer; the
id of a job is its idempotency key, and adding a job whose id the queue still holds, in any state,
does nothing.
-/

namespace MontrSecure

/-- Which scheduler delivers the jobs. -/
inductive Transport where
  | inline
  | bullmq
  deriving DecidableEq

/-! ## In-process queue -/

/-- The queue of `InlineJobScheduler`. -/
structure InlineQueue where
  jobs : List LayerJobData := []
  /-- The task that processes the job shifted last. -/
  draining : Option ℕ := none

namespace InlineQueue

/-- `enqueue`. -/
def push (q : InlineQueue) (job : LayerJobData) : InlineQueue := { q with jobs := q.jobs ++ [job] }

/-- Task `n` is started on `job`, the head of the queue, when nothing is being processed. -/
def take? (q : InlineQueue) (n : ℕ) (job : LayerJobData) : Option InlineQueue :=
  match q.draining, q.jobs with
  | none, head :: rest => if head = job then some { jobs := rest, draining := some n } else none
  | _, _ => none

/-- Task `n` is done. -/
def done (q : InlineQueue) (n : ℕ) : InlineQueue :=
  if q.draining = some n then { q with draining := none } else q

end InlineQueue

/-! ## Durable queue -/

/-- A job in a durable queue, with how often its worker has been lost. -/
structure HeldJob where
  job : LayerJobData
  stalls : ℕ := 0

/-- The id a job is held under. -/
def HeldJob.jobId (held : HeldJob) : String := held.job.idempotencyKey

/-- `maxStalledCount`. -/
def maxStalledCount : ℕ := 1

/-- The queue of one layer, with the ids of the finished jobs it retains, latest first. -/
structure BullQueue where
  waiting : List HeldJob := []
  /-- The jobs being processed, each with its task. -/
  active : List (ℕ × HeldJob) := []
  completed : List String := []
  failed : List String := []

namespace BullQueue

/-- The queue holds a job with this id, in whatever state. -/
def holds (q : BullQueue) (jobId : String) : Bool :=
  q.waiting.any (·.jobId = jobId) || q.active.any (·.2.jobId = jobId) ||
    q.completed.contains jobId || q.failed.contains jobId

/-- `Queue.add` with the idempotency key as `jobId`. -/
def add (q : BullQueue) (job : LayerJobData) : BullQueue :=
  if q.holds job.idempotencyKey then q else { q with waiting := q.waiting ++ [{ job }] }

/-- The worker, when idle, takes `job` from the head of the queue as task `n`. -/
def take? (q : BullQueue) (n : ℕ) (job : LayerJobData) : Option BullQueue :=
  match q.active, q.waiting with
  | [], head :: rest =>
    if head.job = job then some { q with waiting := rest, active := [(n, head)] } else none
  | _, _ => none

/-- The processor of task `n` has returned or thrown. `removeOnComplete` bounds how many completed
jobs are retained; failed ones all are. -/
def done (q : BullQueue) (n : ℕ) (removeOnComplete : Option ℕ) (ok : Bool) : BullQueue :=
  let finished := (q.active.filter (·.1 = n)).map (·.2.jobId)
  let active := q.active.filter (·.1 ≠ n)
  if ok then
    let completed := finished ++ q.completed
    { q with
      active
      completed := match removeOnComplete with | none => completed | some k => completed.take k }
  else { q with active, failed := finished ++ q.failed }

/-- The worker is lost: each job it was processing is delivered once more, then given up. -/
def stall (q : BullQueue) : BullQueue :=
  let lost := q.active.map (·.2)
  { q with
    waiting :=
      (lost.filter (·.stalls < maxStalledCount)).map (fun h => { h with stalls := h.stalls + 1 }) ++
        q.waiting
    active := []
    failed := (lost.filter (maxStalledCount ≤ ·.stalls)).map (·.jobId) ++ q.failed }

end BullQueue

end MontrSecure
