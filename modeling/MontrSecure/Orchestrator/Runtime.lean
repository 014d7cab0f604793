import MontrSecure.Async.Asking
import MontrSecure.Async.Program
import MontrSecure.CostMeter.Meter
import MontrSecure.Orchestrator.Fsm
import MontrSecure.Orchestrator.KillSwitch
import MontrSecure.StateStore.Repositories

/-!
# What the controller runs on

The operations the orchestrator awaits, the memory of its process, and the small actions the
controller is written with. Meters are cells of a heap, as a runner keeps its reference to one after
the controller has dropped it from its map.
-/

namespace MontrSecure

open Async

/-! ## Operations -/

/-- A meter: the number of its cell. -/
abbrev MeterRef := ℕ

/-- `PriorOutputs`: the cached outputs of the layers of a scan. -/
abbrev PriorOutputs := LayerId → Option LayerOutput

/-- `LayerContext`: what a runner is given. -/
structure LayerContext where
  scan : Scan
  job : LayerJobData
  meter : MeterRef
  signal : SignalId
  /-- 0-based. -/
  attempt : ℕ
  priorOutputs : PriorOutputs

/-- What the orchestrator awaits. -/
inductive Op where
  /-- An operation of the state store. -/
  | store (q : StoreOp)
  /-- `scheduler.start()`. -/
  | schedulerStart
  /-- `scheduler.enqueue(job, policy)`. -/
  | enqueue (job : LayerJobData) (policy : RetryPolicy)
  /-- `scheduler.publishKill(signal)`. -/
  | publishKill (signal : KillSwitchSignal)
  /-- One attempt of a layer runner. -/
  | runLayer (ctx : LayerContext)
  /-- `sleep(ms, signal)`, the backoff before a retry. -/
  | sleep (ms : ℕ) (signal : SignalId)
  /-- The await of an async function that may not have awaited anything itself. -/
  | tick

/-- What an operation resolves to. -/
abbrev Op.Val : Op → Type
  | .store q => q.Val
  | .runLayer _ => RawOutput
  | _ => Unit

/-- How an operation is answered: it resolves or it rejects. -/
abbrev Op.Ans (op : Op) : Type := Except Err op.Val

/-! ## Memory -/

/-- `BudgetContext`. -/
structure BudgetContext where
  meter : MeterRef
  policy : BudgetPolicy

/-- The memory of the controller's process. -/
structure Memory where
  /-- What the clock of the process reads. -/
  now : IsoDateTime := 0
  kills : KillRegistry := {}
  meterHeap : List LiveCostMeter := []
  meters : ScanId → Option MeterRef := fun _ => none
  caches : ScanId → Option PriorOutputs := fun _ => none
  budgetWarned : List ScanId := []
  scanClient : ScanId → Option ClientId := fun _ => none
  schedulerStarted : Bool := false
  budgetRegistry : ScanId → Option BudgetContext := fun _ => none
  /-- The events emitted, latest first. -/
  emitted : List PipelineEvent := []
  /-- The scans whose stream has ended. -/
  ended : List ScanId := []

/-- An asynchronous action of the orchestrator. -/
abbrev Action (α : Type) : Type := Program Op Op.Ans Memory Err α

namespace Action

/-- A settled result. -/
def ofExcept {α : Type} : Except Err α → Action α
  | .ok a => pure a
  | .error e => Program.throw e

/-- Await an operation; its rejection is thrown. -/
def ask (op : Op) : Action op.Val := do
  ofExcept (← (Program.await op : Action op.Ans))

/-- Await an operation of the state store. -/
def store (q : StoreOp) : Action q.Val := ask (.store q)

/-- Run an action and keep what it throws. -/
def attempt {α : Type} (p : Action α) : Action (Except Err α) :=
  Program.tryCatch (do return .ok (← p)) fun e => pure (.error e)

/-- Await an async function: the caller goes on one turn after the function has returned. -/
def call {α : Type} (p : Action α) : Action α := do
  let a ← p
  ask .tick
  return a

/-- `nowIso`. -/
def nowIso : Action IsoDateTime := do return (← Program.get).now

/-- `emit`. -/
def emit (event : PipelineEvent) : Action Unit :=
  Program.modify fun m => { m with emitted := event :: m.emitted }

/-- `kills.isKilled`. -/
def isKilled (scanId : ScanId) : Action Bool := do return (← Program.get).kills.isKilled scanId

/-- `kills.register`, where the controller is not used. -/
def register (scanId : ScanId) : Action Unit :=
  Program.modify fun m => { m with kills := (m.kills.register scanId).1 }

/-- `kills.signalFor`. -/
def signalFor (scanId : ScanId) : Action SignalId := do
  let (kills, signal) := (← Program.get).kills.signalFor scanId
  Program.modify fun m => { m with kills }
  return signal

/-- `signal.aborted`, with the reason. -/
def abortReason? (signal : SignalId) : Action (Option Err) := do
  return (← Program.get).kills.reason? signal

/-- `safeAudit`: what the audit log rejects is dropped. -/
def safeAudit (input : AuditEventInput) : Action Unit :=
  Program.tryCatch (store (.auditAppend input)) fun _ => pure ()

/-- `resolveClientId`. -/
def resolveClientId (config : MontrConfig) (scanId : ScanId) : Action ClientId := do
  return ((← Program.get).scanClient scanId).getD config.clientId

/-- `scanClient.set`. -/
def setScanClient (scanId : ScanId) (clientId : ClientId) : Action Unit :=
  Program.modify fun m => { m with scanClient := Function.update m.scanClient scanId (some clientId) }

/-- `load`. -/
def load (config : MontrConfig) (scanId : ScanId) : Action Scan := do
  let clientId ← resolveClientId config scanId
  match ← store (.scansGet clientId scanId) with
  | none => Program.throw (.internal s!"scan not found: {scanId}")
  | some scan =>
    setScanClient scanId scan.clientId
    return scan

/-- `getMeter`: the meter of the scan, created when there is none. -/
def getMeter (scanId : ScanId) : Action MeterRef := do
  let m ← Program.get
  match m.meters scanId with
  | some meter => return meter
  | none =>
    let meter := m.meterHeap.length
    Program.modify fun m =>
      { m with
        meterHeap := m.meterHeap ++ [createCostMeter scanId m.now]
        meters := Function.update m.meters scanId (some meter) }
    return meter

/-- The cell of a meter. -/
def readMeter (meter : MeterRef) : Action (Option LiveCostMeter) := do
  return (← Program.get).meterHeap[meter]?

/-- `getCache`: the cache of the scan, created when there is none. -/
def getCache (scanId : ScanId) : Action PriorOutputs := do
  let m ← Program.get
  match m.caches scanId with
  | some cache => return cache
  | none =>
    Program.modify fun m =>
      { m with caches := Function.update m.caches scanId (some fun _ => none) }
    return fun _ => none

/-- `cache.layer<n> = out`. -/
def cacheOutput (scanId : ScanId) (out : LayerOutput) : Action Unit :=
  Program.modify fun m =>
    { m with
      caches := Function.update m.caches scanId
        ((m.caches scanId).map fun cache => Function.update cache out.layer (some out)) }

/-- `budgetRegistry.register`. -/
def registerBudget (scanId : ScanId) (meter : MeterRef) (policy : BudgetPolicy) : Action Unit :=
  Program.modify fun m =>
    { m with budgetRegistry := Function.update m.budgetRegistry scanId (some { meter, policy }) }

/-- `safeActual`: what the meter of the scan has metered, if there is one. -/
def safeActual (scanId : ScanId) : Action (Option CostActual) := do
  let m ← Program.get
  return (m.meters scanId).bind fun meter => (m.meterHeap[meter]?).map (·.actual m.now)

/-- `cleanup`: forget what the process holds of a scan. -/
def cleanup (scanId : ScanId) : Action Unit :=
  Program.modify fun m =>
    { m with
      meters := Function.update m.meters scanId none
      caches := Function.update m.caches scanId none
      budgetWarned := m.budgetWarned.filter (· ≠ scanId)
      budgetRegistry := Function.update m.budgetRegistry scanId none
      kills := m.kills.clear scanId
      ended := scanId :: m.ended }

/-- `ensureSchedulerStarted`. -/
def ensureSchedulerStarted : Action Unit := do
  if (← Program.get).schedulerStarted then pure ()
  else
    Program.modify fun m => { m with schedulerStarted := true }
    ask .schedulerStart

end Action

end MontrSecure

/-!
## Persisting the output of a layer

`packages/orchestrator/src/persist.ts`. The source mutates the scan object it is given, and the
object stays mutated when a later write of the same layer fails; `persistLayerOutput` therefore
gives back the scan in either case, with the error if there was one.
-/

namespace MontrSecure

open Async Action

/-- Run the writes of a layer that leaves the scan object alone. -/
def settle (scan : Scan) (p : Action Unit) : Action (Scan × Option Err) := do
  match ← attempt p with
  | .ok () => return (scan, none)
  | .error e => return (scan, some e)

/-- Write rows, if there are any. -/
def whenNonempty {α : Type} (rows : List α) (p : Action Unit) : Action Unit :=
  if rows.isEmpty then pure () else p

/-- What Layer 0 writes into the scan object. -/
def scanAfterIntake (scan : Scan) (out : Layer0Output) : Scan :=
  { scan with
    appMapId := some out.appMap.id
    costEstimate := some out.costEstimate
    scope := out.scope
    commitSha := if out.appMap.commitSha ≠ "" then some out.appMap.commitSha else scan.commitSha }

/-- The writes of Layer 4: each fix is created in turn. -/
def createFixes (clientId : ClientId) : List Fix → Action Unit
  | [] => pure ()
  | fix :: fixes => do
    let _ ← store (.fixesCreate clientId fix)
    createFixes clientId fixes

/-- Link one fix to the pull request that was opened for it. -/
def linkFix (clientId : ClientId) (prId fixId : EntityId) : Action Unit := do
  match ← store (.fixesGet clientId fixId) with
  | none => pure ()
  | some fix =>
    let _ ← store (.fixesUpdate clientId { fix with status := .prOpen, pullRequestId := some prId })
    pure ()

/-- The writes of Layer 5, for the pairs of a pull request and a fix it lists. -/
def linkFixes (clientId : ClientId) : List (EntityId × EntityId) → Action Unit
  | [] => pure ()
  | (prId, fixId) :: links => do
    linkFix clientId prId fixId
    linkFixes clientId links

/-- The pairs the loops of Layer 5 go through, in order. -/
def fixLinks (pullRequests : List PullRequest) : List (EntityId × EntityId) :=
  pullRequests.flatMap fun pr => pr.fixIds.map fun fixId => (pr.id, fixId)

/-- `persistLayerOutput`. -/
def persistLayerOutput (clientId : ClientId) (layer : LayerId) (rawOutput : RawOutput)
    (scan : Scan) : Action (Scan × Option Err) :=
  match rawOutput.parse layer with
  | .error e => pure (scan, some e)
  | .ok (.layer0 out) => do
    match ← attempt (store (.appMapsCreate clientId out.appMap)) with
    | .error e => return (scan, some e)
    | .ok _ =>
      settle (scanAfterIntake scan out) do
        let _ ← store (.scansUpdate clientId (scanAfterIntake scan out))
        cacheOutput scan.id (.layer0 out)
  | .ok (.layer1 out) =>
    settle scan do
      whenNonempty out.candidates (store (.candidatesBulkCreate clientId out.candidates))
      cacheOutput scan.id (.layer1 out)
  | .ok (.layer2 out) =>
    settle scan do
      whenNonempty out.probable (store (.probableBulkCreate clientId out.probable))
      cacheOutput scan.id (.layer2 out)
  | .ok (.layer3 out) =>
    settle scan do
      whenNonempty out.confirmed (store (.confirmedBulkCreate clientId out.confirmed))
      whenNonempty out.unconfirmed (store (.unconfirmedBulkCreate clientId out.unconfirmed))
      cacheOutput scan.id (.layer3 out)
  | .ok (.layer4 out) =>
    settle scan do
      createFixes clientId out.fixes
      cacheOutput scan.id (.layer4 out)
  | .ok (.layer5 out) =>
    settle scan do
      linkFixes clientId (fixLinks out.pullRequests)
      cacheOutput scan.id (.layer5 out)

end MontrSecure

/-!
## Retry and backoff

`packages/orchestrator/src/retry.ts`. The loop stops at once when the signal is aborted.
-/

namespace MontrSecure

open Async Action

/-- `isRetriable`: an untyped error is transient. -/
def isRetriable : Err → Bool
  | .montr _ _ retriable => retriable
  | .other _ => true

/-- `backoffDelayMs`. -/
def backoffDelayMs (policy : RetryPolicy) (retryIndex : ℕ) : ℕ :=
  match policy.backoffType with
  | .exponential => policy.backoffDelay * 2 ^ retryIndex
  | .fixed => policy.backoffDelay

/-- The loop of `runWithRetry` from attempt `i` on, with `left` attempts after it. -/
def retryFrom {α : Type} (policy : RetryPolicy) (signal : SignalId) (fn : ℕ → Action α) :
    ℕ → ℕ → Action α
  | left, i => do
    match ← abortReason? signal with
    | some reason => Program.throw reason
    | none =>
      match ← attempt (fn i) with
      | .ok a => return a
      | .error err =>
        if (← abortReason? signal).isSome || !isRetriable err then Program.throw err
        else
          match left with
          | 0 => Program.throw err
          | left + 1 =>
            ask (.sleep (backoffDelayMs policy i) signal)
            retryFrom policy signal fn left (i + 1)

/-- `runWithRetry`: at least one attempt. -/
def runWithRetry {α : Type} (policy : RetryPolicy) (signal : SignalId) (fn : ℕ → Action α) :
    Action α :=
  retryFrom policy signal fn (policy.attempts - 1) 0

/-! ## Attempts in general -/

theorem attempt_eq {α : Type} (p : Action α) : Action.attempt p = Program.attempt p := by
  funext m
  show ((p m).bind fun a m => .ret m (.ok a)).tryCatch _ = (p m).attempt
  induction p m with
  | ret m a => rfl
  | throw m e => rfl
  | await m op k ih =>
    simp only [Outcome.bind, Outcome.tryCatch, Outcome.attempt]
    congr 1
    funext r m'
    exact ih r m'

theorem ask_eq (op : Op) : Action.ask op = Program.ask op := by
  funext m
  show Outcome.await m op _ = Outcome.await m op _
  congr 1
  funext r m'
  cases r <;> rfl

/-- The loop is that of attempts in general. -/
theorem retryFrom_eq {α : Type} (policy : RetryPolicy) (signal : SignalId) (fn : ℕ → Action α) (left i : ℕ) :
    retryFrom policy signal fn left i =
      Program.retryFrom (fun m => m.kills.reason? signal) isRetriable
        (fun k => .sleep (backoffDelayMs policy k) signal) fn left i := by
  induction left generalizing i with
  | zero =>
    funext m
    rw [retryFrom, Program.retryFrom, attempt_eq]
    simp only [abortReason?, Program.bind_apply, Program.get_apply, Program.pure_apply, Outcome.bind]
    cases m.kills.reason? signal with
    | some reason => rfl
    | none =>
      dsimp only
      rw [Program.bind_apply, Program.bind_apply]
      congr 1
      funext res
      cases res <;> rfl
  | succ left ih =>
    funext m
    rw [retryFrom, Program.retryFrom, attempt_eq]
    simp only [abortReason?, Program.bind_apply, Program.get_apply, Program.pure_apply, Outcome.bind]
    cases m.kills.reason? signal with
    | some reason => rfl
    | none =>
      dsimp only
      rw [Program.bind_apply, Program.bind_apply]
      congr 1
      funext res
      cases res with
      | ok a => rfl
      | error e =>
        dsimp only
        rw [ih, ask_eq]
        rfl

end MontrSecure
