import MontrSecure.Orchestrator.Pipeline
import MontrSecure.Orchestrator.Stage
import MontrSecure.Orchestrator.Walk

/-!
# The protocol of the orchestrator

What each call may do at each of its awaits, said once for all calls: which rows it writes over
which, which checkpoints it saves, which jobs it schedules, when it makes an attempt of a runner,
and how its segments change the kill registry. `Issues` and `KillsStep` are the two halves;
`pipelineProtocol` puts them together. That the programs of the controller keep to it is proved in
`Orchestrator/Lifecycle.lean` and `Orchestrator/Processor.lean`.
-/

namespace MontrSecure

open Async

/-- The scan a call is about, where the call names one. -/
def Call.scanId? : Call → Option ScanId
  | .start scanId | .pause scanId | .resume scanId | .cancel scanId
  | .approveGate scanId _ _ => some scanId
  | .runLayerJob job => some job.scanId
  | .authorizeScanDast req => some req.scanId
  | .createScan .. | .kill _ | .remoteKill _ => none

/-! ## Rows -/

/-- `new` is a later state of the scan `old` is a state of: what no call changes is the same. -/
structure Scan.Extends (new old : Scan) : Prop where
  id : new.id = old.id
  clientId : new.clientId = old.clientId
  budgetPolicy : new.budgetPolicy = old.budgetPolicy

@[simp]
theorem Scan.extends_iff {new old : Scan} :
    new.Extends old ↔
      new.id = old.id ∧ new.clientId = old.clientId ∧ new.budgetPolicy = old.budgetPolicy :=
  ⟨fun h => ⟨h.1, h.2, h.3⟩, fun h => ⟨h.1, h.2.1, h.2.2⟩⟩

/-- The scan is neither over nor paused: the processor goes on with it. -/
def Scan.Live (scan : Scan) : Prop := isTerminalStatus scan.status = false ∧ scan.status ≠ .paused

/-- A row with this gate has been read. -/
def ReadAt (gate : GateState) (tr : OpTrace) : Prop :=
  ∃ x ∈ tr, ∃ row : Scan, OpAwait.readRow? x = some row ∧ row.gateState = gate ∧
    isTerminalStatus row.status = false

/-- `Writes config tr old c status gate`: after the awaits `tr`, a call `c` that holds the row `old`
may write it back with this status and this gate. -/
inductive Writes (config : MontrConfig) (tr : OpTrace) (old : Scan) :
    Call → ScanStatus → GateState → Prop where
  | start {s} (hstatus : old.status = .queued) : Writes config tr old (.start s) .running old.gateState
  | pause {s} (hstatus : isTerminalStatus old.status = false) :
      Writes config tr old (.pause s) .paused old.gateState
  | resumed {s} (hcompleted : old.status ≠ .completed) (hcancelled : old.status ≠ .cancelled) :
      Writes config tr old (.resume s) .running old.gateState
  | resumeEnters {s token} (htoken : tokenOf tr = some token)
      (hnext : nextLayer (completedLayers token) = some .layer1)
      (hgate : isPendingGate old.gateState = false) (hstatus : old.status = .running) :
      Writes config tr old (.resume s) old.status .running
  | resumeCompletes {s token} (htoken : tokenOf tr = some token)
      (hnext : nextLayer (completedLayers token) = none)
      (hgate : isPendingGate old.gateState = false) :
      Writes config tr old (.resume s) .completed old.gateState
  | cancel {s} (hstatus : isTerminalStatus old.status = false) :
      Writes config tr old (.cancel s) .cancelled
        (if isPendingGate old.gateState then .rejected else old.gateState)
  | kill {signal} (hstatus : isTerminalStatus old.status = false) :
      Writes config tr old (.kill signal) .cancelled .blocked
  | remoteKill {signal} (hstatus : isTerminalStatus old.status = false) :
      Writes config tr old (.remoteKill signal) .cancelled .blocked
  | approvesEstimate {s approver} (hread : ReadAt .estimatePending tr) :
      Writes config tr old (.approveGate s .estimate approver) .running .estimateApproved
  | approvalEnters {s approver} (hread : ReadAt .estimatePending tr)
      (hstatus : old.status = .running) :
      Writes config tr old (.approveGate s .estimate approver) .running .running
  | approvesFix {s approver} (hread : ReadAt .fixGatePending tr)
      (hstatus : isTerminalStatus old.status = false) :
      Writes config tr old (.approveGate s .fix approver) old.status .approved
  | persists {job} (hstage : stageOf tr = .persisting) :
      Writes config tr old (.runLayerJob job) old.status old.gateState
  | fails {job}
      (hstage : stageOf tr = .failing ∨ stageOf tr = .persisted ∨ stageOf tr = .lost) :
      Writes config tr old (.runLayerJob job) .failed old.gateState
  | halts {job} (hstage : stageOf tr = .exceeded) :
      Writes config tr old (.runLayerJob job) .partialReport .blocked
  | presents {job} (hstage : stageOf tr = .advancing) (hlayer : job.layer = .layer0)
      (hgate : estimateGateRequired old config = true) :
      Writes config tr old (.runLayerJob job) old.status .estimatePending
  | skipsEstimate {job} (hstage : stageOf tr = .advancing) (hlayer : job.layer = .layer0)
      (hgate : estimateGateRequired old config = false) :
      Writes config tr old (.runLayerJob job) old.status .estimateApproved
  | enters {job} (hstage : stageOf tr = .advancing) (hlayer : job.layer = .layer0)
      (hgate : estimateGateRequired old config = false) :
      Writes config tr old (.runLayerJob job) old.status .running
  | fixPending {job fixes} (hstage : stageOf tr = .advancing) (hlayer : job.layer = .layer4)
      (hfixes : fixesOf tr = some fixes)
      (hopen : (evaluateFixGate fixes config).wouldOpenPrs = true)
      (happrover : config.rbac.approverRequiredForGate = true) :
      Writes config tr old (.runLayerJob job) old.status .fixGatePending
  | autoApproves {job fixes} (hstage : stageOf tr = .advancing) (hlayer : job.layer = .layer4)
      (hfixes : fixesOf tr = some fixes)
      (hopen : (evaluateFixGate fixes config).wouldOpenPrs = true →
        config.rbac.approverRequiredForGate = false) :
      Writes config tr old (.runLayerJob job) old.status .autoApproved
  | completes {job} (hstage : stageOf tr = .advancing) (hlayer : job.layer = .layer5) :
      Writes config tr old (.runLayerJob job) .completed old.gateState
  | authorizes {req} : Writes config tr old (.authorizeScanDast req) old.status old.gateState

/-! ## Checkpoints and jobs -/

/-- `Saves tr c token`: after the awaits `tr`, a call `c` may save this checkpoint. -/
inductive Saves (tr : OpTrace) : Call → ResumeToken → Prop where
  | start {s token} (hempty : token.completedLayers = []) : Saves tr (.start s) token
  | advances {job existing now} (htoken : tokenOf tr = some existing) :
      Saves tr (.runLayerJob job) (advancedToken existing job.scanId job.layer now)

/-- `Schedules config tr row c job`: after the awaits `tr`, a call `c` that holds the row `row` may
schedule this job. -/
inductive Schedules (config : MontrConfig) (tr : OpTrace) (row : Scan) :
    Call → LayerJobData → Prop where
  | start {s job} (hlayer : job.layer = .layer0) : Schedules config tr row (.start s) job
  | resume {s job token} (htoken : tokenOf tr = some token)
      (hnext : nextLayer (completedLayers token) = some job.layer)
      (hgate : isPendingGate row.gateState = false)
      (henters : job.layer = .layer1 → row.gateState = .running)
      (hauto : job.autoApply ≠ some true) : Schedules config tr row (.resume s) job
  | estimateApproved {s approver job} (hread : ReadAt .estimatePending tr)
      (hlayer : job.layer = .layer1) :
      Schedules config tr row (.approveGate s .estimate approver) job
  | fixApproved {s approver job} (hread : ReadAt .fixGatePending tr)
      (hlayer : job.layer = .layer5) (hauto : job.autoApply = some true) :
      Schedules config tr row (.approveGate s .fix approver) job
  | afterIntake {j job} (hj : j.layer = .layer0) (hlayer : job.layer = .layer1)
      (hgate : estimateGateRequired row config = false) :
      Schedules config tr row (.runLayerJob j) job
  | afterLayer {j job} (hj : j.layer = .layer1 ∨ j.layer = .layer2 ∨ j.layer = .layer3)
      (hlayer : layerAfter j.layer = some job.layer) :
      Schedules config tr row (.runLayerJob j) job
  | afterFixes {j job fixes} (hj : j.layer = .layer4) (hlayer : job.layer = .layer5)
      (hfixes : fixesOf tr = some fixes)
      (hauto : job.autoApply = some (evaluateFixGate fixes config).wouldOpenPrs)
      (hopen : (evaluateFixGate fixes config).wouldOpenPrs = true →
        config.rbac.approverRequiredForGate = false) :
      Schedules config tr row (.runLayerJob j) job

/-! ## Memory -/

/-- The scan whose in-process state is dropped once this await is over: `cleanup` comes right after
the audit record that a scan has completed or has been cancelled. -/
def cleansUp : OpTrace → Option ScanId
  | ⟨_, .store (.auditAppend input), _⟩ :: _ =>
    if input.action = .scanCompleted ∨ input.action = .scanCancelled then input.scanId else none
  | _ => none

example : cleansUp [] = none := by decide +kernel

/-- How a segment changes the kill registry. -/
inductive KillsStep (tr : OpTrace) (kills : KillRegistry) : KillRegistry → Prop where
  | keep : KillsStep tr kills kills
  | register (scanId : ScanId) : KillsStep tr kills (kills.register scanId).1
  | signalFor (scanId : ScanId) : KillsStep tr kills (kills.signalFor scanId).1
  | abortScan (scanId : ScanId) (reason : String) :
      KillsStep tr kills (kills.abortScan scanId reason)
  | abortAll (reason : String) : KillsStep tr kills (kills.abortAll reason)
  | clear {scanId : ScanId} (h : cleansUp tr = some scanId) : KillsStep tr kills (kills.clear scanId)

/-- The runner may be given `ctx` in a segment that takes the registry from `kills` to `kills'`: a
first attempt with the signal the registry gives, a retry with the signal it had, and either only
while the signal is not aborted. -/
structure Attempts (tr : OpTrace) (kills kills' : KillRegistry) (ctx : LayerContext) : Prop where
  row : rowOf tr = some ctx.scan
  live : ctx.scan.Live
  signal : contextOf tr = none ∧ kills.signalFor ctx.job.scanId = (kills', ctx.signal) ∨
    kills' = kills ∧ ∃ ctx', contextOf tr = some ctx' ∧ ctx'.signal = ctx.signal ∧
      ctx'.meter = ctx.meter
  notAborted : kills'.aborted ctx.signal = false

/-- The meter in memory `m` of the job of trace `tr` stands above the ceiling of a policy that halts
the scan there. -/
def HardHalts (config : MontrConfig) (m : Memory) (tr : OpTrace) : Prop :=
  ∃ ctx row meter, contextOf tr = some ctx ∧ rowOf tr = some row ∧
    m.meterHeap[ctx.meter]? = some meter ∧
    (effectiveBudgetPolicy row config).enforcement = .hardHalt ∧
    (meter.checkBudget (effectiveBudgetPolicy row config)).exceeded = true

/-- The budget guard, which has looked at the meter in the segment that began after the awaits it
names, lets the scan go on. -/
def LetsGoOn (config : MontrConfig) (tr : OpTrace) (m : Memory) : Prop :=
  match stageOf tr, tr with
  | .checking, _ => ¬HardHalts config m tr
  | .warned, x :: tr' => ¬HardHalts config x.mem tr'
  | .exceeded, _ => ∃ row, rowOf tr = some row ∧
      (effectiveBudgetPolicy row config).enforcement = .warn
  | _, _ => True

/-! ## The protocol -/

/-- What may be assumed of an answer. -/
def Answers (op : Op) (r : op.Ans) : Prop :=
  match op, r with
  | .store (.scansGet clientId id), .ok (some row) => row.id = id ∧ row.clientId = clientId
  | .store (.resumeGet _ scanId), .ok (some token) => token.scanId = scanId
  | .store (.fixesGet _ id), .ok (some fix) => fix.id = id
  | .tick, r => r = .ok ()
  | _, _ => True

/-- A call `c` that has completed the awaits `tr` and whose segment took the memory from `m₀` to `m`
may issue this operation. -/
def Issues (config : MontrConfig) (c : Call) (tr : OpTrace) (m₀ m : Memory) : Op → Prop
  | .store (.scansCreate clientId scan) =>
    ∃ input id, c = .createScan input id ∧ clientId = input.clientId ∧
      scan = newScan input id m₀.now
  | .store (.scansGet clientId id) =>
    (∀ s, c.scanId? = some s → id = s) ∧ ∀ job, c = .runLayerJob job → clientId = job.clientId
  | .store (.scansUpdate clientId row) =>
    ∃ old, rowOf tr = some old ∧ clientId = old.clientId ∧ row.Extends old ∧
      ((∃ job, c = .runLayerJob job) → old.Live) ∧
      Writes config tr old c row.status row.gateState
  | .store (.resumeGet clientId scanId) =>
    ∃ row, rowOf tr = some row ∧ clientId = row.clientId ∧ scanId = row.id
  | .store (.resumeSave clientId token) =>
    ∃ row, rowOf tr = some row ∧ clientId = row.clientId ∧ token.scanId = row.id ∧ Saves tr c token
  | .store (.fixesListByScan clientId scanId) =>
    ∃ row, rowOf tr = some row ∧ clientId = row.clientId ∧ scanId = row.id ∧
      ∃ job, c = .runLayerJob job ∧ job.layer = .layer4
  | .store (.fixesUpdate clientId fix) =>
    ∃ m' fix', tr.head? = some ⟨m', .store (.fixesGet clientId fix.id), .ok (some fix')⟩ ∧
      fix'.riskClass = fix.riskClass
  | .enqueue job _ =>
    ∃ row, rowOf tr = some row ∧ job.scanId = row.id ∧ job.clientId = row.clientId ∧
      job.idempotencyKey = buildIdempotencyKey row.id job.layer ∧ Schedules config tr row c job
  | .publishKill signal =>
    c = .kill signal ∧ tr = [] ∧
      match signal.scope with
      | .global => m.kills = m₀.kills.abortAll signal.reason
      | .scan => ∃ scanId, signal.scanId = some scanId ∧
          m.kills = m₀.kills.abortScan scanId signal.reason
  | .runLayer ctx => c = .runLayerJob ctx.job ∧ Attempts tr m₀.kills m.kills ctx
  | .sleep _ signal =>
    m.kills = m₀.kills ∧ m.kills.aborted signal = false ∧
      ∃ ctx, contextOf tr = some ctx ∧ signal = ctx.signal
  | .tick => (∃ job, c = .runLayerJob job) → LetsGoOn config tr m
  | _ => True

/-- The protocol of a call. -/
def pipelineProtocol (config : MontrConfig) (c : Call) : Protocol Op Op.Ans Memory where
  answers := Answers
  awaits tr m₀ m op :=
    (∀ job, c = .runLayerJob job → (stageOf tr).issues op = true) ∧
      KillsStep tr m₀.kills m.kills ∧ Issues config c tr m₀ m op
  ends tr m₀ m := KillsStep tr m₀.kills m.kills

/-! ## Introduction rules -/

section Rules

variable {config : MontrConfig} {c : Call} {tr : OpTrace} {m₀ m : Memory} {op : Op}

/-- A call that is not a layer job has no stages to keep to. -/
theorem awaits_of_ne (hc : ∀ job, c ≠ .runLayerJob job) (hkills : KillsStep tr m₀.kills m.kills)
    (h : Issues config c tr m₀ m op) : (pipelineProtocol config c).awaits tr m₀ m op :=
  ⟨fun job hjob => absurd hjob (hc job), hkills, h⟩

theorem awaits_of_stage {job : LayerJobData}
    (hstage : (stageOf tr).issues op = true) (hkills : KillsStep tr m₀.kills m.kills)
    (h : Issues config (.runLayerJob job) tr m₀ m op) :
    (pipelineProtocol config (.runLayerJob job)).awaits tr m₀ m op :=
  ⟨fun _ _ => hstage, hkills, h⟩

/-- Awaiting an async function adds one turn. -/
theorem follows_call {α : Type} {p : Action α} {post : OpTrace → Memory → Memory → α → Prop}
    {exc : OpTrace → Memory → Memory → Err → Prop}
    (h : (p m).Follows (pipelineProtocol config c)
      (fun tr m₀ m a => (pipelineProtocol config c).awaits tr m₀ m .tick ∧
        ∀ m', post (⟨m, .tick, .ok ()⟩ :: tr) m' m' a) exc tr m₀) :
    (Action.call p m).Follows (pipelineProtocol config c) post exc tr m₀ := by
  refine Action.follows_call (h.mono ?_ fun _ _ _ _ he => he)
  rintro tr m₀ m a ⟨hissue, hpost⟩
  exact ⟨hissue, fun _ _ m' => hpost m', fun e he => nomatch he⟩

end Rules

/-! ## Reading traces -/

section Traces

variable {x : OpAwait} {tr tr' : OpTrace} {gate : GateState}

theorem OpAwait.row?_of_readRow? {row : Scan} (h : OpAwait.readRow? x = some row) :
    OpAwait.row? x = some row := by
  unfold OpAwait.readRow? at h
  split at h
  · exact h
  · cases h

/-- What a row read first is held as. -/
theorem rowOf_of_readRow? {row : Scan} (h : OpAwait.readRow? x = some row) :
    rowOf (x :: tr) = some row := by
  simp [rowOf, OpAwait.row?_of_readRow? h]

theorem ReadAt.of_readRow? {row : Scan} (h : OpAwait.readRow? x = some row)
    (hstatus : isTerminalStatus row.status = false) : ReadAt row.gateState (x :: tr) :=
  ⟨x, List.mem_cons_self, row, h, rfl, hstatus⟩

theorem ReadAt.cons (h : ReadAt gate tr) : ReadAt gate (x :: tr) := by
  obtain ⟨y, hy, hrow⟩ := h
  exact ⟨y, List.mem_cons_of_mem _ hy, hrow⟩

/-- The trace `tr'` goes on from `tr` without reading a checkpoint or fixes. -/
structure Later (tr tr' : OpTrace) : Prop where
  token : tokenOf tr' = tokenOf tr
  fixes : fixesOf tr' = fixesOf tr
  read : ∀ gate, ReadAt gate tr → ReadAt gate tr'

theorem Later.refl : Later tr tr := ⟨rfl, rfl, fun _ h => h⟩

theorem Later.cons (htoken : OpAwait.token? x = none) (hfixes : OpAwait.fixes? x = none)
    (h : Later tr tr') : Later tr (x :: tr') := by
  refine ⟨?_, ?_, fun gate hread => (h.read gate hread).cons⟩
  · simpa [tokenOf, htoken] using h.token
  · simpa [fixesOf, hfixes] using h.fixes

end Traces

end MontrSecure
