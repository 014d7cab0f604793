import MontrSecure.Orchestrator.Runtime

/-!
# Stages of a layer job

The processor of a layer job as an automaton over the awaits it has completed: which operation may
come at which stage, and where each answer leads. `Orchestrator/Protocol.lean` holds the processor
of the controller to it.
-/

namespace MontrSecure

open Async

/-- A completed await of the orchestrator. -/
abbrev OpAwait := Await Op Op.Ans Memory

/-- The completed awaits of a call, latest first. -/
abbrev OpTrace := Trace Op Op.Ans Memory

/-- Where the processor of a layer job stands. -/
inductive JobStage where
  /-- The row of the scan is to be read. -/
  | loading
  /-- An attempt of the runner is due. -/
  | starting
  /-- The last attempt failed. -/
  | failing
  /-- The runner has returned, and its output is being written. -/
  | persisting
  /-- The writes are over. -/
  | persisted
  /-- The checkpoint has been read. -/
  | recording
  /-- The checkpoint could not be advanced. -/
  | lost
  /-- The checkpoint has been advanced. -/
  | recorded
  /-- The budget is to be checked. -/
  | checking
  /-- The budget warning is in the audit log. -/
  | warned
  /-- The exceeded ceiling is in the audit log. -/
  | exceeded
  /-- The budget guard lets the scan go on. -/
  | passed
  /-- The row has been read afresh, and the transition is being made. -/
  | advancing
  /-- Nothing more is scheduled. -/
  | closing
  deriving DecidableEq

/-- The gate waits for an approval. -/
def isPendingGate : GateState → Bool
  | .estimatePending | .fixGatePending => true
  | _ => false

/-- The writes of `persistLayerOutput`, and the reads between them. -/
def StoreOp.persists : StoreOp → Bool
  | .appMapsCreate .. | .scansUpdate .. | .candidatesBulkCreate .. | .probableBulkCreate ..
  | .confirmedBulkCreate .. | .unconfirmedBulkCreate .. | .fixesCreate .. | .fixesGet ..
  | .fixesUpdate .. => true
  | _ => false

namespace JobStage

/-- Where an answer leads. -/
def next : JobStage → (op : Op) → op.Ans → JobStage
  | loading, .store (.scansGet ..), _ => starting
  | starting, .runLayer _, .ok _ => persisting
  | starting, .runLayer _, .error _ => failing
  | failing, .sleep .., .ok _ => starting
  | failing, .store (.scansUpdate ..), _ => closing
  | persisting, .tick, _ => persisted
  | persisted, .store (.resumeGet ..), .ok _ => recording
  | persisted, .store (.resumeGet ..), .error _ => lost
  | persisted, .store (.scansUpdate ..), _ => closing
  | recording, .store (.resumeSave ..), .ok _ => recorded
  | recording, .store (.resumeSave ..), .error _ => lost
  | lost, .store (.scansUpdate ..), _ => closing
  | recorded, .tick, _ => checking
  | checking, .store (.auditAppend input), _ =>
    if input.action = .budgetWarning then warned else exceeded
  | checking, .tick, _ => passed
  | warned, .store (.auditAppend _), _ => exceeded
  | warned, .tick, _ => passed
  | exceeded, .tick, _ => passed
  | exceeded, .store (.scansUpdate ..), _ => closing
  | passed, .store (.scansGet ..), _ => advancing
  | advancing, .store (.scansUpdate _ row), _ =>
    if isTerminalStatus row.status || isPendingGate row.gateState then closing else advancing
  | advancing, .enqueue .., _ => closing
  | stage, _, _ => stage

/-- The operations that may come at a stage. -/
def issues : JobStage → Op → Bool
  | loading, .store (.scansGet ..) => true
  | starting, .runLayer _ => true
  | failing, .sleep .. => true
  | failing, .store (.scansUpdate ..) => true
  | persisting, .tick => true
  | persisting, .store q => q.persists
  | persisted, .store (.resumeGet ..) => true
  | persisted, .store (.scansUpdate ..) => true
  | recording, .store (.resumeSave ..) => true
  | lost, .store (.scansUpdate ..) => true
  | recorded, .store (.auditAppend _) => true
  | recorded, .tick => true
  | checking, .store (.auditAppend _) => true
  | checking, .tick => true
  | warned, .store (.auditAppend _) => true
  | warned, .tick => true
  | exceeded, .store (.scansUpdate ..) => true
  | exceeded, .tick => true
  | passed, .store (.scansGet ..) => true
  | advancing, .store (.fixesListByScan ..) => true
  | advancing, .store (.scansUpdate ..) => true
  | advancing, .store (.auditAppend _) => true
  | advancing, .enqueue .. => true
  | closing, .store (.auditAppend _) => true
  | closing, .tick => true
  | _, _ => false

/-- The runner has not returned an output yet. -/
def beforeOutput : JobStage → Bool
  | loading | starting | failing => true
  | _ => false

theorem beforeOutput_of_next {stage : JobStage} {op : Op} {r : op.Ans}
    (h : (stage.next op r).beforeOutput = true) : stage.beforeOutput = true := by
  unfold next at h
  split at h <;> first | rfl | exact h | (try split at h) <;> cases h

end JobStage

/-- The stage after the awaits of a trace. -/
def stageOf : OpTrace → JobStage
  | [] => .loading
  | x :: tr => (stageOf tr).next x.op x.answer

@[simp]
theorem stageOf_nil : stageOf [] = .loading := rfl

@[simp]
theorem stageOf_cons (x : OpAwait) (tr : OpTrace) :
    stageOf (x :: tr) = (stageOf tr).next x.op x.answer := rfl

/-! ## What a call has learnt -/

/-- The row an await read. -/
def OpAwait.readRow? : OpAwait → Option Scan
  | ⟨_, .store (.scansGet ..), .ok row⟩ => row
  | _ => none

/-- The row an await read or wrote, carried out or not. -/
def OpAwait.row? : OpAwait → Option Scan
  | ⟨_, .store (.scansGet ..), .ok row⟩ => row
  | ⟨_, .store (.scansUpdate _ row), _⟩ => some row
  | _ => none

/-- The checkpoint an await read. -/
def OpAwait.token? : OpAwait → Option (Option ResumeToken)
  | ⟨_, .store (.resumeGet ..), .ok token⟩ => some token
  | _ => none

/-- The fixes an await read. -/
def OpAwait.fixes? : OpAwait → Option (List Fix)
  | ⟨_, .store (.fixesListByScan ..), .ok fixes⟩ => some fixes
  | _ => none

/-- What the runner of an await was given. -/
def OpAwait.context? : OpAwait → Option LayerContext
  | ⟨_, .runLayer ctx, _⟩ => some ctx
  | _ => none

/-- The scan object a call holds. -/
def rowOf (tr : OpTrace) : Option Scan := tr.findSome? OpAwait.row?

/-- The checkpoint a call has read. -/
def tokenOf (tr : OpTrace) : Option (Option ResumeToken) := tr.findSome? OpAwait.token?

/-- The fixes a call has read. -/
def fixesOf (tr : OpTrace) : Option (List Fix) := tr.findSome? OpAwait.fixes?

/-- What the runner was given last. -/
def contextOf (tr : OpTrace) : Option LayerContext := tr.findSome? OpAwait.context?

/-- The layers a checkpoint lists. -/
def completedLayers (token : Option ResumeToken) : List LayerId :=
  (token.map (·.completedLayers)).getD []

example : completedLayers none = [] := by decide +kernel

end MontrSecure
