import MontrSecure.Async.Accounts
import MontrSecure.LlmGateway.Completing
import Mathlib.Algebra.Order.Group.Multiset
import Mathlib.Algebra.BigOperators.Group.Multiset.Basic

/-!
# The ledger of the gateway

The calls of a gateway overlap, scans are registered and unregistered while they wait, and what a reply has used is
recorded only when its call is resumed. `logged_add_owed` says that nothing is lost and nothing is recorded twice:
the log and the replies that no call has been resumed with make up what was answered. `spent_add_owed_standalone`
says so of the dollars and tokens of the standalone meter, and `spent_add_owed_scan` of the meter of a scan, which is
charged for the calls of that scan only.
-/

namespace MontrSecure.LlmGateway

open Async

/-! ## The process of a gateway -/

/-- A call of the gateway. -/
inductive GatewayCall where
  | complete (request : LlmRequest)
  | stream (request : LlmRequest)
  | getBatchResults (batchId : String) (metadataByCustomId : List (String × CallMetadata))

/-- What a call does. -/
def GatewayCall.body (g : Gateway) : GatewayCall → GatewayProgram Unit
  | .complete request => do let _ ← g.complete request; return ()
  | .stream request => do let _ ← g.stream request; return ()
  | .getBatchResults batchId metadataByCustomId => do let _ ← g.getBatchResults batchId metadataByCustomId; return ()

/-- `createBudgetRegistry`: what the orchestrator does to the registry meanwhile. -/
inductive RegistryEvent where
  | register (scanId : ScanId) (ctx : BudgetContext)
  | unregister (scanId : ScanId)

/-- The registry after an event. -/
def RegistryEvent.apply (registry : ScanId → Option BudgetContext) : RegistryEvent → ScanId → Option BudgetContext
  | .register scanId ctx => Function.update registry scanId (some ctx)
  | .unregister scanId => Function.update registry scanId none

/-- The calls of a gateway in one process. Every operation may be answered in any way. -/
def gatewaySystem (g : Gateway) :
    System GatewayCall GatewayOp GatewayOp.Ans ((op : GatewayOp) → op.Ans) RegistryEvent GatewayMemory Unit
      GatewayError where
  body := GatewayCall.body g
  enter _ _ _ := some ()
  perform _ _ op answer _ _ := ((), answer op)
  leave _ _ _ _ := ()
  env e _ m _ := some ({ m with registry := e.apply m.registry }, ())
  crash m _ := (m, ())

/-- A state of the process. -/
abbrev GatewayConfiguration : Type :=
  Config GatewayCall GatewayOp GatewayOp.Ans RegistryEvent GatewayMemory Unit GatewayError

/-- What happens in the process. -/
abbrev ProcessEvent : Type := Event GatewayCall GatewayOp GatewayOp.Ans RegistryEvent GatewayError

/-! ## Charges -/

/-- What is recorded of a reply. -/
structure Charge where
  log : LlmCallLog
  batch : Bool := false

/-- What a meter records of a charge. -/
def Charge.entry (charge : Charge) : MeterEntry where
  modelId := charge.log.model
  usage := charge.log.usage
  layer := charge.log.metadata.layer
  batch := charge.batch

/-- What a charge comes to, in dollars and in tokens. -/
def Charge.worth (charge : Charge) : ℚ × ℕ := (charge.entry.usd, charge.log.usage.totalTokens)

/-- What a call has to record of an answer: a reply to a dispatch, the usage of a stream that was read to its end, and
a result of a batch that the caller gave metadata for. -/
def chargeOf (c : GatewayCall) : (op : GatewayOp) → op.Ans → Option Charge
  | .dispatch request _ _, .ok completion =>
    some { log := { model := completion.model, usage := completion.usage, metadata := request.metadata } }
  | .stream request model, (events, .done) =>
    (Gateway.lastUsage events).map fun usage => { log := { model, usage, metadata := request.metadata } }
  | .nextResult _, .ok (.succeeded customId completion) =>
    match c with
    | .getBatchResults _ metadataByCustomId =>
      (metadataByCustomId.lookup customId).map fun metadata =>
        { log := { model := completion.model, usage := completion.usage, metadata }, batch := true }
    | _ => none
  | _, _ => none

namespace Gateway

variable {g : Gateway} {c : GatewayCall}

/-- Record a charge. -/
def book (g : Gateway) (charge : Charge) (m : GatewayMemory) : GatewayMemory := charged g charge.log charge.batch m

/-- The meters, the log and the registry are as they were. -/
structure SameBooks (m m' : GatewayMemory) : Prop where
  meters : m'.meters = m.meters
  callLog : m'.callLog = m.callLog
  registry : m'.registry = m.registry

theorem SameBooks.refl (m : GatewayMemory) : SameBooks m m := ⟨rfl, rfl, rfl⟩

theorem SameBooks.trans {m m' m'' : GatewayMemory} (h : SameBooks m m') (h' : SameBooks m' m'') : SameBooks m m'' :=
  ⟨h'.meters.trans h.meters, h'.callLog.trans h.callLog, h'.registry.trans h.registry⟩

/-- What is recorded depends on the books alone. -/
theorem SameBooks.book {m m' : GatewayMemory} (h : SameBooks m m') (charge : Charge) :
    SameBooks (book g charge m) (book g charge m') where
  meters := by simp only [Gateway.book, charged, metersOf, scanMeter, h.meters, h.registry]
  callLog := congrArg (charge.log :: ·) h.callLog
  registry := h.registry

/-! ## What a segment records -/

/-- The memory that a segment began with, once the answer before it is recorded. -/
def booked (g : Gateway) (c : GatewayCall) (tr : Trace GatewayOp GatewayOp.Ans GatewayMemory) (m₀ : GatewayMemory) :
    GatewayMemory :=
  match tr with
  | [] => m₀
  | x :: _ =>
    match chargeOf c x.op x.answer with
    | none => m₀
    | some charge => book g charge m₀

/-- Each segment records the answer before it, and nothing else. -/
def ledger (g : Gateway) (c : GatewayCall) : Protocol GatewayOp GatewayOp.Ans GatewayMemory where
  answers _ _ := True
  awaits tr m₀ m _ := SameBooks (booked g c tr m₀) m
  ends tr m₀ m := SameBooks (booked g c tr m₀) m

/-- What the segment has to record is recorded. -/
def Settled (g : Gateway) (c : GatewayCall) : Assertion GatewayOp GatewayOp.Ans GatewayMemory :=
  fun tr m₀ m => SameBooks (booked g c tr m₀) m

/-- The charge is still to be recorded. -/
def Owing (g : Gateway) (c : GatewayCall) (charge : Charge) : Assertion GatewayOp GatewayOp.Ans GatewayMemory :=
  fun tr m₀ m => booked g c tr m₀ = book g charge m₀ ∧ SameBooks m₀ m

/-- An assertion about the books. -/
def OfBooks (A : Assertion GatewayOp GatewayOp.Ans GatewayMemory) : Prop :=
  ∀ tr m₀ m m', SameBooks m m' → A tr m₀ m → A tr m₀ m'

theorem settled_ofBooks : OfBooks (Settled g c) := fun _ _ _ _ hsame h => h.trans hsame

theorem owing_ofBooks {charge : Charge} : OfBooks (Owing g c charge) := fun _ _ _ _ hsame h => ⟨h.1, h.2.trans hsame⟩

section Segments

variable {A : Assertion GatewayOp GatewayOp.Ans GatewayMemory} {request : LlmRequest}

theorem triple_emit (hA : OfBooks A) (event : GatewayEvent) :
    Program.Triple (ledger g c) A (emit event) fun _ => A :=
  Program.Triple.modify fun tr m₀ m h => hA tr m₀ m _ ⟨rfl, rfl, rfl⟩ h

/-- An operation whose answer is not recorded. -/
theorem triple_await {op : GatewayOp} (hop : ∀ r, chargeOf c op r = none) :
    Program.Triple (ledger g c) (Settled g c) (await op) fun _ => Settled g c := by
  apply Program.Triple.await
  · exact fun _ _ _ h => h
  · intro tr m₀ m r m₁ _ _
    simp only [Settled, booked, hop]
    exact .refl m₁

/-- After an answer that is to be recorded. -/
theorem owing_of_charge {x : Await GatewayOp GatewayOp.Ans GatewayMemory}
    {tr : Trace GatewayOp GatewayOp.Ans GatewayMemory} {m : GatewayMemory} {charge : Charge}
    (h : chargeOf c x.op x.answer = some charge) : Owing g c charge (x :: tr) m m := by
  refine ⟨?_, .refl m⟩
  rw [booked, h]

/-- After an answer that is not. -/
theorem settled_of_none {x : Await GatewayOp GatewayOp.Ans GatewayMemory}
    {tr : Trace GatewayOp GatewayOp.Ans GatewayMemory} {m : GatewayMemory}
    (h : chargeOf c x.op x.answer = none) : Settled g c (x :: tr) m m := by
  rw [Settled, booked, h]
  exact .refl m

theorem triple_account (charge : Charge) :
    Program.Triple (ledger g c) (Owing g c charge)
      (account g charge.log.metadata charge.log.model charge.log.usage charge.batch) fun _ => Settled g c := by
  apply Program.Triple.modify
  intro tr m₀ m h
  rw [Settled, h.1]
  exact h.2.book charge

theorem triple_assertEgress : Program.Triple (ledger g c) (Settled g c) (assertEgress g) fun _ => Settled g c := by
  unfold assertEgress
  split
  · exact .pure fun _ _ _ h => h
  · split
    · exact .pure fun _ _ _ h => h
    · exact .throw fun _ _ _ h => h

theorem triple_maybeWarnFloor (modelId : String) :
    Program.Triple (ledger g c) (Settled g c) (maybeWarnFloor g request modelId) fun _ => Settled g c := by
  unfold maybeWarnFloor
  apply Program.Triple.ite
  · exact fun _ => .pure fun _ _ _ h => h
  · intro _
    apply Program.Triple.bind (.get fun _ _ _ h => h)
    intro m
    apply Program.Triple.ite
    · exact fun _ => .pure fun _ _ _ h => h
    · intro _
      have hwarned : Program.Triple (ledger g c) (Settled g c) (Program.modify (ε := GatewayError) fun m =>
          { m with warnedFloorModels := modelId :: m.warnedFloorModels }) fun _ => Settled g c :=
        .modify fun tr m₀ m h => settled_ofBooks tr m₀ m _ ⟨rfl, rfl, rfl⟩ h
      apply hwarned.bind
      exact fun _ => triple_emit settled_ofBooks _

theorem triple_assertPreCallBudget :
    Program.Triple (ledger g c) (Settled g c) (assertPreCallBudget g request) fun _ => Settled g c := by
  unfold assertPreCallBudget
  apply Program.Triple.bind (.get fun _ _ _ h => h)
  intro m
  split
  · exact .pure fun _ _ _ h => h
  · apply Program.Triple.ite
    · intro _
      apply Program.Triple.bind (triple_await fun _ => rfl)
      intro _
      apply Program.Triple.bind (.get fun _ _ _ h => h)
      intro m
      apply Program.Triple.ite
      · intro _
        apply Program.Triple.bind (triple_emit settled_ofBooks _)
        exact fun _ => .throw fun _ _ _ h => h
      · exact fun _ => .pure fun _ _ _ h => h
    · exact fun _ => .pure fun _ _ _ h => h

/-- The charge of a reply to a request. -/
def replyCharge (request : LlmRequest) (completion : AdapterCompletion) : Charge where
  log := { model := completion.model, usage := completion.usage, metadata := request.metadata }

/-- After an attempt: a reply is to be recorded, and a failure is not. -/
def Attempted (g : Gateway) (c : GatewayCall) (request : LlmRequest) :
    Except AttemptError AdapterCompletion → Assertion GatewayOp GatewayOp.Ans GatewayMemory
  | .ok completion => Owing g c (replyCharge request completion)
  | .error _ => Settled g c

theorem triple_dispatch (model : String) (attempt : ℕ) :
    Program.Triple (ledger g c) (Settled g c) (await (.dispatch request model attempt)) (Attempted g c request) := by
  apply Program.Triple.await
  · exact fun _ _ _ h => h
  · intro tr m₀ m r m₁ _ _
    cases r with
    | ok completion => exact owing_of_charge rfl
    | error err => exact settled_of_none rfl

theorem triple_retrying (model : String) (attempt left : ℕ) :
    Program.Triple (ledger g c) (Settled g c) (retrying g request model attempt left) (Attempted g c request) := by
  induction left generalizing attempt with
  | zero => exact triple_dispatch model attempt
  | succ left ih =>
    unfold retrying
    apply Program.Triple.bind (triple_dispatch model attempt)
    intro reply
    cases reply with
    | ok completion => exact .pure fun _ _ _ h => h
    | error err =>
      apply Program.Triple.ite
      · intro _
        apply Program.Triple.bind (triple_await fun _ => rfl)
        intro slept
        cases slept with
        | ok _ => exact ih (attempt + 1)
        | error err => exact .pure fun _ _ _ h => h
      · exact fun _ => .pure fun _ _ _ h => h

theorem triple_fallingBack (primary : String) (attempted models : List String) (lastError : AttemptError) :
    Program.Triple (ledger g c) (Settled g c) (fallingBack request primary attempted lastError models)
      (Attempted g c request) := by
  induction models generalizing attempted lastError with
  | nil => exact .pure fun _ _ _ h => h
  | cons model rest ih =>
    unfold fallingBack
    apply Program.Triple.ite
    · exact fun _ => ih attempted lastError
    · intro _
      apply Program.Triple.bind (triple_emit settled_ofBooks _)
      intro _
      apply Program.Triple.bind (triple_dispatch model 0)
      intro reply
      cases reply with
      | ok completion => exact .pure fun _ _ _ h => h
      | error err => exact ih (model :: attempted) err

theorem triple_attempts :
    Program.Triple (ledger g c) (Settled g c) (attempts g request) (Attempted g c request) := by
  unfold attempts
  apply Program.Triple.bind (triple_retrying _ _ _)
  intro reply
  cases reply with
  | ok completion => exact .pure fun _ _ _ h => h
  | error err => exact triple_fallingBack _ _ _ _

theorem triple_maybeRecordParseFailure (hA : OfBooks A) (completion : AdapterCompletion) :
    Program.Triple (ledger g c) A (maybeRecordParseFailure g request completion) fun _ => A := by
  unfold maybeRecordParseFailure
  apply Program.Triple.ite
  · exact fun _ => .pure fun _ _ _ h => h
  · exact fun _ => triple_emit hA _

theorem triple_completeOnce :
    Program.Triple (ledger g c) (Settled g c) (completeOnce g request) fun _ => Settled g c := by
  unfold completeOnce
  apply Program.Triple.bind triple_assertEgress
  intro _
  apply Program.Triple.bind (triple_maybeWarnFloor _)
  intro _
  apply Program.Triple.bind triple_assertPreCallBudget
  intro _
  apply Program.Triple.bind (triple_await fun _ => rfl)
  intro _
  apply Program.Triple.bind triple_attempts
  intro reply
  cases reply with
  | error err => exact .throw fun _ _ _ h => h
  | ok completion =>
    apply Program.Triple.bind (triple_maybeRecordParseFailure owing_ofBooks completion)
    intro _
    apply Program.Triple.bind (triple_account (replyCharge request completion))
    exact fun _ => .pure fun _ _ _ h => h

theorem triple_climb (policy : EscalationPolicy) (left : ℕ) (current : LlmRequest) (response : LlmResponse) :
    Program.Triple (ledger g c) (Settled g c) (climb g policy left current response) fun _ => Settled g c := by
  induction left generalizing current response with
  | zero => exact .pure fun _ _ _ h => h
  | succ left ih =>
    unfold climb
    apply Program.Triple.ite
    · intro _
      split
      · exact .pure fun _ _ _ h => h
      · apply Program.Triple.bind (triple_emit settled_ofBooks _)
        intro _
        apply Program.Triple.bind triple_completeOnce
        intro response
        apply Program.Triple.bind (triple_await fun _ => rfl)
        exact fun _ => ih _ response
    · exact fun _ => .pure fun _ _ _ h => h

theorem triple_complete :
    Program.Triple (ledger g c) (Settled g c) (complete g request) fun _ => Settled g c := by
  unfold complete
  split
  · exact triple_completeOnce
  · apply Program.Triple.ite
    · intro _
      apply Program.Triple.bind triple_completeOnce
      intro response
      apply Program.Triple.bind (triple_await fun _ => rfl)
      exact fun _ => triple_climb _ _ _ response
    · exact fun _ => triple_completeOnce

/-- The charge of a stream. -/
def streamCharge (request : LlmRequest) (model : String) (usage : TokenUsage) : Charge where
  log := { model, usage, metadata := request.metadata }

/-- After a stream: its usage is to be recorded when it was read to its end. -/
def Streamed (g : Gateway) (c : GatewayCall) (request : LlmRequest) (model : String) :
    List LlmStreamEvent × StreamEnd → Assertion GatewayOp GatewayOp.Ans GatewayMemory
  | (events, .done) =>
    match lastUsage events with
    | none => Settled g c
    | some usage => Owing g c (streamCharge request model usage)
  | _ => Settled g c

theorem triple_streaming (model : String) :
    Program.Triple (ledger g c) (Settled g c) (await (.stream request model)) (Streamed g c request model) := by
  apply Program.Triple.await
  · exact fun _ _ _ h => h
  · intro tr m₀ m r m₁ _ _
    obtain ⟨events, done | message | _⟩ := r
    · unfold Streamed
      dsimp only
      cases husage : lastUsage events with
      | none =>
        have hcharge : chargeOf c (.stream request model) (events, .done) = none := by rw [chargeOf, husage]; rfl
        exact settled_of_none (x := ⟨m, .stream request model, (events, .done)⟩) hcharge
      | some usage =>
        have hcharge : chargeOf c (.stream request model) (events, .done) =
            some (streamCharge request model usage) := by
          rw [chargeOf, husage]
          rfl
        exact owing_of_charge (x := ⟨m, .stream request model, (events, .done)⟩) hcharge
    · exact settled_of_none rfl
    · exact settled_of_none rfl

theorem triple_stream :
    Program.Triple (ledger g c) (Settled g c) (stream g request) fun _ => Settled g c := by
  unfold stream
  apply Program.Triple.bind triple_assertEgress
  intro _
  apply Program.Triple.bind (triple_maybeWarnFloor _)
  intro _
  apply Program.Triple.bind triple_assertPreCallBudget
  intro _
  apply Program.Triple.bind (triple_await fun _ => rfl)
  intro _
  apply Program.Triple.bind (triple_streaming _)
  rintro ⟨events, done | message | _⟩
  · unfold Streamed
    dsimp only
    cases lastUsage events with
    | none => exact .pure fun _ _ _ h => h
    | some usage =>
      apply Program.Triple.bind (triple_account (streamCharge request _ usage))
      exact fun _ => .pure fun _ _ _ h => h
  · apply Program.Triple.bind (triple_emit settled_ofBooks _)
    exact fun _ => .pure fun _ _ _ h => h
  · exact .pure fun _ _ _ h => h

/-- The charge of a result of a batch. -/
def batchCharge (metadata : CallMetadata) (completion : AdapterCompletion) : Charge where
  log := { model := completion.model, usage := completion.usage, metadata }
  batch := true

/-- After a result of a batch: it is to be recorded when it succeeded and the caller gave metadata for it. -/
def Delivered (g : Gateway) (batchId : String) (metadataByCustomId : List (String × CallMetadata)) :
    Except AttemptError BatchItem → Assertion GatewayOp GatewayOp.Ans GatewayMemory
  | .ok (.succeeded customId completion) =>
    match metadataByCustomId.lookup customId with
    | none => Settled g (.getBatchResults batchId metadataByCustomId)
    | some metadata => Owing g (.getBatchResults batchId metadataByCustomId) (batchCharge metadata completion)
  | _ => Settled g (.getBatchResults batchId metadataByCustomId)

theorem triple_nextResult (batchId : String) (metadataByCustomId : List (String × CallMetadata)) :
    Program.Triple (ledger g (.getBatchResults batchId metadataByCustomId))
      (Settled g (.getBatchResults batchId metadataByCustomId)) (await (.nextResult batchId))
      (Delivered g batchId metadataByCustomId) := by
  apply Program.Triple.await
  · exact fun _ _ _ h => h
  · intro tr m₀ m r m₁ _ _
    rcases r with err | (⟨customId, completion⟩ | _ | _)
    · exact settled_of_none rfl
    · unfold Delivered
      dsimp only
      cases hmetadata : metadataByCustomId.lookup customId with
      | none =>
        have hcharge : chargeOf (.getBatchResults batchId metadataByCustomId) (.nextResult batchId)
            (.ok (.succeeded customId completion)) = none := by
          simp only [chargeOf, hmetadata, Option.map_none]
        exact settled_of_none (x := ⟨m, .nextResult batchId, .ok (.succeeded customId completion)⟩) hcharge
      | some metadata =>
        have hcharge : chargeOf (.getBatchResults batchId metadataByCustomId) (.nextResult batchId)
            (.ok (.succeeded customId completion)) = some (batchCharge metadata completion) := by
          simp only [chargeOf, hmetadata, Option.map_some]
          rfl
        exact owing_of_charge (x := ⟨m, .nextResult batchId, .ok (.succeeded customId completion)⟩) hcharge
    · exact settled_of_none rfl
    · exact settled_of_none rfl

theorem triple_batchResults (batchId : String) (metadataByCustomId : List (String × CallMetadata)) (left : ℕ) :
    Program.Triple (ledger g (.getBatchResults batchId metadataByCustomId))
      (Settled g (.getBatchResults batchId metadataByCustomId)) (batchResults g batchId metadataByCustomId left)
      fun _ => Settled g (.getBatchResults batchId metadataByCustomId) := by
  induction left with
  | zero => exact .pure fun _ _ _ h => h
  | succ left ih =>
    unfold batchResults
    apply Program.Triple.bind (triple_nextResult batchId metadataByCustomId)
    have hrest (item : BatchItem) : Program.Triple (ledger g (.getBatchResults batchId metadataByCustomId))
        (Settled g (.getBatchResults batchId metadataByCustomId))
        (do return item :: (← batchResults g batchId metadataByCustomId left))
        fun _ => Settled g (.getBatchResults batchId metadataByCustomId) :=
      ih.bind fun _ => .pure fun _ _ _ h => h
    rintro (err | (⟨customId, completion⟩ | _ | _))
    · exact .throw fun _ _ _ h => h
    · unfold Delivered
      dsimp only
      cases metadataByCustomId.lookup customId with
      | none => exact hrest _
      | some metadata =>
        apply Program.Triple.bind (triple_account (batchCharge metadata completion))
        exact fun _ => hrest _
    · exact hrest _
    · exact hrest _

theorem triple_getBatchResults (batchId : String) (metadataByCustomId : List (String × CallMetadata)) :
    Program.Triple (ledger g (.getBatchResults batchId metadataByCustomId))
      (Settled g (.getBatchResults batchId metadataByCustomId)) (getBatchResults g batchId metadataByCustomId)
      fun _ => Settled g (.getBatchResults batchId metadataByCustomId) := by
  unfold getBatchResults
  apply Program.Triple.bind triple_assertEgress
  intro _
  apply Program.Triple.bind (triple_await fun _ => rfl)
  exact fun count => triple_batchResults batchId metadataByCustomId count

end Segments

/-- Every call keeps the ledger. -/
theorem obeys_ledger (g : Gateway) (c : GatewayCall) : (c.body g).Obeys (ledger g c) := by
  cases c with
  | complete request => exact triple_complete.obeys (fun m => .refl m) fun _ _ _ _ h => h
  | stream request => exact triple_stream.obeys (fun m => .refl m) fun _ _ _ _ h => h
  | getBatchResults batchId metadataByCustomId =>
    exact (triple_getBatchResults batchId metadataByCustomId).obeys (fun m => .refl m) fun _ _ _ _ h => h

/-! ## Accounts of the ledger -/

section Accounts

variable {M : Type} [AddCommMonoid M]

/-- What an answer is billed, when a charge has a price. -/
def priced (price : Charge → M) (c : GatewayCall) (op : GatewayOp) (answer : op.Ans) : M :=
  match chargeOf c op answer with
  | none => 0
  | some charge => price charge

/-- What the books say of an account is what its charges come to. -/
structure Account (g : Gateway) (inv : GatewayMemory → Prop) (paid : GatewayMemory → M) (price : Charge → M) :
    Prop where
  same : ∀ m m', SameBooks m m' → paid m' = paid m
  book : ∀ charge m, inv m → paid (book g charge m) = paid m + price charge

variable {inv : GatewayMemory → Prop} {paid : GatewayMemory → M} {price : Charge → M}

theorem Account.booked (h : Account g inv paid price) {tr : Trace GatewayOp GatewayOp.Ans GatewayMemory}
    {m₀ : GatewayMemory} (hinv : inv m₀) : paid (booked g c tr m₀) = paid m₀ + due (priced price) c tr := by
  cases tr with
  | nil => exact (add_zero _).symm
  | cons x tr =>
    unfold Gateway.booked due priced
    dsimp only
    cases hcharge : chargeOf c x.op x.answer with
    | none => exact (add_zero _).symm
    | some charge => exact h.book charge m₀ hinv

theorem Account.records (h : Account g inv paid price) (c : GatewayCall) :
    (ledger g c).Records inv paid (due (priced price) c) where
  awaits _ _ _ _ hinv hsame := (h.same _ _ hsame).trans (h.booked hinv)
  ends _ _ _ hinv hsame := (h.same _ _ hsame).trans (h.booked hinv)

/-- In every state that the process gets to, an account and what is still owed to it are what it was and what was
answered since. -/
theorem Account.paid_add_owed {ok : GatewayConfiguration → ProcessEvent → Prop} {init cfg : GatewayConfiguration}
    (h : Account g inv paid price) (hregistry : ∀ m registry, paid { m with registry } = paid m)
    (hok : ∀ cfg e, ok cfg e → e ≠ .crashed) (htasks : init.tasks = []) (hhistory : init.history = [])
    (hinv : ∀ cfg, Reachable (gatewaySystem g) ok init cfg → inv cfg.mem)
    (hreach : Reachable (gatewaySystem g) ok init cfg) :
    paid cfg.mem + cfg.owed (priced price) = paid init.mem + billed (priced price) cfg.history := by
  apply hreach.paid_add_owed (obeys_ledger g) (fun _ _ _ _ _ _ => trivial) h.records
  · intro e tasks m w m' w' henv
    cases henv
    exact hregistry m _
  · exact hok
  · exact htasks
  · exact hhistory
  · exact hinv

end Accounts

/-! ## The log -/

/-- The calls that were logged. -/
def logged (m : GatewayMemory) : Multiset LlmCallLog := m.callLog

theorem account_logged : Account g (fun _ => True) logged fun charge => {charge.log} where
  same _ _ h := congrArg Multiset.ofList h.callLog
  book charge m _ := by
    change (↑(charge.log :: m.callLog) : Multiset LlmCallLog) = ↑m.callLog + {charge.log}
    rw [← Multiset.cons_coe, ← Multiset.singleton_add, add_comm]

/-! ## The meters -/

/-- What a meter says was spent. -/
def spent (ref : ℕ) (m : GatewayMemory) : ℚ × ℕ := ((m.meters ref).totalUsd, (m.meters ref).total.totalTokens)

theorem foldl_update {α : Type} (f : α → α) {refs : List ℕ} (h : refs.Nodup) (heap : ℕ → α) (ref : ℕ) :
    refs.foldl (fun heap ref => Function.update heap ref (f (heap ref))) heap ref =
      if ref ∈ refs then f (heap ref) else heap ref := by
  induction refs generalizing heap with
  | nil => rfl
  | cons r refs ih =>
    obtain ⟨hr, hrefs⟩ := List.nodup_cons.mp h
    rw [List.foldl_cons, ih hrefs]
    by_cases heq : ref = r
    · subst heq
      rw [if_neg hr, if_pos List.mem_cons_self, Function.update_self]
    · rw [Function.update_of_ne heq]
      simp only [List.mem_cons, heq, false_or]

/-- No meter is recorded in twice. -/
theorem nodup_metersOf (g : Gateway) (m : GatewayMemory) (metadata : CallMetadata) :
    (metersOf g m metadata).Nodup := by
  unfold metersOf
  split
  · exact g.costMeter.toList_nodup
  · exact List.nodup_singleton _
  · split
    · exact List.nodup_singleton _
    · next hne => simpa using Ne.symm hne

/-- What a meter records of a charge. -/
theorem spent_book (g : Gateway) (charge : Charge) (m : GatewayMemory) (ref : ℕ) :
    spent ref (book g charge m) =
      spent ref m + if ref ∈ metersOf g m charge.log.metadata then charge.worth else 0 := by
  have hmeters : (book g charge m).meters ref =
      if ref ∈ metersOf g m charge.log.metadata then (m.meters ref).record charge.entry else m.meters ref := by
    change (metersOf g m charge.log.metadata).foldl
      (fun heap ref => Function.update heap ref ((heap ref).record charge.entry)) m.meters ref = _
    exact foldl_update (fun meter => meter.record charge.entry) (nodup_metersOf g m charge.log.metadata) m.meters ref
  unfold spent
  rw [hmeters]
  split
  · simp [Charge.worth, Charge.entry]
  · simp

/-! ## Nothing is lost -/

/-- The process does not stop. -/
def Alive (_ : GatewayConfiguration) (e : ProcessEvent) : Prop := e ≠ .crashed

section Conservation

variable {init cfg : GatewayConfiguration} {ref : ℕ} {scanId : ScanId}

/-- In every state that the process gets to, the calls that are logged, with the replies that no call has been resumed
with, are those that were logged at first and what was answered since. -/
theorem logged_add_owed (htasks : init.tasks = []) (hhistory : init.history = [])
    (hreach : Reachable (gatewaySystem g) Alive init cfg) :
    logged cfg.mem + cfg.owed (priced fun charge => {charge.log}) =
      logged init.mem + billed (priced fun charge => {charge.log}) cfg.history :=
  account_logged.paid_add_owed (fun _ _ => rfl) (fun _ _ h => h) htasks hhistory (fun _ _ => trivial) hreach

theorem mem_metersOf_costMeter (hmeter : g.costMeter = some ref) (m : GatewayMemory) (metadata : CallMetadata) :
    ref ∈ metersOf g m metadata := by
  unfold metersOf
  rw [hmeter]
  cases scanMeter m metadata with
  | none => exact List.mem_cons_self
  | some meter =>
    dsimp only
    split
    · next heq => exact heq ▸ List.mem_cons_self
    · exact List.mem_cons_of_mem _ List.mem_cons_self

theorem account_standalone (hmeter : g.costMeter = some ref) :
    Account g (fun _ => True) (spent ref) Charge.worth where
  same _ _ h := by rw [spent, spent, h.meters]
  book charge m _ := by rw [spent_book, if_pos (mem_metersOf_costMeter hmeter m _)]

/-- Whatever scans are registered and unregistered meanwhile, the standalone meter has every call in it once, also
where it is the meter of a scan. -/
theorem spent_add_owed_standalone (hmeter : g.costMeter = some ref) (htasks : init.tasks = [])
    (hhistory : init.history = []) (hreach : Reachable (gatewaySystem g) Alive init cfg) :
    spent ref cfg.mem + cfg.owed (priced Charge.worth) =
      spent ref init.mem + billed (priced Charge.worth) cfg.history :=
  (account_standalone hmeter).paid_add_owed (fun _ _ => rfl) (fun _ _ h => h) htasks hhistory (fun _ _ => trivial)
    hreach

/-! ## The meter of a scan -/

/-- The meter is registered for the scan and for no other, and it is not the standalone one. -/
structure OwnMeter (g : Gateway) (scanId : ScanId) (ref : ℕ) (m : GatewayMemory) : Prop where
  named : scanId ≠ ""
  standalone : g.costMeter ≠ some ref
  registered : ∃ ctx, m.registry scanId = some ctx ∧ ctx.meter = ref
  others : ∀ other ctx, m.registry other = some ctx → ctx.meter = ref → other = scanId

/-- What happens in the process leaves the scan its meter: the scan is registered with no other meter, no other scan
is registered with this one, and the scan is not unregistered. -/
def KeepsMeter (scanId : ScanId) (ref : ℕ) (_ : GatewayConfiguration) : ProcessEvent → Prop
  | .crashed => False
  | .env (.register other ctx) => other = scanId ↔ ctx.meter = ref
  | .env (.unregister other) => other ≠ scanId
  | _ => True

/-- What a charge comes to for the scan. -/
def worthFor (scanId : ScanId) (charge : Charge) : ℚ × ℕ :=
  if charge.log.metadata.scanId = some scanId then charge.worth else 0

/-- The meter of a scan is recorded in for the calls of the scan. -/
theorem OwnMeter.mem_metersOf_iff {m : GatewayMemory} (h : OwnMeter g scanId ref m) (metadata : CallMetadata) :
    ref ∈ metersOf g m metadata ↔ metadata.scanId = some scanId := by
  obtain ⟨ctx, hctx, hmeter⟩ := h.registered
  have hscan : scanMeter m metadata = some ref ↔ metadata.scanId = some scanId := by
    unfold scanMeter
    split
    · next hnone => simp [hnone]
    · next hempty => simp [hempty, h.named.symm]
    · next other _ hother =>
      rw [hother, Option.map_eq_some_iff, Option.some_inj]
      constructor
      · rintro ⟨ctx', hctx', hmeter'⟩
        exact h.others other ctx' hctx' hmeter'
      · rintro rfl
        exact ⟨ctx, hctx, hmeter⟩
  rw [← hscan]
  unfold metersOf
  have hcost := h.standalone
  cases scanMeter m metadata with
  | none => simpa using hcost
  | some meter =>
    cases hstandalone : g.costMeter with
    | none => simp [eq_comm]
    | some costMeter =>
      have hne : ref ≠ costMeter := fun heq => hcost (heq ▸ hstandalone)
      dsimp only
      split <;> simp [hne, eq_comm]

theorem account_scan : Account g (OwnMeter g scanId ref) (spent ref) (worthFor scanId) where
  same _ _ h := by rw [spent, spent, h.meters]
  book charge m hown := by
    rw [spent_book, worthFor]
    simp only [hown.mem_metersOf_iff]

theorem OwnMeter.of_same {m m' : GatewayMemory} (h : OwnMeter g scanId ref m) (hregistry : m'.registry = m.registry) :
    OwnMeter g scanId ref m' where
  named := h.named
  standalone := h.standalone
  registered := hregistry ▸ h.registered
  others := hregistry ▸ h.others

theorem registry_booked (tr : Trace GatewayOp GatewayOp.Ans GatewayMemory) (m₀ : GatewayMemory) :
    (booked g c tr m₀).registry = m₀.registry := by
  unfold booked
  split
  · rfl
  · split <;> rfl

theorem OwnMeter.apply {m : GatewayMemory} {e : RegistryEvent} (h : OwnMeter g scanId ref m)
    (he : KeepsMeter scanId ref cfg (.env e)) : OwnMeter g scanId ref { m with registry := e.apply m.registry } := by
  obtain ⟨ctx, hctx, hmeter⟩ := h.registered
  refine ⟨h.named, h.standalone, ?_, ?_⟩
  · cases e with
    | register other ctx' =>
      by_cases heq : scanId = other
      · subst heq
        exact ⟨ctx', Function.update_self .., he.mp rfl⟩
      · exact ⟨ctx, (Function.update_of_ne heq ..).trans hctx, hmeter⟩
    | unregister other => exact ⟨ctx, (Function.update_of_ne he.symm ..).trans hctx, hmeter⟩
  · intro other ctx' hother hmeter'
    cases e with
    | register id registered =>
      by_cases heq : other = id
      · subst heq
        obtain rfl : registered = ctx' := by simpa [RegistryEvent.apply] using hother
        exact he.mpr hmeter'
      · exact h.others other ctx' ((Function.update_of_ne heq ..).symm.trans hother) hmeter'
    | unregister id =>
      by_cases heq : other = id
      · subst heq
        simp [RegistryEvent.apply] at hother
      · exact h.others other ctx' ((Function.update_of_ne heq ..).symm.trans hother) hmeter'

/-- As long as the scan keeps its meter, the meter has exactly the calls of the scan in it, each of them once,
whatever other calls are answered in between. -/
theorem spent_add_owed_scan (hown : OwnMeter g scanId ref init.mem) (htasks : init.tasks = [])
    (hhistory : init.history = []) (hreach : Reachable (gatewaySystem g) (KeepsMeter scanId ref) init cfg) :
    spent ref cfg.mem + cfg.owed (priced (worthFor scanId)) =
      spent ref init.mem + billed (priced (worthFor scanId)) cfg.history := by
  have halive (cfg : GatewayConfiguration) (e : ProcessEvent) (he : KeepsMeter scanId ref cfg e) : e ≠ .crashed := by
    rintro rfl
    exact he
  have hkept {c : GatewayCall} {tr : Trace GatewayOp GatewayOp.Ans GatewayMemory} {m₀ m : GatewayMemory}
      (hm₀ : OwnMeter g scanId ref m₀) (hsame : SameBooks (booked g c tr m₀) m) : OwnMeter g scanId ref m :=
    hm₀.of_same (hsame.registry.trans (registry_booked tr m₀))
  apply account_scan.paid_add_owed (fun _ _ => rfl) halive htasks hhistory _ hreach
  intro cfg hcfg
  apply hcfg.keeps (obeys_ledger g) (fun _ _ _ _ _ _ => trivial) htasks
  · exact fun c tr m₀ m op hm₀ hsame => hkept hm₀ hsame
  · exact fun c tr m₀ m hm₀ hsame => hkept hm₀ hsame
  · intro cfg e m w he hm henv
    cases henv
    exact hm.apply he
  · exact halive
  · exact hown

end Conservation

/-! ## Two scans at a time -/

section Sample

/-- A gateway with a standalone meter. -/
def sampleGateway : Gateway where
  config := sampleConfig
  egress _ := .ok ()
  costMeter := some 2
  parseJson _ := none

/-- A call for a scan. -/
def sampleCall (scanId : ScanId) : GatewayCall :=
  .complete { toCompletionRequest := sampleRequest, scanId := some scanId, purpose := "triage" }

/-- Every dispatch is answered, with all the tokens that were asked for. -/
def sampleAnswer : (op : GatewayOp) → op.Ans
  | .estimateTokens | .turn => ()
  | .dispatch _ model _ => .ok
    { id := "msg", content := "", stopReason := .endTurn, model
      usage := { inputTokens := 1, outputTokens := 100, totalTokens := 101 } }
  | .sleep _ => .ok ()
  | .stream .. => ([], .done)
  | .openBatch _ => 0
  | .nextResult _ => .error { retriable := false }

/-- Two scans are registered, each with its own meter. -/
def sampleProcess : GatewayConfiguration where
  mem :=
    { meters := fun _ => createCostMeter "scan" 0
      registry := Function.update (Function.update (fun _ => none) "a" (some ⟨0, samplePolicy⟩)) "b"
        (some ⟨1, samplePolicy⟩) }
  world := ()
  tasks := []
  history := []

/-- A call for each scan, one of them with its reply not yet recorded, and the other scan over before its own is. -/
def sampleLabels : List (Label GatewayCall ((op : GatewayOp) → op.Ans) RegistryEvent) :=
  [.call (sampleCall "a"), .call (sampleCall "b")] ++ (turns 0 2 sampleAnswer ++ turns 1 3 sampleAnswer) ++
    [.resume 1, .env (.unregister "b"), .resume 0, .perform 0 sampleAnswer]

/-- The process goes on, and only the other scan is unregistered. -/
def sampleOk (_ : GatewayConfiguration) : ProcessEvent → Bool
  | .crashed | .env (.register ..) => false
  | .env (.unregister other) => decide (other = "b")
  | _ => true

/-- The reply for the one scan is still to be recorded, and that for the other is. -/
theorem sampleProcess_reaches : ∃ cfg, Reachable (gatewaySystem sampleGateway) (fun cfg e => sampleOk cfg e)
    sampleProcess cfg ∧ (spent 0 cfg.mem).2 = 0 ∧ (spent 2 cfg.mem).2 = 101 := by
  have hrun : (run? (gatewaySystem sampleGateway) sampleOk sampleLabels sampleProcess).any
      (fun cfg => decide ((spent 0 cfg.mem).2 = 0 ∧ (spent 2 cfg.mem).2 = 101)) = true := by decide +kernel
  obtain ⟨cfg, hreach, hspent⟩ := exists_reachable_of_run? hrun
  exact ⟨cfg, hreach, of_decide_eq_true hspent⟩

theorem alive_of_sampleOk (cfg : GatewayConfiguration) (e : ProcessEvent) (h : sampleOk cfg e = true) :
    Alive cfg e := by
  rintro rfl
  cases h

theorem keepsMeter_of_sampleOk (cfg : GatewayConfiguration) (e : ProcessEvent) (h : sampleOk cfg e = true) :
    KeepsMeter "a" 0 cfg e := by
  cases e with
  | crashed => cases h
  | env e =>
    cases e with
    | register other ctx => cases h
    | unregister other =>
      obtain rfl : other = "b" := of_decide_eq_true h
      exact (by decide : "b" ≠ "a")
  | entered | issued | performed | left => trivial

theorem ownMeter_sampleProcess : OwnMeter sampleGateway "a" 0 sampleProcess.mem where
  named := by decide
  standalone := by decide
  registered := ⟨⟨0, samplePolicy⟩, rfl, rfl⟩
  others other ctx hother hmeter := by
    by_cases hb : other = "b"
    · subst hb
      obtain rfl : (⟨1, samplePolicy⟩ : BudgetContext) = ctx := Option.some.inj hother
      cases hmeter
    · by_contra ha
      have hnone : sampleProcess.mem.registry other = none := by
        simp [sampleProcess, Function.update_of_ne hb, Function.update_of_ne ha]
      rw [hnone] at hother
      cases hother

/-- A log with a reply to be added. -/
theorem logged_add_owed_sample : ∃ cfg : GatewayConfiguration, (spent 0 cfg.mem).2 = 0 ∧
    logged cfg.mem + cfg.owed (priced fun charge => {charge.log}) =
      logged sampleProcess.mem + billed (priced fun charge => {charge.log}) cfg.history := by
  obtain ⟨cfg, hreach, hspent, -⟩ := sampleProcess_reaches
  exact ⟨cfg, hspent, logged_add_owed rfl rfl (hreach.mono alive_of_sampleOk)⟩

/-- A standalone meter that has one of two replies in it. -/
theorem spent_add_owed_standalone_sample : ∃ cfg : GatewayConfiguration, (spent 2 cfg.mem).2 = 101 ∧
    spent 2 cfg.mem + cfg.owed (priced Charge.worth) =
      spent 2 sampleProcess.mem + billed (priced Charge.worth) cfg.history := by
  obtain ⟨cfg, hreach, -, hspent⟩ := sampleProcess_reaches
  exact ⟨cfg, hspent, spent_add_owed_standalone rfl rfl rfl (hreach.mono alive_of_sampleOk)⟩

/-- The meter of a scan whose reply is to be recorded. -/
theorem spent_add_owed_scan_sample : ∃ cfg : GatewayConfiguration, (spent 0 cfg.mem).2 = 0 ∧
    spent 0 cfg.mem + cfg.owed (priced (worthFor "a")) =
      spent 0 sampleProcess.mem + billed (priced (worthFor "a")) cfg.history := by
  obtain ⟨cfg, hreach, hspent, -⟩ := sampleProcess_reaches
  exact ⟨cfg, hspent, spent_add_owed_scan ownMeter_sampleProcess rfl rfl (hreach.mono keepsMeter_of_sampleOk)⟩

end Sample

end Gateway

end MontrSecure.LlmGateway
