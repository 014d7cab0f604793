import MontrSecure.Orchestrator.Processor

/-!
# Runs of the pipeline

The answers of the world are those the protocol assumes, so every configuration a run reaches is
lawful. The rest of the module says what an operation, a delivery and a crash do to the database and
to the queues.
-/

namespace MontrSecure

open Async

variable {d : Deployment} {ok : PipelineConfig → PipelineStep → Prop} {cfg cfg' : PipelineConfig}
  {m : Memory} {w w' : World} {job : LayerJobData}

/-! ## Operations -/

/-- An operation of the store is carried out or rejected. -/
theorem Deployment.perform_store {q : StoreOp} {ch : Choice} {r : (Op.store q).Ans}
    (h : d.perform (.store q) ch m w = (w', r)) :
    (w' = w ∧ ∃ e, r = .error e) ∨
      ∃ v db, q.exec m.now w.db = .ok (v, db) ∧ w' = { w with db } ∧ r = .ok v := by
  simp only [perform] at h
  split at h
  · cases h
    exact .inl ⟨rfl, _, rfl⟩
  · split at h
    · cases h
      exact .inr ⟨_, _, by assumption, rfl, rfl⟩
    · cases h
      exact .inl ⟨rfl, _, rfl⟩

/-- A job is enqueued or rejected. -/
theorem Deployment.perform_enqueue {policy : RetryPolicy} {ch : Choice}
    {r : (Op.enqueue job policy).Ans} (h : d.perform (.enqueue job policy) ch m w = (w', r)) :
    (w' = w ∧ ∃ e, r = .error e) ∨ (w' = d.enqueue job w ∧ r = .ok ()) := by
  simp only [perform] at h
  split at h
  · cases h
    exact .inl ⟨rfl, _, rfl⟩
  · cases h
    exact .inr ⟨rfl, rfl⟩

/-- Any other operation leaves the database and the queues alone. -/
theorem Deployment.perform_other {op : Op} {ch : Choice} {r : op.Ans}
    (h : d.perform op ch m w = (w', r)) (hstore : ∀ q, op ≠ .store q)
    (henqueue : ∀ job policy, op ≠ .enqueue job policy) :
    w'.db = w.db ∧ w'.inline = w.inline ∧ w'.bull = w.bull := by
  cases op with
  | store q => exact absurd rfl (hstore q)
  | enqueue job policy => exact absurd rfl (henqueue job policy)
  | schedulerStart | publishKill | runLayer | sleep =>
    simp only [perform] at h
    split at h <;> cases h <;> exact ⟨rfl, rfl, rfl⟩
  | tick =>
    cases h
    exact ⟨rfl, rfl, rfl⟩

/-- The answers are those the protocol assumes. -/
theorem Deployment.perform_answers (op : Op) (ch : Choice) (m : Memory) (w : World) :
    Answers op (d.perform op ch m w).2 := by
  rcases hperform : d.perform op ch m w with ⟨w', r⟩
  cases op with
  | store q =>
    obtain ⟨-, e, rfl⟩ | ⟨v, db, hexec, -, rfl⟩ := perform_store hperform
    · cases q <;> trivial
    · cases q with
      | scansGet clientId id =>
        cases hexec
        cases hget : ScanRepository.get clientId id w.db with
        | none => trivial
        | some row =>
          simp only [ScanRepository.get, Option.filter_eq_some_iff, decide_eq_true_eq] at hget
          exact ⟨Table.key_of_get? hget.1, hget.2⟩
      | resumeGet clientId scanId =>
        cases hexec
        cases hget : ResumeRepository.get clientId scanId w.db with
        | none => trivial
        | some token =>
          simp only [ResumeRepository.get, Option.map_eq_some_iff] at hget
          obtain ⟨row, hrow, rfl⟩ := hget
          have hkey := Table.key_of_get? hrow
          exact (Prod.mk.inj hkey).2
      | fixesGet clientId id =>
        cases hexec
        cases hget : FixRepository.get clientId id w.db with
        | none => trivial
        | some fix =>
          simp only [FixRepository.get, Option.filter_eq_some_iff] at hget
          exact Table.key_of_get? hget.1
      | _ => trivial
  | tick =>
    cases hperform
    rfl
  | _ => trivial

/-- Every configuration a run reaches is lawful. -/
theorem Deployment.Reaches.lawful (h : d.Reaches ok cfg) :
    cfg.Lawful (pipelineProtocol d.config) := by
  refine Reachable.lawful d.body_obeys ?_ ?_ h
  · intro _ _ op ch m w
    exact d.perform_answers op ch m w
  · intro _ _ ht
    simp [initialConfig] at ht

/-- What a call was answered is in the history. -/
theorem Deployment.Reaches.performed_of_mem {n : ℕ} {t : PipelineTask} {x : OpAwait}
    (h : d.Reaches ok cfg) (ht : cfg.tasks[n]? = some t) (hx : x ∈ t.trace) :
    .performed n t.call x.op x.answer ∈ cfg.history :=
  Reachable.performed_of_mem_trace rfl h ht hx

/-- A call that names a scan holds a row of that scan. -/
theorem rowOf_id {config : MontrConfig} {c : Call} {tr : OpTrace} {scanId : ScanId} {row : Scan}
    (hconforms : (pipelineProtocol config c).Conforms tr) (hscan : c.scanId? = some scanId)
    (hrow : rowOf tr = some row) : row.id = scanId := by
  induction tr generalizing row with
  | nil => cases hrow
  | cons x tr ih =>
    obtain ⟨⟨m₀, -, -, hissues⟩, hanswers, hconforms⟩ := hconforms
    rw [rowOf, List.findSome?_cons] at hrow
    split at hrow
    · cases hrow
      rename_i hx
      unfold OpAwait.row? at hx
      split at hx
      · cases hx
        have hid : row.id = _ ∧ row.clientId = _ := hanswers
        exact hid.1.trans (hissues.1 scanId hscan)
      · cases hx
        obtain ⟨old, hold, -, hextends, -⟩ := hissues
        exact hextends.id.trans (ih hconforms hold)
      · cases hx
    · exact ih hconforms hrow

/-- A call that names a scan has read the checkpoint of that scan. -/
theorem tokenOf_scanId {config : MontrConfig} {c : Call} {tr : OpTrace} {scanId : ScanId}
    {token : ResumeToken} (hconforms : (pipelineProtocol config c).Conforms tr)
    (hscan : c.scanId? = some scanId) (htoken : tokenOf tr = some (some token)) :
    token.scanId = scanId := by
  obtain ⟨x, hx, htoken⟩ := List.exists_of_findSome?_eq_some htoken
  have hanswers := hconforms.answers hx
  obtain ⟨post, pre, -, hpre, m₀, -, -, hissues⟩ := hconforms.awaits hx
  unfold OpAwait.token? at htoken
  split at htoken
  · cases htoken
    obtain ⟨row, hrow, -, hid⟩ := hissues
    have hread : token.scanId = _ := hanswers
    exact hread.trans (hid.trans (rowOf_id hpre hscan hrow))
  · cases htoken

/-! ## The database -/

/-- The database changes only by an operation of the store that is carried out, or by a runner that
stores a pull request. -/
theorem step_db {e : PipelineStep} (hstep : Step d.system cfg e cfg') :
    cfg'.world.db = cfg.world.db ∨
      (∃ pr pullRequests, e = .env (.storePullRequest pr) ∧
        cfg'.world.db = { cfg.world.db with pullRequests }) ∨
      ∃ n t m q k v, e = .performed n t.call (.store q) (.ok v) ∧ cfg.tasks[n]? = some t ∧
        t.phase = .waiting m (.store q) k ∧
        q.exec cfg.mem.now cfg.world.db = .ok (v, cfg'.world.db) := by
  cases hstep with
  | @enter c w h =>
    refine .inl ?_
    simp only [Deployment.system, Deployment.enter] at h
    split at h
    · split at h <;> simp only [Option.map_eq_some_iff] at h <;> obtain ⟨_, -, rfl⟩ := h <;> rfl
    · split at h
      · cases h
      · split at h <;> cases h
        rfl
    · cases h
      rfl
  | issue => exact .inl rfl
  | @perform n t m op k ch ht hphase w r hperform =>
    change d.perform op ch cfg.mem cfg.world = (w, r) at hperform
    cases op with
    | store q =>
      obtain ⟨rfl, -⟩ | ⟨v, db, hexec, rfl, rfl⟩ := Deployment.perform_store hperform
      · exact .inl rfl
      · exact .inr (.inr ⟨n, t, m, q, k, v, rfl, ht, hphase, hexec⟩)
    | enqueue job policy =>
      obtain ⟨rfl, -⟩ | ⟨rfl, -⟩ := Deployment.perform_enqueue hperform
      · exact .inl rfl
      · refine .inl ?_
        simp only [Deployment.enqueue]
        split <;> rfl
    | _ => exact .inl (Deployment.perform_other hperform (by simp) (by simp)).1
  | @leave n t p m res ht hphase hrun =>
    refine .inl ?_
    simp only [Deployment.system, Deployment.leave]
    split
    · split <;> rfl
    · rfl
  | @env e m w h =>
    simp only [Deployment.system, Deployment.env] at h
    split at h
    · cases h
      exact .inl rfl
    · split at h <;> cases h
      exact .inl rfl
    · simp only [Option.map_eq_some_iff] at h
      obtain ⟨pullRequests, -, hw⟩ := h
      cases hw
      exact .inr (.inl ⟨_, pullRequests, rfl, rfl⟩)
  | crash => exact .inl rfl

/-- An operation of the store that was answered has been carried out. -/
theorem exec_of_performed {n : ℕ} {c : Call} {q : StoreOp} {v : q.Val}
    (hstep : Step d.system cfg (.performed n c (.store q) (.ok v)) cfg') :
    q.exec cfg.mem.now cfg.world.db = .ok (v, cfg'.world.db) := by
  cases hstep with
  | perform ch ht hphase hperform =>
    obtain ⟨-, err, hr⟩ | ⟨v', db, hexec, rfl, hr⟩ := Deployment.perform_store (d := d) hperform
    · cases hr
    · cases hr
      exact hexec

/-! ## The queues -/

namespace BullQueue

variable {q q' : BullQueue} {n : ℕ}

/-- A queue holds these jobs, waiting or being processed. -/
def HasJob (q : BullQueue) (job : LayerJobData) : Prop :=
  (∃ held ∈ q.waiting, held.job = job) ∨ ∃ entry ∈ q.active, entry.2.job = job

theorem hasJob_add {job' : LayerJobData} (h : (q.add job').HasJob job) :
    q.HasJob job ∨ job' = job := by
  unfold add at h
  split at h
  · exact .inl h
  · obtain ⟨held, hheld, hjob⟩ | h := h
    · obtain hheld | hheld := List.mem_append.mp hheld
      · exact .inl (.inl ⟨held, hheld, hjob⟩)
      · rw [List.mem_singleton.mp hheld] at hjob
        exact .inr hjob
    · exact .inl (.inr h)

theorem hasJob_take? {job' : LayerJobData} (hq : q.take? n job' = some q') (h : q'.HasJob job) :
    q.HasJob job := by
  unfold take? at hq
  split at hq
  · rename_i head rest hactive hwaiting
    split at hq
    · cases hq
      obtain ⟨held, hheld, hjob⟩ | ⟨entry, hentry, hjob⟩ := h
      · exact .inl ⟨held, hwaiting ▸ List.mem_cons_of_mem _ hheld, hjob⟩
      · rw [List.mem_singleton.mp hentry] at hjob
        exact .inl ⟨head, hwaiting ▸ List.mem_cons_self, hjob⟩
    · cases hq
  · cases hq

/-- The job a worker takes was waiting. -/
theorem hasJob_of_take? {job : LayerJobData} (hq : q.take? n job = some q') : q.HasJob job := by
  unfold take? at hq
  split at hq
  · rename_i head rest hactive hwaiting
    split at hq
    · rename_i hjob
      exact .inl ⟨head, hwaiting ▸ List.mem_cons_self, hjob⟩
    · cases hq
  · cases hq

theorem hasJob_done {limit : Option ℕ} {ok : Bool} (h : (q.done n limit ok).HasJob job) :
    q.HasJob job := by
  unfold done at h
  cases ok
  all_goals
    obtain h | ⟨entry, hentry, hjob⟩ := h
    · exact .inl h
    · exact .inr ⟨entry, (List.mem_filter.mp hentry).1, hjob⟩

theorem hasJob_stall (h : q.stall.HasJob job) : q.HasJob job := by
  obtain ⟨held, hheld, hjob⟩ | ⟨entry, hentry, -⟩ := h
  · obtain hheld | hheld := List.mem_append.mp hheld
    · simp only [List.mem_map, List.mem_filter] at hheld
      obtain ⟨held', ⟨⟨entry, hentry, rfl⟩, -⟩, rfl⟩ := hheld
      exact .inr ⟨entry, hentry, hjob⟩
    · exact .inl ⟨held, hheld, hjob⟩
  · cases hentry

end BullQueue

namespace InlineQueue

variable {q q' : InlineQueue} {n : ℕ} {job' : LayerJobData}

theorem jobs_of_take? (h : q.take? n job = some q') : q.jobs = job :: q'.jobs := by
  unfold take? at h
  split at h
  · rename_i head rest hdraining hjobs
    split at h
    · rename_i hhead
      cases h
      rw [hjobs, hhead]
    · cases h
  · cases h

@[simp]
theorem jobs_done : (q.done n).jobs = q.jobs := by
  unfold done
  split <;> rfl

end InlineQueue

/-- A job waits in the in-process queue, or a durable one holds it. -/
def World.HasJob (w : World) (job : LayerJobData) : Prop :=
  job ∈ w.inline.jobs ∨ ∃ layer, (w.bull layer).HasJob job

/-- A durable queue was replaced. -/
theorem World.hasJob_of_update {layer : LayerId} {q : BullQueue}
    (h : ({ w with bull := Function.update w.bull layer q } : World).HasJob job) :
    w.HasJob job ∨ q.HasJob job := by
  obtain h | ⟨layer', h⟩ := h
  · exact .inl (.inl h)
  · by_cases hlayer : layer' = layer
    · subst hlayer
      simp only [Function.update_self] at h
      exact .inr h
    · simp only [Function.update_of_ne hlayer] at h
      exact .inl (.inr ⟨layer', h⟩)

/-- What is delivered was held by a queue. -/
theorem Deployment.hasJob_of_enter {n : ℕ} (h : d.enter n (.runLayerJob job) w = some w') :
    w.HasJob job := by
  simp only [enter] at h
  split at h
  · simp only [Option.map_eq_some_iff] at h
    obtain ⟨q, hq, -⟩ := h
    exact .inl (InlineQueue.jobs_of_take? hq ▸ List.mem_cons_self)
  · simp only [Option.map_eq_some_iff] at h
    obtain ⟨q, hq, -⟩ := h
    exact .inr ⟨_, BullQueue.hasJob_of_take? hq⟩

/-- An enqueue that was answered has been carried out. -/
theorem enqueue_of_performed {n : ℕ} {c : Call} {policy : RetryPolicy}
    (hstep : Step d.system cfg (.performed n c (.enqueue job policy) (.ok ())) cfg') :
    cfg'.world = d.enqueue job cfg.world := by
  cases hstep with
  | perform ch ht hphase hperform =>
    obtain ⟨-, err, hr⟩ | ⟨rfl, -⟩ := Deployment.perform_enqueue (d := d) (m := cfg.mem) hperform
    · cases hr
    · rfl

/-- The queues hold a job only because it has been enqueued. -/
theorem step_hasJob {e : PipelineStep} (hstep : Step d.system cfg e cfg')
    (h : cfg'.world.HasJob job) :
    cfg.world.HasJob job ∨
      ∃ n t m policy k, e = .performed n t.call (.enqueue job policy) (.ok ()) ∧
        cfg.tasks[n]? = some t ∧ t.phase = .waiting m (.enqueue job policy) k := by
  cases hstep with
  | @enter c w henter =>
    refine .inl ?_
    cases c with
    | runLayerJob job' =>
      simp only [Deployment.system, Deployment.enter] at henter
      split at henter
      · simp only [Option.map_eq_some_iff] at henter
        obtain ⟨q, hq, rfl⟩ := henter
        obtain h | h := h
        · exact .inl (InlineQueue.jobs_of_take? hq ▸ List.mem_cons_of_mem _ h)
        · exact .inr h
      · simp only [Option.map_eq_some_iff] at henter
        obtain ⟨q, hq, rfl⟩ := henter
        obtain h | h := World.hasJob_of_update h
        · exact h
        · exact .inr ⟨_, BullQueue.hasJob_take? hq h⟩
    | remoteKill signal =>
      simp only [Deployment.system, Deployment.enter] at henter
      split at henter
      · cases henter
      · split at henter <;> cases henter
        exact h
    | _ =>
      cases henter
      exact h
  | issue => exact .inl h
  | @perform n t m op k ch ht hphase w r hperform =>
    change d.perform op ch cfg.mem cfg.world = (w, r) at hperform
    cases op with
    | store q =>
      obtain ⟨rfl, -⟩ | ⟨v, db, -, rfl, -⟩ := Deployment.perform_store hperform
      · exact .inl h
      · exact .inl h
    | enqueue job' policy =>
      obtain ⟨rfl, -⟩ | ⟨rfl, rfl⟩ := Deployment.perform_enqueue hperform
      · exact .inl h
      · have hjob : cfg.world.HasJob job ∨ job' = job := by
          simp only [Deployment.enqueue] at h
          split at h
          · obtain h | h := h
            · obtain h | h := List.mem_append.mp h
              · exact .inl (.inl h)
              · exact .inr (List.mem_singleton.mp h).symm
            · exact .inl (.inr h)
          · obtain h | h := World.hasJob_of_update h
            · exact .inl h
            · exact (BullQueue.hasJob_add h).imp_left fun h => .inr ⟨_, h⟩
        obtain h | rfl := hjob
        · exact .inl h
        · exact .inr ⟨n, t, m, policy, k, rfl, ht, hphase⟩
    | _ =>
      obtain ⟨-, hinline, hbull⟩ := Deployment.perform_other hperform (by simp) (by simp)
      simp only [World.HasJob, hinline, hbull] at h
      exact .inl h
  | @leave n t p m res ht hphase hrun =>
    refine .inl ?_
    simp only [Deployment.system, Deployment.leave] at h
    split at h
    · split at h
      · simpa [World.HasJob] using h
      · obtain h | h := World.hasJob_of_update h
        · exact h
        · exact .inr ⟨_, BullQueue.hasJob_done h⟩
    · exact h
  | @env e m w henv =>
    refine .inl ?_
    simp only [Deployment.system, Deployment.env] at henv
    split at henv
    · cases henv
      exact h
    · split at henv <;> cases henv
      exact h
    · simp only [Option.map_eq_some_iff] at henv
      obtain ⟨_, -, hw⟩ := henv
      cases hw
      exact h
  | crash =>
    obtain h | ⟨layer, h⟩ := h
    · cases h
    · exact .inl (.inr ⟨layer, BullQueue.hasJob_stall h⟩)

/-! ## Replays -/

/-- A label of the pipeline. -/
abbrev PipelineLabel := Label Call Choice Env

/-- A configuration that a replay of labels ends with. -/
theorem Deployment.exists_reaches (d : Deployment) (check : PipelineConfig → PipelineStep → Bool)
    (ls : List PipelineLabel) (p : PipelineConfig → Bool)
    (h : (run? d.system check ls initialConfig).any p = true) :
    ∃ cfg, d.Reaches (fun cfg e => check cfg e) cfg ∧ p cfg = true :=
  exists_reachable_of_run? h

/-- A lifecycle call that nothing goes wrong in, with its `k` awaits. -/
def callThrough (n : ℕ) (c : Call) (k : ℕ) : List PipelineLabel := callTurns n c k .resolve

/-- A job is delivered and its runner called. -/
def jobToRunner (n : ℕ) (job : LayerJobData) : List PipelineLabel :=
  [.call (.runLayerJob job)] ++ turns n 1 .resolve ++ [.resume n]

/-- A job is delivered, its runner returns `out`, and `k` more awaits take it to its end. -/
def jobThrough (n : ℕ) (job : LayerJobData) (out : LayerOutput) (k : ℕ) : List PipelineLabel :=
  jobToRunner n job ++ [.perform n (.output (.wellFormed out))] ++ turns n k .resolve ++ [.resume n]

/-- A job is delivered, its only attempt fails for good, and the scan is set failed. -/
def jobFails (n : ℕ) (job : LayerJobData) : List PipelineLabel :=
  jobToRunner n job ++ [.perform n (.reject (.montr .egressBlocked "blocked" false))] ++
    turns n 2 .resolve ++ [.resume n]

/-- A deployment that asks for no approval of the estimate. -/
def estimateFreeDeployment : Deployment :=
  { config := { clientId := "acme", budget := { requireEstimateApproval := false } } }

/-- A scan to replay with. -/
def demoInput (budgetPolicy : Option BudgetPolicy := none) : CreateScanInput :=
  { clientId := "acme", repo := "shop", branch := "main", mode := .full, scope := { mode := .full }
    operator := "ann", budgetPolicy }

/-- Its jobs. -/
def demoJob (payload : LayerPayload) : LayerJobData :=
  { scanId := "scan", clientId := "acme"
    idempotencyKey := buildIdempotencyKey "scan" payload.layer
    attempt := 0, resumeTokenRef := some "scan", payload }

/-- Its Layer 0 job. -/
def demoIntakeJob : LayerJobData := demoJob (.layer0 "shop" "main" .full { mode := .full })

/-- What its intake finds. -/
def demoIntake : LayerOutput :=
  .layer0
    { appMap :=
        { id := "map", clientId := "acme", repo := "shop", branch := "main", commitSha := "c0ffee0"
          createdAt := 0 }
      scope := { mode := .full }
      costEstimate :=
        { scanId := some "scan", mode := .full, projectedInputTokens := 0
          projectedOutputTokens := 0, projectedTotalTokens := 0, projectedUsd := 0
          projectedWallClockSeconds := 0, basis := "", byLayer := [], createdAt := 0 } }

/-- The scan is created and started. -/
def demoStart (budgetPolicy : Option BudgetPolicy := none) : List PipelineLabel :=
  callThrough 0 (.createScan (demoInput budgetPolicy) "scan") 2 ++ callThrough 1 (.start "scan") 7

example : (run? estimateFreeDeployment.system (fun _ _ => true) demoStart initialConfig).isSome = true := by
  decide +kernel

end MontrSecure
