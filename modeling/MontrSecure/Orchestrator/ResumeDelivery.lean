import MontrSecure.Orchestrator.Runs

/-!
# Delivery of resumed layers

`resume` enqueues the next layer again under the idempotency key of its first job. The in-process queue delivers
whatever is enqueued. A durable queue drops a job whose id it holds, and it holds the ids of finished jobs: a layer
that has failed counts as finished, since the processor returns normally. `resumesDeliver_of_notRetained` says in
which runs a resumed layer is delivered.
-/

namespace MontrSecure

open Async

/-! ## What is queued -/

/-- A job with this id waits to be delivered. -/
def Deployment.Queued (d : Deployment) (w : World) (jobId : String) : Prop :=
  match d.transport with
  | .inline => ∃ job ∈ w.inline.jobs, job.idempotencyKey = jobId
  | .bullmq => ∃ layer, ∃ held ∈ (w.bull layer).waiting, held.jobId = jobId

/-- The queue holds the id of a job that does not wait: it is being processed, or it is over. -/
def BullQueue.retains (q : BullQueue) (jobId : String) : Bool :=
  q.active.any (·.2.jobId = jobId) || q.completed.contains jobId || q.failed.contains jobId

namespace BullQueue

variable {q q' : BullQueue} {n : ℕ} {job : LayerJobData} {jobId : String} {held : HeldJob}

theorem holds_iff :
    q.holds jobId = true ↔ (∃ held ∈ q.waiting, held.jobId = jobId) ∨ q.retains jobId = true := by
  simp [holds, retains, List.any_eq_true, or_assoc]

theorem mem_waiting_add (h : held ∈ q.waiting) : held ∈ (q.add job).waiting := by
  unfold add
  split
  · exact h
  · exact List.mem_append_left _ h

/-- After a job is added, one with its id waits, unless the queue holds that id otherwise. -/
theorem waits_add_iff : (∃ held ∈ (q.add job).waiting, held.jobId = job.idempotencyKey) ↔
    (∃ held ∈ q.waiting, held.jobId = job.idempotencyKey) ∨ q.retains job.idempotencyKey = false := by
  by_cases hwaits : ∃ held ∈ q.waiting, held.jobId = job.idempotencyKey
  · obtain ⟨held, hheld, hid⟩ := hwaits
    exact iff_of_true ⟨held, mem_waiting_add hheld, hid⟩ (Or.inl ⟨held, hheld, hid⟩)
  · unfold add
    rw [or_iff_right hwaits]
    cases hretains : q.retains job.idempotencyKey with
    | true =>
      rw [if_pos (holds_iff.mpr (Or.inr hretains))]
      exact iff_of_false hwaits (by simp)
    | false =>
      have hholds : ¬q.holds job.idempotencyKey = true := by
        rw [holds_iff, hretains]
        simpa using hwaits
      rw [if_neg hholds]
      exact iff_of_true ⟨{ job }, by simp, rfl⟩ rfl

/-- The worker takes one job; the others go on waiting. -/
theorem waiting_of_take? (h : q.take? n job = some q') : ∃ head, head.job = job ∧ q.waiting = head :: q'.waiting := by
  unfold take? at h
  split at h
  · rename_i head rest hactive hwaiting
    split at h
    · rename_i hhead
      obtain rfl := Option.some.inj h
      exact ⟨head, hhead, hwaiting⟩
    · cases h
  · cases h

theorem waiting_done {limit : Option ℕ} {ok : Bool} : (q.done n limit ok).waiting = q.waiting := by
  cases ok <;> rfl

/-- What waits outlives the worker. -/
theorem mem_waiting_stall (h : held ∈ q.waiting) : held ∈ q.stall.waiting := List.mem_append_right _ h

/-- A processor that returns normally leaves the id of its job with the queue. -/
theorem retains_done {limit : ℕ} (hlimit : 0 < limit) (hactive : q.active = [(n, held)]) :
    (q.done n (some limit) true).retains held.jobId = true := by
  obtain ⟨k, rfl⟩ : ∃ k, limit = k + 1 := ⟨limit - 1, by omega⟩
  simp [done, retains, hactive]

end BullQueue

variable {d : Deployment} {cfg cfg' : PipelineConfig} {w w' : World} {jobId : String}

/-- An idle worker takes the job at the head of its queue. -/
theorem Deployment.enter_head {n : ℕ} {held : HeldJob} {rest : List HeldJob} (hd : d.transport = .bullmq)
    (hactive : (w.bull held.job.layer).active = []) (hwaiting : (w.bull held.job.layer).waiting = held :: rest) :
    (d.enter n (.runLayerJob held.job) w).isSome = true := by
  simp [enter, hd, BullQueue.take?, hactive, hwaiting]

/-- One durable queue was replaced by one in which the same jobs wait. -/
theorem Deployment.Queued.update {layer : LayerId} {q : BullQueue} (hd : d.transport = .bullmq)
    (h : d.Queued w jobId) (hq : ∀ held ∈ (w.bull layer).waiting, held.jobId = jobId → held ∈ q.waiting) :
    d.Queued { w with bull := Function.update w.bull layer q } jobId := by
  simp only [Queued, hd] at h ⊢
  obtain ⟨layer', held, hheld, hid⟩ := h
  by_cases hlayer : layer' = layer
  · subst hlayer
    exact ⟨layer', held, by simpa using hq held hheld hid, hid⟩
  · exact ⟨layer', held, by simpa [Function.update_of_ne hlayer] using hheld, hid⟩

/-- Enqueuing takes nothing out of a queue. -/
theorem Deployment.Queued.enqueue (job : LayerJobData) (h : d.Queued w jobId) : d.Queued (d.enqueue job w) jobId := by
  cases hd : d.transport with
  | inline =>
    simp only [Queued, hd, Deployment.enqueue, InlineQueue.push] at h ⊢
    obtain ⟨job', hjob', hid⟩ := h
    exact ⟨job', List.mem_append_left _ hjob', hid⟩
  | bullmq =>
    have hupdate := h.update (q := (w.bull job.layer).add job) hd fun held hheld _ => BullQueue.mem_waiting_add hheld
    simpa [Deployment.enqueue, hd] using hupdate

/-- What is enqueued waits: in process always, in a durable queue unless that retains its id. -/
theorem Deployment.queued_enqueue (job : LayerJobData)
    (h : d.transport = .bullmq → (w.bull job.layer).retains job.idempotencyKey = false) :
    d.Queued (d.enqueue job w) job.idempotencyKey := by
  cases hd : d.transport with
  | inline =>
    simp only [Queued, hd, Deployment.enqueue, InlineQueue.push]
    exact ⟨job, by simp, rfl⟩
  | bullmq =>
    obtain ⟨held, hheld, hid⟩ := BullQueue.waits_add_iff.mpr (Or.inr (h hd))
    simp only [Queued, hd, Deployment.enqueue]
    exact ⟨job.layer, held, by simpa using hheld, hid⟩

/-- A delivery takes one job from the queues, and no other call takes any. -/
theorem Deployment.Queued.enter {n : ℕ} {c : Call} (h : d.Queued w jobId) (henter : d.enter n c w = some w') :
    d.Queued w' jobId ∨ ∃ job, c = .runLayerJob job ∧ job.idempotencyKey = jobId := by
  cases c with
  | runLayerJob job =>
    by_cases hid : job.idempotencyKey = jobId
    · exact Or.inr ⟨job, rfl, hid⟩
    left
    cases hd : d.transport with
    | inline =>
      simp only [Deployment.enter, hd, Option.map_eq_some_iff] at henter
      obtain ⟨q, hq, rfl⟩ := henter
      simp only [Queued, hd] at h ⊢
      obtain ⟨job', hjob', hid'⟩ := h
      rw [InlineQueue.jobs_of_take? hq] at hjob'
      obtain rfl | hjob' := List.mem_cons.mp hjob'
      · exact absurd hid' hid
      · exact ⟨job', hjob', hid'⟩
    | bullmq =>
      simp only [Deployment.enter, hd, Option.map_eq_some_iff] at henter
      obtain ⟨q, hq, rfl⟩ := henter
      obtain ⟨head, hhead, hwaiting⟩ := BullQueue.waiting_of_take? hq
      refine h.update hd fun held hheld hid' => ?_
      rw [hwaiting] at hheld
      obtain rfl | hheld := List.mem_cons.mp hheld
      · exact absurd (hhead ▸ hid') hid
      · exact hheld
  | remoteKill signal =>
    left
    dsimp only [Deployment.enter] at henter
    split at henter
    · cases henter
    · split at henter
      · obtain rfl := Option.some.inj henter
        exact h
      · cases henter
  | _ =>
    obtain rfl := Option.some.inj henter
    exact Or.inl h

/-- A step of the pipeline delivers a queued job or leaves it queued, except that a stop of the process loses what is
queued in it. -/
theorem step_queued {e : PipelineStep} (hstep : Step d.system cfg e cfg') (h : d.Queued cfg.world jobId)
    (hcrash : d.transport = .inline → e ≠ .crashed) :
    d.Queued cfg'.world jobId ∨ ∃ n job, e = .entered n (.runLayerJob job) ∧ job.idempotencyKey = jobId := by
  cases hstep with
  | enter henter =>
    obtain h | ⟨job, rfl, hid⟩ := h.enter henter
    · exact Or.inl h
    · exact Or.inr ⟨_, job, rfl, hid⟩
  | issue => exact Or.inl h
  | @perform n t m op k ch ht hphase w r hperform =>
    left
    change d.perform op ch cfg.mem cfg.world = (w, r) at hperform
    show d.Queued w jobId
    cases op with
    | store q =>
      obtain ⟨rfl, -⟩ | ⟨v, db, -, rfl, -⟩ := Deployment.perform_store hperform
      · exact h
      · exact h
    | enqueue job policy =>
      obtain ⟨rfl, -⟩ | ⟨rfl, -⟩ := Deployment.perform_enqueue hperform
      · exact h
      · exact h.enqueue job
    | _ =>
      obtain ⟨-, hinline, hbull⟩ := Deployment.perform_other hperform (by simp) (by simp)
      simpa only [Deployment.Queued, hinline, hbull] using h
  | @leave n t p m res ht hphase hrun =>
    left
    show d.Queued (d.leave n t.call res cfg.world) jobId
    unfold Deployment.leave
    split
    · split
      · rename_i hd
        simpa only [Deployment.Queued, hd, InlineQueue.jobs_done] using h
      · rename_i hd
        exact h.update hd fun held hheld _ => by rwa [BullQueue.waiting_done]
    · exact h
  | @env e m w henv =>
    left
    simp only [Deployment.system, Deployment.env] at henv
    split at henv
    · obtain ⟨rfl, rfl⟩ := Prod.mk.inj (Option.some.inj henv)
      exact h
    · split at henv
      · obtain ⟨rfl, rfl⟩ := Prod.mk.inj (Option.some.inj henv)
        exact h
      · cases henv
    · obtain ⟨pullRequests, -, hw⟩ := Option.map_eq_some_iff.mp henv
      obtain ⟨rfl, rfl⟩ := Prod.mk.inj hw
      exact h
  | crash =>
    left
    cases hd : d.transport with
    | inline => exact absurd rfl (hcrash hd)
    | bullmq =>
      simp only [Deployment.Queued, hd] at h
      obtain ⟨layer, held, hheld, hid⟩ := h
      simp only [Deployment.Queued, hd]
      exact ⟨layer, held, BullQueue.mem_waiting_stall hheld, hid⟩

/-! ## Resumed layers -/

/-- A job of the same layer was delivered before, and its processor returned normally: after it set the scan failed,
or because it found the scan paused. -/
def StoppedBefore (job : LayerJobData) (history : List PipelineStep) : Prop :=
  ∃ k stopped, .left k (.runLayerJob stopped) (.ok ()) ∈ history ∧ stopped.scanId = job.scanId ∧
    stopped.layer = job.layer ∧
    ((∃ c clientId row r, .performed k c (.store (.scansUpdate clientId row)) (.ok r) ∈ history ∧
        row.status = .failed) ∨
      ∃ c clientId id row, .performed k c (.store (.scansGet clientId id)) (.ok (some row)) ∈ history ∧
        row.status = .paused)

/-- The layer that a resume enqueues after it was stopped is delivered: its job waits for a worker, or it has been
delivered since. -/
def ResumesDeliver (d : Deployment) (cfg : PipelineConfig) : Prop :=
  ∀ post pre n s job policy,
    cfg.history = post ++ .performed n (.resume s) (.enqueue job policy) (.ok ()) :: pre → StoppedBefore job pre →
      d.Queued cfg.world job.idempotencyKey ∨
        ∃ k job', .entered k (.runLayerJob job') ∈ post ∧ job'.idempotencyKey = job.idempotencyKey

/-- When a resume enqueues a stopped layer again, the durable queue no longer holds the id of its job, be it active,
completed or failed. The in-process queue asks for nothing but that the process does not stop. -/
def NotRetained (d : Deployment) (cfg : PipelineConfig) (e : PipelineStep) : Prop :=
  match d.transport with
  | .inline => e ≠ .crashed
  | .bullmq => ∀ n s job policy, e = .performed n (.resume s) (.enqueue job policy) (.ok ()) →
      StoppedBefore job cfg.history → (cfg.world.bull job.layer).retains job.idempotencyKey = false

/-- In the runs in which no stopped layer is enqueued under a retained id, every resumed layer is delivered. -/
theorem resumesDeliver_of_notRetained (d : Deployment) (cfg : PipelineConfig)
    (hreach : d.Reaches (NotRetained d) cfg) : ResumesDeliver d cfg := by
  induction hreach with
  | start =>
    intro post pre n s job policy hhistory
    simp [initialConfig] at hhistory
  | @step cfg cfg' e hreach hok hstep ih =>
    intro post pre n s job policy hhistory hstopped
    rw [hstep.history] at hhistory
    cases post with
    | nil =>
      -- the resume has just enqueued the layer
      obtain ⟨rfl, rfl⟩ := List.cons.inj hhistory
      left
      rw [enqueue_of_performed hstep]
      refine Deployment.queued_enqueue job fun hd => ?_
      simp only [NotRetained, hd] at hok
      exact hok n s job policy rfl hstopped
    | cons e' post =>
      -- it did so before: the job is still queued, it is delivered now, or it was
      obtain ⟨rfl, hpast⟩ := List.cons.inj hhistory
      obtain hqueued | ⟨k, job', hentered, hid⟩ := ih post pre n s job policy hpast hstopped
      · have hcrash : d.transport = .inline → e ≠ .crashed := by
          intro hd
          simpa only [NotRetained, hd] using hok
        obtain hqueued | ⟨k, job', rfl, hid⟩ := step_queued hstep hqueued hcrash
        · exact Or.inl hqueued
        · exact Or.inr ⟨k, job', List.mem_cons_self, hid⟩
      · exact Or.inr ⟨k, job', List.mem_cons_of_mem _ hentered, hid⟩

/-! ## Runs -/

/-- `StoppedBefore`, computed, of a layer that has failed. -/
def failedBefore (job : LayerJobData) (history : List PipelineStep) : Bool :=
  history.any fun e =>
    match e with
    | .left k (.runLayerJob stopped) (.ok ()) =>
      stopped.scanId = job.scanId && stopped.layer = job.layer &&
        history.any fun e =>
          match e with
          | .performed k' _ (.store (.scansUpdate _ row)) (.ok _) => k' = k && row.status = .failed
          | _ => false
    | _ => false

theorem stoppedBefore_of_failedBefore {job : LayerJobData} {history : List PipelineStep}
    (h : failedBefore job history = true) : StoppedBefore job history := by
  obtain ⟨e, he, h⟩ := List.any_eq_true.mp h
  split at h
  · rename_i k stopped
    simp only [Bool.and_eq_true, decide_eq_true_eq] at h
    obtain ⟨⟨hscan, hlayer⟩, hfailed⟩ := h
    obtain ⟨e', he', hfailed⟩ := List.any_eq_true.mp hfailed
    split at hfailed
    · simp only [Bool.and_eq_true, decide_eq_true_eq] at hfailed
      obtain ⟨rfl, hstatus⟩ := hfailed
      exact ⟨_, stopped, he, hscan, hlayer, Or.inl ⟨_, _, _, _, he', hstatus⟩⟩
    · cases hfailed
  · cases h

/-- The last thing that happened is that a resume enqueued a layer which has failed before. -/
def resumesFailed : List PipelineStep → Bool
  | .performed _ (.resume _) (.enqueue job _) (.ok _) :: pre => failedBefore job pre
  | _ => false

theorem exists_of_resumesFailed {history : List PipelineStep} (h : resumesFailed history = true) :
    ∃ n s job policy pre,
      history = .performed n (.resume s) (.enqueue job policy) (.ok ()) :: pre ∧ StoppedBefore job pre := by
  unfold resumesFailed at h
  split at h
  · exact ⟨_, _, _, _, _, rfl, stoppedBefore_of_failedBefore h⟩
  · cases h

example : resumesFailed [] = false := by decide +kernel

/-- Layer 0 fails, and the scan is resumed up to the point where Layer 0 is enqueued again. -/
def resumedRun : List PipelineLabel :=
  demoStart ++ jobFails 2 demoIntakeJob ++ [.call (.resume "scan")] ++ turns 3 6 .resolve

/-- The in-process queue has the layer. -/
theorem resumesDeliver_of_resumedRun : ∃ cfg, estimateFreeDeployment.Reaches (NotRetained estimateFreeDeployment) cfg ∧
    (∃ n s job policy pre, cfg.history = .performed n (.resume s) (.enqueue job policy) (.ok ()) :: pre ∧
      StoppedBefore job pre) ∧ ResumesDeliver estimateFreeDeployment cfg := by
  obtain ⟨cfg, hreach, hcfg⟩ := estimateFreeDeployment.exists_reaches
    (fun _ e => match e with | .crashed => false | _ => true) resumedRun
    (fun cfg => resumesFailed cfg.history) (by decide +kernel)
  have hok : estimateFreeDeployment.Reaches (NotRetained estimateFreeDeployment) cfg := by
    refine hreach.mono fun cfg e he => ?_
    rintro rfl
    cases he
  obtain ⟨n, s, job, policy, pre, hhistory, hstopped⟩ := exists_of_resumesFailed hcfg
  exact ⟨cfg, hok, ⟨n, s, job, policy, pre, hhistory, hstopped⟩,
    resumesDeliver_of_notRetained estimateFreeDeployment cfg hok⟩

/-- The durable queue still holds the id of the failed job, and drops the layer. -/
theorem not_resumesDeliver_of_retained : ¬∀ d : Deployment, d.transport = .bullmq →
    ∀ cfg, d.Reaches (fun _ _ => True) cfg → ResumesDeliver d cfg := by
  intro h
  let d : Deployment := { estimateFreeDeployment with transport := .bullmq }
  obtain ⟨cfg, hreach, hcfg⟩ := d.exists_reaches (fun _ _ => true) resumedRun
    (fun cfg => resumesFailed cfg.history &&
      layerOrder.all fun layer => (cfg.world.bull layer).waiting.isEmpty) (by decide +kernel)
  obtain ⟨hresumed, hempty⟩ := Bool.and_eq_true_iff.mp hcfg
  obtain ⟨n, s, job, policy, pre, hhistory, hstopped⟩ := exists_of_resumesFailed hresumed
  obtain ⟨layer, held, hheld, -⟩ | ⟨k, job', hentered, -⟩ :=
    h d rfl cfg (hreach.mono fun _ _ _ => trivial) [] pre n s job policy hhistory hstopped
  · have hlayer := List.all_eq_true.mp hempty layer (by cases layer <;> simp [layerOrder])
    rw [List.isEmpty_iff.mp hlayer] at hheld
    cases hheld
  · cases hentered

end MontrSecure
