import MontrSecure.Contracts.Layers
import MontrSecure.Machine.Runs
import Mathlib.Algebra.GroupWithZero.Nat

/-!
# The inline scheduler

`InlineJobScheduler` of `packages/orchestrator/src/scheduler.ts`. A drain is the asynchronous function that `pump`
puts on the microtask queue; it runs without interruption up to its `await` of the processor. In between, jobs are
enqueued, by the processor or by anybody else, and the processor completes or rejects.
-/

namespace MontrSecure

/-! ## The scheduler -/

/-- Where a drain is. -/
inductive Drain where
  /-- It is on the microtask queue. -/
  | scheduled
  /-- It awaits the processor. -/
  | processing (job : LayerJobData)
  /-- The processor has completed or rejected, and the drain is to go on. -/
  | settled (rejected : Bool)

/-- `InlineJobScheduler`, with its drains; `handed` is what the processor was called with. -/
structure InlineJobScheduler where
  hasProcessor : Bool := false
  queue : List LayerJobData := []
  draining : Bool := false
  closed : Bool := false
  drains : List Drain := []
  handed : List LayerJobData := []

/-- What happens to the scheduler. -/
inductive SchedulerAction where
  | setProcessor
  | start
  | enqueue (job : LayerJobData)
  | close
  /-- The microtask of a drain runs. -/
  | drain (i : ℕ)
  /-- The processor that a drain awaits completes or rejects. -/
  | settle (i : ℕ) (rejected : Bool)
  /-- A drain goes on after its `await`. -/
  | resume (i : ℕ)

namespace InlineJobScheduler

variable (s : InlineJobScheduler)

/-- `pump`. -/
def pump : InlineJobScheduler :=
  if s.draining then s else { s with draining := true, drains := s.drains ++ [.scheduled] }

/-- The `finally` block of a drain. -/
def finish (i : ℕ) : InlineJobScheduler :=
  let s := { s with draining := false, drains := s.drains.eraseIdx i }
  if s.queue ≠ [] ∧ s.closed = false then s.pump else s

/-- The loop of a drain, up to its `await` or its end; without a processor the jobs are dropped. -/
def loop (i : ℕ) : InlineJobScheduler :=
  match s.queue with
  | [] => s.finish i
  | job :: rest =>
    if s.closed then s.finish i
    else if s.hasProcessor then
      { s with queue := rest, drains := s.drains.set i (.processing job), handed := s.handed ++ [job] }
    else finish { s with queue := [] } i

/-- What an action does. -/
def step : SchedulerAction → InlineJobScheduler → Option InlineJobScheduler
  | .setProcessor, s => some { s with hasProcessor := true }
  | .start, s => some { s with closed := false }
  | .enqueue job, s => some (if s.closed then s else { s with queue := s.queue ++ [job] }.pump)
  | .close, s => some { s with closed := true, queue := [] }
  | .drain i, s =>
    match s.drains[i]? with
    | some .scheduled => some (s.loop i)
    | _ => none
  | .settle i rejected, s =>
    match s.drains[i]? with
    | some (.processing _) => some { s with drains := s.drains.set i (.settled rejected) }
    | _ => none
  | .resume i, s =>
    match s.drains[i]? with
    | some (.settled rejected) => some (if rejected then s.finish i else s.loop i)
    | _ => none

/-- The scheduler when it has its processor and is started. -/
def started : InlineJobScheduler := { hasProcessor := true }

end InlineJobScheduler

/-- The actions of the drains and of the processor they await. -/
def SchedulerAction.OfDrain : SchedulerAction → Prop
  | .drain _ | .settle _ _ | .resume _ => True
  | _ => False

namespace InlineJobScheduler

/-! ## First in, first out -/

/-- The jobs that were enqueued, in order. -/
def enqueued (actions : List SchedulerAction) : List LayerJobData :=
  actions.filterMap fun a =>
    match a with
    | .enqueue job => some job
    | _ => none

/-- There is one drain while it is draining and none otherwise, when the queue is empty; and the jobs were handed
to the processor in the order in which they were enqueued. -/
structure Fifo (actions : List SchedulerAction) (s : InlineJobScheduler) : Prop where
  hasProcessor : s.hasProcessor = true
  closed : s.closed = false
  jobs : s.handed ++ s.queue = enqueued actions
  drains : s.draining = false ∧ s.drains = [] ∧ s.queue = [] ∨ s.draining = true ∧ ∃ d, s.drains = [d]

section Fifo

variable {s s' : InlineJobScheduler} {actions more : List SchedulerAction} {a : SchedulerAction} {i : ℕ} {d : Drain}

theorem enqueued_append : enqueued (actions ++ more) = enqueued actions ++ enqueued more :=
  List.filterMap_append

theorem fifo_started : Fifo [] started := ⟨rfl, rfl, rfl, .inl ⟨rfl, rfl, rfl⟩⟩

/-- Only actions that enqueue matter to what is enqueued. -/
theorem Fifo.of_silent (h : Fifo actions s) (ha : enqueued [a] = []) : Fifo (actions ++ [a]) s := by
  refine ⟨h.hasProcessor, h.closed, ?_, h.drains⟩
  rw [enqueued_append, ha, List.append_nil, h.jobs]

/-- The scheduler with one more job has a drain for it. -/
theorem Fifo.enqueue (h : Fifo actions s) (job : LayerJobData) :
    Fifo (actions ++ [.enqueue job]) { s with queue := s.queue ++ [job] }.pump := by
  have hjobs : s.handed ++ (s.queue ++ [job]) = enqueued (actions ++ [.enqueue job]) := by
    rw [← List.append_assoc, h.jobs, enqueued_append]
    rfl
  unfold pump
  obtain ⟨hidle, hnone, -⟩ | ⟨hdraining, hone⟩ := h.drains
  · rw [if_neg (by simp [hidle])]
    exact ⟨h.hasProcessor, h.closed, hjobs, .inr ⟨rfl, .scheduled, by simp [hnone]⟩⟩
  · rw [if_pos hdraining]
    exact ⟨h.hasProcessor, h.closed, hjobs, .inr ⟨hdraining, hone⟩⟩

/-- While there is a drain it is draining. -/
theorem Fifo.draining (h : Fifo actions s) (hd : s.drains = [d]) : s.draining = true := by
  obtain ⟨-, hnone, -⟩ | ⟨hdraining, -⟩ := h.drains
  · rw [hnone] at hd
    cases hd
  · exact hdraining

/-- The end of the drain starts another one when there are jobs. -/
theorem Fifo.finish (h : Fifo actions s) (hd : s.drains = [d]) : Fifo actions (s.finish 0) := by
  unfold InlineJobScheduler.finish
  by_cases hqueue : s.queue = []
  · rw [if_neg (by simp [hqueue])]
    exact ⟨h.hasProcessor, h.closed, h.jobs, .inl ⟨rfl, by simp [hd], hqueue⟩⟩
  · rw [if_pos ⟨hqueue, h.closed⟩]
    exact ⟨h.hasProcessor, h.closed, h.jobs, .inr ⟨rfl, .scheduled, by simp [pump, hd]⟩⟩

/-- The loop hands over the first job of the queue. -/
theorem Fifo.loop (h : Fifo actions s) (hd : s.drains = [d]) : Fifo actions (s.loop 0) := by
  unfold InlineJobScheduler.loop
  cases hqueue : s.queue with
  | nil => exact h.finish hd
  | cons job rest =>
    have hdraining : s.draining = true := h.draining hd
    have hjobs : s.handed ++ [job] ++ rest = enqueued actions := by
      rw [List.append_assoc, ← h.jobs, hqueue]
      rfl
    dsimp only
    rw [if_neg (by simp [h.closed]), if_pos h.hasProcessor]
    exact ⟨h.hasProcessor, h.closed, hjobs, .inr ⟨hdraining, .processing job, by simp [hd]⟩⟩

/-- The only drain there is. -/
theorem Fifo.eq_of_getElem? (h : Fifo actions s) (hd : s.drains[i]? = some d) : i = 0 ∧ s.drains = [d] := by
  obtain ⟨-, hnone, -⟩ | ⟨-, e, hone⟩ := h.drains
  · rw [hnone] at hd
    cases hd
  · rw [hone] at hd ⊢
    obtain ⟨hlt, hget⟩ := List.getElem?_eq_some_iff.mp hd
    obtain rfl : i = 0 := by simpa using hlt
    exact ⟨rfl, by rw [← hget]; rfl⟩

theorem step_drain (h : step (.drain i) s = some s') : s.drains[i]? = some .scheduled ∧ s' = s.loop i := by
  dsimp only [InlineJobScheduler.step] at h
  split at h
  · rename_i hd
    exact ⟨hd, (Option.some.inj h).symm⟩
  · cases h

theorem step_settle {rejected : Bool} (h : step (.settle i rejected) s = some s') :
    ∃ job, s.drains[i]? = some (.processing job) ∧ s' = { s with drains := s.drains.set i (.settled rejected) } := by
  dsimp only [InlineJobScheduler.step] at h
  split at h
  · rename_i job hd
    exact ⟨job, hd, (Option.some.inj h).symm⟩
  · cases h

theorem step_resume (h : step (.resume i) s = some s') :
    ∃ rejected, s.drains[i]? = some (.settled rejected) ∧ s' = if rejected then s.finish i else s.loop i := by
  dsimp only [InlineJobScheduler.step] at h
  split at h
  · rename_i rejected hd
    exact ⟨rejected, hd, (Option.some.inj h).symm⟩
  · cases h

/-- Whatever happens to the scheduler, short of closing it. -/
theorem Fifo.step (h : Fifo actions s) (ha : a ≠ .close) (hstep : step a s = some s') :
    Fifo (actions ++ [a]) s' := by
  cases a with
  | setProcessor =>
    obtain rfl := Option.some.inj hstep
    exact Fifo.of_silent ⟨rfl, h.closed, h.jobs, h.drains⟩ rfl
  | start =>
    obtain rfl := Option.some.inj hstep
    exact Fifo.of_silent ⟨h.hasProcessor, rfl, h.jobs, h.drains⟩ rfl
  | enqueue job =>
    obtain rfl := Option.some.inj hstep
    rw [if_neg (by simp [h.closed])]
    exact h.enqueue job
  | close => exact absurd rfl ha
  | drain i =>
    obtain ⟨hget, rfl⟩ := step_drain hstep
    obtain ⟨rfl, hd⟩ := h.eq_of_getElem? hget
    exact (h.loop hd).of_silent rfl
  | settle i rejected =>
    obtain ⟨job, hget, rfl⟩ := step_settle hstep
    obtain ⟨rfl, hd⟩ := h.eq_of_getElem? hget
    have hone : s.drains.set 0 (.settled rejected) = [.settled rejected] := by rw [hd]; rfl
    exact Fifo.of_silent ⟨h.hasProcessor, h.closed, h.jobs, .inr ⟨h.draining hd, _, hone⟩⟩ rfl
  | resume i =>
    obtain ⟨rejected, hget, rfl⟩ := step_resume hstep
    obtain ⟨rfl, hd⟩ := h.eq_of_getElem? hget
    cases rejected with
    | true => exact (h.finish hd).of_silent rfl
    | false => exact (h.loop hd).of_silent rfl

theorem fifo_of_run (hclose : .close ∉ actions) (hrun : Machine.run step actions started = some s) :
    Fifo actions s := by
  refine Machine.holds_of_run (P := (· ≠ .close)) fifo_started (fun _ _ _ _ ha h hstep => h.step ha hstep)
    (fun a ha => ?_) hrun
  rintro rfl
  exact hclose ha

/-! ## No job is left behind -/

/-- How far a drain is from its end, at most. -/
def drainWork : Drain → ℕ
  | .scheduled => 1
  | .processing _ => 3
  | .settled _ => 2

/-- How many actions of drains there can be before jobs are enqueued again. -/
def work (s : InlineJobScheduler) : ℕ := 4 * s.queue.length + (s.drains.map drainWork).sum

theorem work_finish (h : Fifo actions s) (hd : s.drains = [d]) : (s.finish 0).work ≤ 4 * s.queue.length + 1 := by
  unfold finish
  by_cases hqueue : s.queue = []
  · rw [if_neg (by simp [hqueue])]
    simp [work, hd, hqueue]
  · rw [if_pos ⟨hqueue, h.closed⟩]
    simp [work, pump, hd, drainWork]

/-- The loop takes a job, or ends the drain. -/
theorem work_loop (h : Fifo actions s) (hd : s.drains = [d]) : (s.loop 0).work ≤ 4 * s.queue.length := by
  unfold loop
  cases hqueue : s.queue with
  | nil =>
    dsimp only
    unfold finish
    rw [if_neg (by simp [hqueue])]
    simp [work, hd, hqueue]
  | cons job rest =>
    dsimp only
    rw [if_neg (by simp [h.closed]), if_pos h.hasProcessor]
    simp [work, hd, drainWork]
    omega

/-- Each action of a drain brings the drains closer to their end. -/
theorem work_step (h : Fifo actions s) (ha : a.OfDrain) (hstep : step a s = some s') : s'.work < s.work := by
  cases a with
  | setProcessor => exact ha.elim
  | start => exact ha.elim
  | enqueue job => exact ha.elim
  | close => exact ha.elim
  | drain i =>
    obtain ⟨hget, rfl⟩ := step_drain hstep
    obtain ⟨rfl, hd⟩ := h.eq_of_getElem? hget
    have hle := work_loop h hd
    simp [work, hd, drainWork] at hle ⊢
    omega
  | settle i rejected =>
    obtain ⟨job, hget, rfl⟩ := step_settle hstep
    obtain ⟨rfl, hd⟩ := h.eq_of_getElem? hget
    simp [work, hd, drainWork]
  | resume i =>
    obtain ⟨rejected, hget, rfl⟩ := step_resume hstep
    obtain ⟨rfl, hd⟩ := h.eq_of_getElem? hget
    have hwork : s.work = 4 * s.queue.length + 2 := by simp [work, hd, drainWork]
    cases rejected with
    | true =>
      have hle := work_finish h hd
      rw [if_pos rfl, hwork]
      omega
    | false =>
      have hle := work_loop h hd
      rw [if_neg Bool.false_ne_true, hwork]
      omega

/-- Drains and the processor can only act for so long before something is enqueued. -/
theorem length_le_work (h : Fifo actions s) (hmore : ∀ a ∈ more, a.OfDrain)
    (hrun : Machine.run step more s = some s') : more.length + s'.work ≤ s.work := by
  induction more generalizing actions s with
  | nil =>
    obtain rfl := Option.some.inj hrun
    simp
  | cons a more ih =>
    obtain ⟨ha, hmore⟩ := List.forall_mem_cons.mp hmore
    obtain ⟨t, hstep, hrun⟩ := Option.bind_eq_some_iff.mp hrun
    have hne : a ≠ .close := by
      rintro rfl
      exact ha
    have hrest := ih (h.step hne hstep) hmore hrun
    have hlt := work_step h ha hstep
    rw [List.length_cons]
    omega

/-- When no drain can act, there is nothing in the queue. -/
theorem queue_eq_nil (h : Fifo actions s) (hend : ∀ a : SchedulerAction, a.OfDrain → step a s = none) :
    s.queue = [] := by
  obtain ⟨-, -, hqueue⟩ | ⟨-, d, hd⟩ := h.drains
  · exact hqueue
  · exfalso
    cases d with
    | scheduled =>
      have hnone := hend (.drain 0) trivial
      simp [step, hd] at hnone
    | processing job =>
      have hnone := hend (.settle 0 false) trivial
      simp [step, hd] at hnone
    | settled rejected =>
      have hnone := hend (.resume 0) trivial
      simp [step, hd] at hnone

/-- In every run that does not close the scheduler: the processor is called with the jobs in the order in which
they were enqueued, each of them once, and never while it has another; a drain is there for the jobs in the queue;
and when the drains have come to their end, as they do unless more is enqueued, every job has been handed over. -/
theorem handed_in_order (actions : List SchedulerAction) (s : InlineJobScheduler) (hclose : .close ∉ actions)
    (hrun : Machine.run step actions started = some s) :
    s.handed ++ s.queue = enqueued actions ∧
      s.drains.length ≤ 1 ∧
      (s.queue ≠ [] → ∃ d ∈ s.drains, d = .scheduled ∨ (∃ job, d = .processing job) ∨ ∃ r, d = .settled r) ∧
      ∀ (more : List SchedulerAction) (s' : InlineJobScheduler), (∀ a ∈ more, a.OfDrain) →
        Machine.run step more s = some s' →
          more.length ≤ s.work ∧
            ((∀ a : SchedulerAction, a.OfDrain → step a s' = none) → s'.handed = enqueued actions) := by
  have h := fifo_of_run hclose hrun
  refine ⟨h.jobs, ?_, fun hqueue => ?_, fun more s' hmore hrun' => ⟨?_, fun hend => ?_⟩⟩
  · obtain ⟨-, hnone, -⟩ | ⟨-, d, hd⟩ := h.drains
    · simp [hnone]
    · simp [hd]
  · obtain ⟨-, -, hempty⟩ | ⟨-, d, hd⟩ := h.drains
    · exact absurd hempty hqueue
    · refine ⟨d, by simp [hd], ?_⟩
      cases d with
      | scheduled => exact .inl rfl
      | processing job => exact .inr (.inl ⟨job, rfl⟩)
      | settled rejected => exact .inr (.inr ⟨rejected, rfl⟩)
  · have hle := length_le_work h hmore hrun'
    omega
  · -- the longer run enqueues the same jobs
    have hlonger : Machine.run step (actions ++ more) started = some s' := by
      rw [Machine.run_append, hrun]
      exact hrun'
    have hsame : enqueued (actions ++ more) = enqueued actions := by
      have hnone : enqueued more = [] := by
        refine List.filterMap_eq_nil_iff.mpr fun a ha => ?_
        cases a with
        | enqueue job => exact (hmore _ ha).elim
        | _ => rfl
      rw [enqueued_append, hnone, List.append_nil]
    have hnot : .close ∉ actions ++ more := by
      rintro ha
      obtain ha | ha := List.mem_append.mp ha
      · exact hclose ha
      · exact hmore _ ha
    have h' := fifo_of_run hnot hlonger
    rw [← hsame, ← h'.jobs, queue_eq_nil h' hend, List.append_nil]

/-- The first layer enqueues the second one while it runs, and is then rejected. -/
theorem handed_in_order_rejected :
    let job : LayerJobData :=
      { scanId := "scan", clientId := "acme", idempotencyKey := "0", attempt := 0, resumeTokenRef := none
        payload := .layer1 "map" }
    let next : LayerJobData := { job with payload := .layer2 }
    ∃ s, Machine.run step [.enqueue job, .drain 0, .enqueue next, .settle 0 true, .resume 0, .drain 0] started =
        some s ∧
      s.handed ++ s.queue = [job, next] ∧ s.drains.length ≤ 1 := by
  intro job next
  have h := handed_in_order
    [.enqueue job, .drain 0, .enqueue next, .settle 0 true, .resume 0, .drain 0] _ (by simp) rfl
  exact ⟨_, rfl, h.1, h.2.1⟩

end Fifo

end InlineJobScheduler

end MontrSecure
