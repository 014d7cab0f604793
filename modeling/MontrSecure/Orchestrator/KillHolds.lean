import MontrSecure.Orchestrator.Runs

/-!
# What a kill stops

A kill marks the scan and aborts the signal its controller holds. A runner that was given that signal is stopped,
and no other is started, as `signalFor` gives a killed scan a signal that is aborted already. The controller is the
only way to a signal that is in use, and `cleanup` drops it: `killHolds_of_keepsControllers` says that a kill holds
in the runs in which it is not dropped while a runner of the scan is at work.
-/

namespace MontrSecure

open Async

/-! ## The registry -/

namespace KillRegistry

variable {kills kills' : KillRegistry} {scanId other : ScanId} {signal : SignalId} {reason : String}

/-- The signals of the controllers exist. -/
def WellFormed (kills : KillRegistry) : Prop := ∀ entry ∈ kills.controllers, entry.2 < kills.signals.length

/-- A kill of the scan stops who holds the signal: it is aborted, or the controller of the scan holds it and the scan
has not been killed. -/
def Stops (kills : KillRegistry) (scanId : ScanId) (signal : SignalId) : Prop :=
  kills.aborted signal = true ∨ kills.isKilled scanId = false ∧ kills.controller? scanId = some signal

theorem isKilled_iff : kills.isKilled scanId = true ↔ kills.globalKilled = true ∨ scanId ∈ kills.killed := by
  simp [isKilled]

example : ({ globalKilled := true } : KillRegistry).isKilled "scan" = true := by decide +kernel

theorem aborted_iff : kills.aborted signal = true ↔ ∃ err, kills.signals[signal]? = some (some err) := by
  simp [aborted, reason?, Option.isSome_iff_exists, Option.join_eq_some_iff]

/-- The entry that a lookup finds. -/
theorem mem_of_controller? (h : kills.controller? scanId = some signal) : (scanId, signal) ∈ kills.controllers := by
  unfold controller? at h
  obtain ⟨pre, post, hsplit, -⟩ := List.lookup_eq_some_iff.mp h
  rw [hsplit]
  simp

theorem controller?_append {entry : ScanId × SignalId} (h : kills.controller? scanId = some signal) :
    (kills.controllers ++ [entry]).lookup scanId = some signal := by
  unfold controller? at h
  rw [List.lookup_append, h]
  rfl

/-! ### Aborting -/

theorem aborted_of_append {entry : Option Err} (h : kills.aborted signal = true) :
    ({ kills with signals := kills.signals ++ [entry] } : KillRegistry).aborted signal = true := by
  obtain ⟨err, herr⟩ := aborted_iff.mp h
  have hlt : signal < kills.signals.length := (List.getElem?_eq_some_iff.mp herr).1
  exact aborted_iff.mpr ⟨err, by rw [List.getElem?_append_left hlt, herr]⟩

/-- Aborting a signal aborts it and leaves the others as they are. -/
theorem aborted_abort {s : SignalId} (h : kills.aborted signal = true) :
    (kills.abort s reason).aborted signal = true := by
  unfold abort
  split
  · exact h
  · obtain ⟨err, herr⟩ := aborted_iff.mp h
    have hlt : signal < kills.signals.length := (List.getElem?_eq_some_iff.mp herr).1
    rw [aborted_iff]
    by_cases hs : s = signal
    · subst hs
      exact ⟨_, List.getElem?_set_self hlt⟩
    · exact ⟨err, by rw [List.getElem?_set_ne hs, herr]⟩

theorem aborted_abort_self (h : signal < kills.signals.length) : (kills.abort signal reason).aborted signal = true := by
  unfold abort
  split
  · assumption
  · exact aborted_iff.mpr ⟨_, List.getElem?_set_self h⟩

@[simp]
theorem controllers_abort : (kills.abort signal reason).controllers = kills.controllers := by
  unfold abort
  split <;> rfl

@[simp]
theorem killed_abort : (kills.abort signal reason).killed = kills.killed := by
  unfold abort
  split <;> rfl

@[simp]
theorem globalKilled_abort : (kills.abort signal reason).globalKilled = kills.globalKilled := by
  unfold abort
  split <;> rfl

@[simp]
theorem length_signals_abort : (kills.abort signal reason).signals.length = kills.signals.length := by
  unfold abort
  split
  · rfl
  · exact List.length_set

/-- The loop of `abortAll`. -/
def abortEntries (reason : String) (entries : List (ScanId × SignalId)) (kills : KillRegistry) : KillRegistry :=
  entries.foldl
    (fun kills entry => { kills with killed := entry.1 :: kills.killed }.abort entry.2 reason) kills

theorem abortAll_eq : kills.abortAll reason = abortEntries reason kills.controllers { kills with globalKilled := true } :=
  rfl

section Entries

variable {entries : List (ScanId × SignalId)}

@[simp]
theorem controllers_abortEntries : (abortEntries reason entries kills).controllers = kills.controllers := by
  induction entries generalizing kills with
  | nil => rfl
  | cons entry entries ih => exact ih.trans controllers_abort

@[simp]
theorem globalKilled_abortEntries : (abortEntries reason entries kills).globalKilled = kills.globalKilled := by
  induction entries generalizing kills with
  | nil => rfl
  | cons entry entries ih => exact ih.trans globalKilled_abort

@[simp]
theorem length_signals_abortEntries :
    (abortEntries reason entries kills).signals.length = kills.signals.length := by
  induction entries generalizing kills with
  | nil => rfl
  | cons entry entries ih => exact ih.trans length_signals_abort

theorem aborted_abortEntries (h : kills.aborted signal = true) :
    (abortEntries reason entries kills).aborted signal = true := by
  induction entries generalizing kills with
  | nil => exact h
  | cons entry entries ih => exact ih (aborted_abort h)

/-- Every signal of the entries is aborted. -/
theorem aborted_abortEntries_of_mem {entry : ScanId × SignalId} (hentry : entry ∈ entries)
    (hlt : entry.2 < kills.signals.length) : (abortEntries reason entries kills).aborted entry.2 = true := by
  induction entries generalizing kills with
  | nil => cases hentry
  | cons e entries ih =>
    obtain rfl | hentry := List.mem_cons.mp hentry
    · show (abortEntries reason entries
        ({ kills with killed := entry.1 :: kills.killed }.abort entry.2 reason)).aborted entry.2 = true
      exact aborted_abortEntries (aborted_abort_self hlt)
    · exact ih hentry (by simpa using hlt)

end Entries

/-! ### One segment -/

theorem WellFormed.register (h : kills.WellFormed) : (kills.register scanId).1.WellFormed := by
  unfold KillRegistry.register
  split
  · exact h
  · intro entry hentry
    simp only [List.length_append, List.length_singleton]
    obtain hentry | hentry := List.mem_append.mp hentry
    · exact Nat.lt_succ_of_lt (h entry hentry)
    · obtain rfl := List.mem_singleton.mp hentry
      exact Nat.lt_succ_self _

theorem isKilled_register : (kills.register other).1.isKilled scanId = kills.isKilled scanId := by
  unfold KillRegistry.register
  split <;> rfl

theorem Stops.register (h : kills.Stops scanId signal) : (kills.register other).1.Stops scanId signal := by
  unfold KillRegistry.register
  split
  · exact h
  · obtain h | ⟨hkilled, hcontroller⟩ := h
    · exact Or.inl (aborted_of_append h)
    · exact Or.inr ⟨hkilled, controller?_append hcontroller⟩

/-- The signal that `register` gives is the one that the controller of the scan holds. -/
theorem controller?_register : (kills.register scanId).1.controller? scanId = some (kills.register scanId).2 := by
  unfold KillRegistry.register
  split
  · assumption
  · rename_i hnone
    unfold controller? at hnone ⊢
    rw [List.lookup_append, hnone]
    simp

theorem isKilled_abort : (kills.abort signal reason).isKilled scanId = kills.isKilled scanId := by
  simp [isKilled]

theorem isKilled_abortScan :
    (kills.abortScan other reason).isKilled scanId = true ↔ scanId = other ∨ kills.isKilled scanId = true := by
  have hmarked : ({ kills with killed := other :: kills.killed } : KillRegistry).isKilled scanId = true ↔
      scanId = other ∨ kills.isKilled scanId = true := by
    simp only [isKilled_iff, List.mem_cons]
    exact or_left_comm
  unfold KillRegistry.abortScan
  dsimp only
  split
  · rwa [isKilled_abort]
  · exact hmarked

/-- A global kill is a kill of every scan. -/
theorem isKilled_abortAll : (kills.abortAll reason).isKilled scanId = true := by
  rw [isKilled_iff, abortAll_eq, globalKilled_abortEntries]
  exact Or.inl rfl

/-- A kill of this scan aborts the signal of its controller; of another one, it changes nothing here. -/
theorem Stops.abortScan (hwf : kills.WellFormed) (h : kills.Stops scanId signal) :
    (kills.abortScan other reason).Stops scanId signal := by
  obtain h | ⟨hkilled, hcontroller⟩ := h
  · refine Or.inl ?_
    unfold KillRegistry.abortScan
    dsimp only
    split
    · exact aborted_abort h
    · exact h
  · have hlt := hwf _ (mem_of_controller? hcontroller)
    unfold KillRegistry.abortScan
    dsimp only
    by_cases hother : other = scanId
    · subst hother
      have hsome : ({ kills with killed := other :: kills.killed } : KillRegistry).controller? other = some signal :=
        hcontroller
      rw [hsome]
      exact Or.inl (aborted_abort_self hlt)
    · have hstill : ({ kills with killed := other :: kills.killed } : KillRegistry).isKilled scanId = false := by
        simp only [isKilled, Bool.or_eq_false_iff, List.contains_eq_mem, decide_eq_false_iff_not] at hkilled ⊢
        exact ⟨hkilled.1, fun hmem => hkilled.2 ((List.mem_cons.mp hmem).resolve_left (Ne.symm hother))⟩
      refine Or.inr ?_
      split
      · rw [isKilled_abort]
        unfold controller?
        rw [controllers_abort]
        exact ⟨hstill, hcontroller⟩
      · exact ⟨hstill, hcontroller⟩

theorem Stops.abortAll (hwf : kills.WellFormed) (h : kills.Stops scanId signal) :
    (kills.abortAll reason).Stops scanId signal := by
  rw [abortAll_eq]
  obtain h | ⟨-, hcontroller⟩ := h
  · exact Or.inl (aborted_abortEntries h)
  · have hmem := mem_of_controller? hcontroller
    exact Or.inl (aborted_abortEntries_of_mem hmem (hwf _ hmem))

/-- What is filed under another key is not looked up. -/
theorem lookup_filter_ne {entries : List (ScanId × SignalId)} (hother : other ≠ scanId) :
    (entries.filter (·.1 ≠ other)).lookup scanId = entries.lookup scanId := by
  induction entries with
  | nil => rfl
  | cons entry entries ih =>
    rw [List.filter_cons]
    by_cases hkeep : entry.1 = other
    · have hne : (scanId == entry.1) = false := by simpa [hkeep] using hother.symm
      rw [if_neg (by simpa using hkeep), ih, List.lookup_cons, hne]
    · rw [if_pos (by simpa using hkeep), List.lookup_cons, List.lookup_cons, ih]

/-- Dropping the controller of another scan. -/
theorem Stops.clear (hother : other ≠ scanId) (h : kills.Stops scanId signal) :
    (kills.clear other).Stops scanId signal := by
  obtain h | ⟨hkilled, hcontroller⟩ := h
  · exact Or.inl h
  · refine Or.inr ⟨hkilled, ?_⟩
    unfold controller? at hcontroller ⊢
    rw [← hcontroller]
    exact lookup_filter_ne hother

example : (({} : KillRegistry).register "scan").1.isKilled "scan" = false := by decide +kernel

end KillRegistry

section Segment

variable {tr : OpTrace} {kills kills' : KillRegistry} {scanId : ScanId} {signal : SignalId}

theorem KillsStep.wellFormed (h : KillsStep tr kills kills') (hwf : kills.WellFormed) : kills'.WellFormed := by
  cases h with
  | keep => exact hwf
  | register other => exact hwf.register
  | signalFor other =>
    unfold KillRegistry.signalFor
    split
    · intro entry hentry
      simpa using Nat.lt_succ_of_lt (hwf entry hentry)
    · exact hwf.register
  | abortScan other reason =>
    unfold KillRegistry.abortScan
    dsimp only
    split
    · intro entry hentry
      simpa using hwf entry (by simpa using hentry)
    · exact hwf
  | abortAll reason =>
    intro entry hentry
    rw [KillRegistry.abortAll_eq] at hentry ⊢
    simpa using hwf entry (by simpa using hentry)
  | clear hclean => exact fun entry hentry => hwf entry (List.mem_filter.mp hentry).1

/-- No segment revives a scan. -/
theorem KillsStep.isKilled (h : KillsStep tr kills kills') (hkilled : kills.isKilled scanId = true) :
    kills'.isKilled scanId = true := by
  cases h with
  | keep => exact hkilled
  | register other => rwa [KillRegistry.isKilled_register]
  | signalFor other =>
    unfold KillRegistry.signalFor
    split
    · exact hkilled
    · rwa [KillRegistry.isKilled_register]
  | abortScan other reason => exact KillRegistry.isKilled_abortScan.mpr (Or.inr hkilled)
  | abortAll reason => exact KillRegistry.isKilled_abortAll
  | clear hclean => exact hkilled

/-- A kill of the scan goes on stopping who holds the signal, unless the controller of the scan is dropped. -/
theorem KillsStep.stops (h : KillsStep tr kills kills') (hwf : kills.WellFormed)
    (hclears : cleansUp tr = some scanId → kills.aborted signal = true) (hstops : kills.Stops scanId signal) :
    kills'.Stops scanId signal := by
  cases h with
  | keep => exact hstops
  | register other => exact hstops.register
  | signalFor other =>
    unfold KillRegistry.signalFor
    split
    · exact hstops.imp_left KillRegistry.aborted_of_append
    · exact hstops.register
  | abortScan other reason => exact hstops.abortScan hwf
  | abortAll reason => exact hstops.abortAll hwf
  | @clear other hclean =>
    by_cases hother : other = scanId
    · subst hother
      exact Or.inl (hclears hclean)
    · exact hstops.clear hother

end Segment

/-! ## Runners -/

/-- The task has called a runner with `ctx`, and the runner is at work or may be called again: the write of a failed
scan is the end of it. -/
def RunsWithContext (t : PipelineTask) (ctx : LayerContext) : Prop :=
  t.awaiting = some (.runLayer ctx) ∨
    t.running = true ∧ contextOf t.trace = some ctx ∧
      (stageOf t.trace = .starting ∨ stageOf t.trace = .failing) ∧
      ∀ clientId row, t.awaiting ≠ some (.store (.scansUpdate clientId row))

/-- A runner of the scan is at work, or may be called again. -/
def Runner (scanId : ScanId) (cfg : PipelineConfig) (signal : SignalId) : Prop :=
  ∃ (k : ℕ) (t : PipelineTask) (job : LayerJobData) (ctx : LayerContext), cfg.tasks[k]? = some t ∧ t.call = .runLayerJob job ∧ job.scanId = scanId ∧
    RunsWithContext t ctx ∧ ctx.signal = signal

section Stages

variable {config : MontrConfig} {job : LayerJobData} {tr : OpTrace} {op : Op} {r : op.Ans}

theorem JobStage.issues_loading (h : JobStage.loading.issues op = true) :
    ∃ clientId id, op = .store (.scansGet clientId id) := by
  cases op with
  | store q =>
    cases q with
    | scansGet clientId id => exact ⟨clientId, id, rfl⟩
    | _ => cases h
  | _ => cases h

theorem JobStage.issues_starting (h : JobStage.starting.issues op = true) : ∃ ctx, op = .runLayer ctx := by
  cases op with
  | runLayer ctx => exact ⟨ctx, rfl⟩
  | store q => cases q <;> cases h
  | _ => cases h

theorem JobStage.issues_failing (h : JobStage.failing.issues op = true) :
    (∃ ms signal, op = .sleep ms signal) ∨ ∃ clientId row, op = .store (.scansUpdate clientId row) := by
  cases op with
  | sleep ms signal => exact Or.inl ⟨ms, signal, rfl⟩
  | store q =>
    cases q with
    | scansUpdate clientId row => exact Or.inr ⟨clientId, row, rfl⟩
    | _ => cases h
  | _ => cases h

/-- A runner is called only when an attempt is due. -/
theorem JobStage.eq_starting_of_issues {stage : JobStage} {ctx : LayerContext}
    (h : stage.issues (.runLayer ctx) = true) : stage = .starting := by
  cases stage with
  | starting => rfl
  | _ => cases h

theorem JobStage.next_ne_loading {stage : JobStage} (h : stage.issues op = true) : stage.next op r ≠ .loading := by
  intro hnext
  obtain rfl : stage = .loading := by
    unfold next at hnext
    split at hnext <;> first | exact hnext | (try split at hnext) <;> cases hnext
  obtain ⟨clientId, id, rfl⟩ := issues_loading h
  cases hnext

/-- A job that has awaited something is past its first stage. -/
theorem stageOf_ne_loading {x : OpAwait} (h : (pipelineProtocol config (.runLayerJob job)).Conforms (x :: tr)) :
    stageOf (x :: tr) ≠ .loading := by
  obtain ⟨⟨m₀, hissues, -⟩, -, -⟩ := h
  exact JobStage.next_ne_loading (hissues job rfl)

/-- An attempt is due or has failed: the row has been read, or a runner has been called before. -/
theorem JobStage.calls_of_next {stage : JobStage} (h : stage.issues op = true)
    (hnext : stage.next op r = .starting ∨ stage.next op r = .failing) :
    stage = .loading ∨ (stage = .starting ∧ ∃ ctx, op = .runLayer ctx) ∨
      stage = .failing ∧ ∃ ms signal, op = .sleep ms signal := by
  have hbefore : stage.beforeOutput = true := by
    refine JobStage.beforeOutput_of_next (r := r) ?_
    rcases hnext with hnext | hnext <;> rw [hnext] <;> rfl
  cases stage with
  | loading => exact Or.inl rfl
  | starting => exact Or.inr (Or.inl ⟨rfl, issues_starting h⟩)
  | failing =>
    obtain hsleep | ⟨clientId, row, rfl⟩ := issues_failing h
    · exact Or.inr (Or.inr ⟨rfl, hsleep⟩)
    · rcases hnext with hnext | hnext <;> cases hnext
  | _ => cases hbefore

end Stages

variable {d : Deployment} {ok : PipelineConfig → PipelineStep → Prop} {cfg cfg' : PipelineConfig} {e : PipelineStep}
  {scanId : ScanId} {signal : SignalId}

/-- The controllers change only in segments of calls, and a stop of the process forgets them. -/
theorem kills_of_step (hreach : d.Reaches ok cfg) (hstep : Step d.system cfg e cfg') :
    e = .crashed ∨ cfg'.mem.kills = cfg.mem.kills ∨
      ∃ (n : ℕ) (t : PipelineTask), cfg.tasks[n]? = some t ∧
        ((∃ c op, e = .issued n c op) ∨ ∃ c res, e = .left n c res) ∧
        KillsStep t.trace cfg.mem.kills cfg'.mem.kills := by
  have hlawful := hreach.lawful
  cases hstep with
  | enter henter => exact Or.inr (Or.inl rfl)
  | issue ht hphase hrun =>
    exact Or.inr (Or.inr ⟨_, _, ht, Or.inl ⟨_, _, rfl⟩, (hlawful.awaits ht hphase hrun).2.1⟩)
  | perform ch ht hphase hperform => exact Or.inr (Or.inl rfl)
  | leave ht hphase hrun =>
    exact Or.inr (Or.inr ⟨_, _, ht, Or.inr ⟨_, _, rfl⟩, hlawful.ends ht hphase hrun⟩)
  | env henv =>
    refine Or.inr (Or.inl ?_)
    simp only [Deployment.system, Deployment.env] at henv
    split at henv
    · obtain ⟨rfl, rfl⟩ := Prod.mk.inj (Option.some.inj henv)
      rfl
    · split at henv
      · obtain ⟨rfl, rfl⟩ := Prod.mk.inj (Option.some.inj henv)
        rfl
      · cases henv
    · obtain ⟨pullRequests, -, hw⟩ := Option.map_eq_some_iff.mp henv
      obtain ⟨rfl, rfl⟩ := Prod.mk.inj hw
      rfl
  | crash => exact Or.inl rfl

/-- A job whose first await is over has called no runner. -/
theorem contextOf_of_loading {config : MontrConfig} {job : LayerJobData} {x : OpAwait} {tr : OpTrace}
    (h : (pipelineProtocol config (.runLayerJob job)).Conforms tr) (hloading : stageOf tr = .loading)
    (hissues : (stageOf tr).issues x.op = true) : contextOf (x :: tr) = none := by
  cases tr with
  | nil =>
    obtain ⟨m, op, r⟩ := x
    obtain ⟨clientId, id, rfl⟩ := JobStage.issues_loading hissues
    rfl
  | cons y tr => exact absurd hloading (stageOf_ne_loading h)

/-- A runner is at work that was before, or an attempt of it begins. -/
theorem runner_of_step (hreach : d.Reaches ok cfg) (hstep : Step d.system cfg e cfg')
    (h : Runner scanId cfg' signal) :
    Runner scanId cfg signal ∨
      ∃ n job ctx t, e = .issued n (.runLayerJob job) (.runLayer ctx) ∧ job.scanId = scanId ∧ ctx.signal = signal ∧
        cfg.tasks[n]? = some t ∧ t.call = .runLayerJob job := by
  have hlawful := hreach.lawful
  obtain ⟨k, u, job, ctx, hu, hcall, hscan, hruns, rfl⟩ := h
  obtain ⟨-, htrace, hphase⟩ | hu' | ⟨t, ht, htcall, hchange⟩ := hstep.task hu
  · -- the job has just been delivered
    obtain hawaiting | ⟨-, hcontext, -⟩ := hruns
    · simp [Task.awaiting, hphase] at hawaiting
    · simp [htrace, contextOf] at hcontext
  · exact Or.inl ⟨k, u, job, ctx, hu', hcall, hscan, hruns, rfl⟩
  · rw [hcall] at htcall
    obtain ⟨p, op, q, rfl, hphase, -, htrace, huphase⟩ | ⟨m, op, q, r, rfl, hphase, htrace, huphase⟩ | ⟨-, hphase⟩ :=
      hchange
    · -- the job has issued an operation
      obtain hawaiting | ⟨-, hcontext, hstage, -⟩ := hruns
      · obtain rfl : op = .runLayer ctx := by simpa [Task.awaiting, huphase] using hawaiting
        exact Or.inr ⟨k, job, ctx, t, by rw [htcall], hscan, rfl, ht, htcall⟩
      · rw [htrace] at hcontext hstage
        refine Or.inl ⟨k, t, job, ctx, ht, htcall, hscan, Or.inr ⟨?_, hcontext, hstage, ?_⟩, rfl⟩
        · simp [Task.running, hphase]
        · simp [Task.awaiting, hphase]
    · -- an operation of the job was performed
      left
      obtain hawaiting | ⟨-, hcontext, hstage, -⟩ := hruns
      · simp [Task.awaiting, huphase] at hawaiting
      · rw [htrace] at hcontext hstage
        obtain ⟨m₀, hawaits⟩ := hlawful.waiting ht hphase
        have hconforms := hlawful.conforms ht
        rw [htcall] at hawaits hconforms
        have hissues := hawaits.1 job rfl
        rw [stageOf_cons] at hstage
        rcases JobStage.calls_of_next hissues hstage with hloading | ⟨-, ctx', rfl⟩ | ⟨hfailing, ms, sig, rfl⟩
        · rw [contextOf_of_loading hconforms hloading hissues] at hcontext
          cases hcontext
        · have hctx : ctx' = ctx := by simpa [contextOf, List.findSome?_cons, OpAwait.context?] using hcontext
          subst hctx
          exact ⟨k, t, job, ctx', ht, htcall, hscan, Or.inl (by simp [Task.awaiting, hphase]), rfl⟩
        · have hcontext' : contextOf t.trace = some ctx := by
            simpa [contextOf, List.findSome?_cons, OpAwait.context?] using hcontext
          refine ⟨k, t, job, ctx, ht, htcall, hscan, Or.inr ⟨?_, hcontext', Or.inr hfailing, ?_⟩, rfl⟩
          · simp [Task.running, hphase]
          · simp [Task.awaiting, hphase]
    · obtain hawaiting | ⟨hrunning, -⟩ := hruns
      · simp [Task.awaiting, hphase] at hawaiting
      · simp [Task.running, hphase] at hrunning

/-! ## What a kill holds -/

/-- A kill signal covers the scan. -/
def KillSwitchSignal.Covers (signal : KillSwitchSignal) (scanId : ScanId) : Prop :=
  match signal.scope with
  | .global => True
  | .scan => signal.scanId = some scanId

/-- `kill` has executed its abort for the scan, and the process has not stopped since. -/
def AbortExecuted (scanId : ScanId) (history : List PipelineStep) : Prop :=
  ∃ post n signal pre, history = post ++ .issued n (.kill signal) (.publishKill signal) :: pre ∧
    .crashed ∉ post ∧ signal.Covers scanId

/-- Once `kill` has executed its abort, no attempt of a runner of the scan begins, be it by a job that was queued
before or one that a resume or an approval enqueues; and who awaits a runner holds an aborted signal. -/
structure KillHolds (scanId : ScanId) (cfg : PipelineConfig) : Prop where
  noAttempt : ∀ post n job ctx pre, cfg.history = post ++ .issued n (.runLayerJob job) (.runLayer ctx) :: pre →
    job.scanId = scanId → ¬AbortExecuted scanId pre
  stopped : AbortExecuted scanId cfg.history → ∀ (k : ℕ) (t : PipelineTask) (job : LayerJobData) (ctx : LayerContext),
    cfg.tasks[k]? = some t → t.call = .runLayerJob job → job.scanId = scanId → t.awaiting = some (.runLayer ctx) →
    cfg.mem.kills.aborted ctx.signal = true

/-- The segment after the audit record that the scan is over drops its controller. It does so only when every runner of
the scan that is at work, or may be called again, is stopped. -/
def KeepsControllers (scanId : ScanId) (cfg : PipelineConfig) (e : PipelineStep) : Prop :=
  ∀ (n : ℕ) (t : PipelineTask), cfg.tasks[n]? = some t → ((∃ c op, e = .issued n c op) ∨ ∃ c res, e = .left n c res) →
    cleansUp t.trace = some scanId → ∀ signal, Runner scanId cfg signal → cfg.mem.kills.aborted signal = true

/-- The state of a killed scan: a kill stops, or has stopped, every runner. -/
structure KillsRunners (scanId : ScanId) (cfg : PipelineConfig) : Prop where
  wellFormed : cfg.mem.kills.WellFormed
  stops : ∀ signal, Runner scanId cfg signal → cfg.mem.kills.Stops scanId signal
  killed : AbortExecuted scanId cfg.history → cfg.mem.kills.isKilled scanId = true

/-- A task that issues an operation was ready to. -/
theorem ready_of_issued {n : ℕ} {c : Call} {op : Op} {t : PipelineTask}
    (hstep : Step d.system cfg (.issued n c op) cfg') (ht : cfg.tasks[n]? = some t) : ∃ p, t.phase = .ready p := by
  cases hstep with
  | issue ht' hphase hrun =>
    obtain rfl := Option.some.inj (ht.symm.trans ht')
    exact ⟨_, hphase⟩

/-- An attempt of a runner begins only while its scan is not killed, and a kill would stop it. -/
theorem KillsRunners.attempt {n : ℕ} {job : LayerJobData} {ctx : LayerContext} (h : KillsRunners scanId cfg)
    (hreach : d.Reaches ok cfg) (hstep : Step d.system cfg (.issued n (.runLayerJob job) (.runLayer ctx)) cfg')
    (hscan : job.scanId = scanId) :
    cfg.mem.kills.isKilled scanId = false ∧ cfg'.mem.kills.Stops scanId ctx.signal := by
  obtain ⟨t, ht, hcall, hissues, -, hjob, hattempt⟩ := hstep.awaits hreach.lawful
  have hstarting : (stageOf t.trace).issues (.runLayer ctx) = true := hissues job rfl
  have hnot := hattempt.notAborted
  obtain rfl : ctx.job = job := (Call.runLayerJob.inj hjob).symm
  obtain ⟨hnone, hsignal⟩ | ⟨hkills, ctx', hctx', hsame, -⟩ := hattempt.signal
  · -- the first attempt: a killed scan is given an aborted signal
    rw [hscan] at hsignal
    unfold KillRegistry.signalFor at hsignal
    split at hsignal
    · obtain ⟨hkills, hid⟩ := Prod.mk.inj hsignal
      rw [← hkills, ← hid] at hnot
      simp [KillRegistry.aborted, KillRegistry.reason?] at hnot
    · rename_i hkilled
      have hkilled : cfg.mem.kills.isKilled scanId = false := by simpa using hkilled
      refine ⟨hkilled, Or.inr ?_⟩
      obtain ⟨hkills, hid⟩ := Prod.mk.inj (hsignal : ((_, _) : KillRegistry × SignalId) = _)
      rw [← hkills, ← hid]
      exact ⟨KillRegistry.isKilled_register.trans hkilled, KillRegistry.controller?_register⟩
  · -- a retry: the signal is the one of the attempt before
    obtain ⟨p, hphase⟩ := ready_of_issued hstep ht
    have hruns : RunsWithContext t ctx' := by
      refine Or.inr ⟨?_, hctx', Or.inl (JobStage.eq_starting_of_issues hstarting), ?_⟩
      · simp [Task.running, hphase]
      · simp [Task.awaiting, hphase]
    have hstops := h.stops ctx'.signal ⟨n, t, ctx.job, ctx', ht, hcall, hscan, hruns, rfl⟩
    rw [hsame] at hstops
    rw [hkills] at hnot ⊢
    refine ⟨?_, hstops⟩
    obtain haborted | ⟨hkilled, -⟩ := hstops
    · rw [haborted] at hnot
      cases hnot
    · exact hkilled

/-- The abort marks every scan that the kill covers. -/
theorem isKilled_of_abort {n : ℕ} {sig : KillSwitchSignal} (hreach : d.Reaches ok cfg)
    (hstep : Step d.system cfg (.issued n (.kill sig) (.publishKill sig)) cfg') (hcovers : sig.Covers scanId) :
    cfg'.mem.kills.isKilled scanId = true := by
  obtain ⟨t, -, -, -, -, -, -, hkills⟩ := hstep.awaits hreach.lawful
  unfold KillSwitchSignal.Covers at hcovers
  split at hkills
  · rw [hkills]
    exact KillRegistry.isKilled_abortAll
  · rename_i hscope
    rw [hscope] at hcovers
    obtain ⟨s, hs, hkills⟩ := hkills
    obtain rfl : s = scanId := Option.some.inj (hs.symm.trans hcovers)
    rw [hkills]
    exact KillRegistry.isKilled_abortScan.mpr (Or.inl rfl)

/-- No task runs after the process has stopped. -/
theorem not_runner_of_crash (hstep : Step d.system cfg .crashed cfg') : ¬Runner scanId cfg' signal := by
  rintro ⟨k, u, job, ctx, hu, -, -, hruns, -⟩
  cases hstep with
  | crash =>
    obtain ⟨t, -, rfl⟩ := task_of_crash hu
    obtain hawaiting | ⟨hrunning, -⟩ := hruns
    · simp [Task.awaiting] at hawaiting
    · simp [Task.running] at hrunning

/-- Each step leaves every runner within reach of a kill, as long as controllers are kept. -/
theorem KillsRunners.step (h : KillsRunners scanId cfg) (hreach : d.Reaches ok cfg)
    (hstep : Step d.system cfg e cfg') (hkeeps : KeepsControllers scanId cfg e) : KillsRunners scanId cfg' := by
  have hkills := kills_of_step hreach hstep
  refine ⟨?_, fun signal hrunner => ?_, ?_⟩
  · obtain rfl | hsame | ⟨n, t, -, -, hchange⟩ := hkills
    · cases hstep with
      | crash => exact fun entry hentry => absurd hentry List.not_mem_nil
    · rw [hsame]
      exact h.wellFormed
    · exact hchange.wellFormed h.wellFormed
  · obtain hrunner | ⟨n, job, ctx, t, rfl, hscan, rfl, -, -⟩ := runner_of_step hreach hstep hrunner
    · have hstops := h.stops signal hrunner
      obtain rfl | hsame | ⟨n, t, ht, hevent, hchange⟩ := hkills
      · exact absurd ‹Runner scanId cfg' signal› (not_runner_of_crash hstep)
      · rw [hsame]
        exact hstops
      · exact hchange.stops h.wellFormed (fun hclean => hkeeps n t ht hevent hclean signal hrunner) hstops
    · exact (h.attempt hreach hstep hscan).2
  · rintro ⟨post, n, sig, pre, hhistory, hcrash, hcovers⟩
    rw [hstep.history] at hhistory
    cases post with
    | nil =>
      obtain ⟨rfl, -⟩ := List.cons.inj hhistory
      exact isKilled_of_abort hreach hstep hcovers
    | cons e' post =>
      obtain ⟨rfl, hpast⟩ := List.cons.inj hhistory
      obtain ⟨hne, hcrash⟩ := not_or.mp (List.mem_cons.not.mp hcrash)
      have hkilled := h.killed ⟨post, n, sig, pre, hpast, hcrash, hcovers⟩
      obtain rfl | hsame | ⟨-, t, -, -, hchange⟩ := hkills
      · exact absurd rfl hne
      · rw [hsame]
        exact hkilled
      · exact hchange.isKilled hkilled

/-- In every run in which the controller of the scan is not dropped under a runner, a kill of the scan holds. -/
theorem killHolds_of_keepsControllers (d : Deployment) (scanId : ScanId) (cfg : PipelineConfig)
    (hreach : d.Reaches (KeepsControllers scanId) cfg) : KillHolds scanId cfg := by
  have hinv : KillsRunners scanId cfg ∧ KillHolds scanId cfg := by
    induction hreach with
    | start =>
      have hnone : ∀ signal, ¬Runner scanId initialConfig signal := by
        rintro signal ⟨k, t, job, ctx, ht, -⟩
        simp [initialConfig] at ht
      have hnever : ¬AbortExecuted scanId initialConfig.history := by
        rintro ⟨post, n, sig, pre, hhistory, -⟩
        simp [initialConfig] at hhistory
      refine ⟨⟨fun entry hentry => absurd hentry List.not_mem_nil, fun signal hrunner => absurd hrunner (hnone signal),
        fun habort => absurd habort hnever⟩, ⟨?_, fun habort => absurd habort hnever⟩⟩
      intro post n job ctx pre hhistory
      simp [initialConfig] at hhistory
    | @step cfg cfg' e hreach hok hstep ih =>
      obtain ⟨hstate, hholds⟩ := ih
      have hstate' := hstate.step hreach hstep hok
      refine ⟨hstate', ⟨?_, fun habort k t job ctx ht hcall hscan hawaiting => ?_⟩⟩
      · intro post n job ctx pre hhistory hscan habort
        rw [hstep.history] at hhistory
        cases post with
        | nil =>
          obtain ⟨rfl, rfl⟩ := List.cons.inj hhistory
          have hkilled := hstate.killed habort
          rw [(hstate.attempt hreach hstep hscan).1] at hkilled
          cases hkilled
        | cons e' post => exact hholds.noAttempt post n job ctx pre (List.cons.inj hhistory).2 hscan habort
      · have hrunner : Runner scanId cfg' ctx.signal := ⟨k, t, job, ctx, ht, hcall, hscan, Or.inl hawaiting, rfl⟩
        obtain haborted | ⟨hkilled, -⟩ := hstate'.stops ctx.signal hrunner
        · exact haborted
        · rw [hstate'.killed habort] at hkilled
          cases hkilled
  exact hinv.2

/-! ## Runs -/

/-- No controller of the scan is dropped. -/
def dropsNone (scanId : ScanId) (cfg : PipelineConfig) : PipelineStep → Bool
  | .issued n _ _ | .left n _ _ => (cfg.tasks[n]?).all fun t => cleansUp t.trace ≠ some scanId
  | _ => true

theorem keepsControllers_of_dropsNone (h : dropsNone scanId cfg e = true) : KeepsControllers scanId cfg e := by
  intro n t ht hevent hclean
  have hnone : (cfg.tasks[n]?).all (fun t => cleansUp t.trace ≠ some scanId) = true := by
    rcases hevent with ⟨c, op, rfl⟩ | ⟨c, res, rfl⟩ <;> exact h
  rw [ht] at hnone
  simp [hclean] at hnone

/-- The scan is killed. -/
def demoKill : KillSwitchSignal :=
  { scope := .scan, scanId := some "scan", reason := "stop", requestedBy := "ann", at_ := 0 }

/-- `kill` has just executed its abort, and a runner of the scan is at work, with a signal that is aborted or not. -/
def killedAtWork (aborted : Bool) (cfg : PipelineConfig) : Bool :=
  (match cfg.history with
    | .issued _ (.kill signal) (.publishKill signal') :: _ => signal = demoKill && signal' = demoKill
    | _ => false) &&
  cfg.tasks.any fun t =>
    match t.call, t.awaiting with
    | .runLayerJob job, some (.runLayer ctx) => job.scanId = "scan" && cfg.mem.kills.aborted ctx.signal = aborted
    | _, _ => false

theorem exists_of_killedAtWork {aborted : Bool} (h : killedAtWork aborted cfg = true) :
    AbortExecuted "scan" cfg.history ∧ ∃ (k : ℕ) (t : PipelineTask) (job : LayerJobData) (ctx : LayerContext),
      cfg.tasks[k]? = some t ∧ t.call = .runLayerJob job ∧ job.scanId = "scan" ∧
      t.awaiting = some (.runLayer ctx) ∧ cfg.mem.kills.aborted ctx.signal = aborted := by
  obtain ⟨hkill, hwork⟩ := Bool.and_eq_true_iff.mp h
  constructor
  · split at hkill
    · rename_i n signal signal' pre hhistory
      simp only [Bool.and_eq_true, decide_eq_true_eq] at hkill
      obtain ⟨rfl, rfl⟩ := hkill
      exact ⟨[], n, demoKill, pre, hhistory, List.not_mem_nil, rfl⟩
    · cases hkill
  · obtain ⟨t, ht, hwork⟩ := List.any_eq_true.mp hwork
    obtain ⟨k, hk⟩ := List.mem_iff_getElem?.mp ht
    split at hwork
    · rename_i job ctx hcall hawaiting
      simp only [Bool.and_eq_true, decide_eq_true_eq] at hwork
      exact ⟨k, t, job, ctx, hk, hcall, hwork.1, hawaiting, hwork.2⟩
    · cases hwork

example : killedAtWork true initialConfig = false := by decide +kernel

/-- The Layer 0 runner is at work when the scan is killed. -/
theorem killHolds_atWork : ∃ cfg, estimateFreeDeployment.Reaches (KeepsControllers "scan") cfg ∧
    killedAtWork true cfg = true ∧ KillHolds "scan" cfg := by
  obtain ⟨cfg, hreach, hcfg⟩ := estimateFreeDeployment.exists_reaches (dropsNone "scan")
    (demoStart ++ jobToRunner 2 demoIntakeJob ++ [.call (.kill demoKill), .resume 3]) (killedAtWork true)
    (by decide +kernel)
  have hkeeps : estimateFreeDeployment.Reaches (KeepsControllers "scan") cfg :=
    hreach.mono fun _ _ => keepsControllers_of_dropsNone
  exact ⟨cfg, hkeeps, hcfg, killHolds_of_keepsControllers estimateFreeDeployment "scan" cfg hkeeps⟩

/-- Layer 5 is enqueued a second time while its runner is at work, and another resume has read the scan by then. The
first job completes the scan; the resume sets it running again, so that the second job calls its runner; and then the
resume completes the scan as well, which drops the controller. -/
def droppedRun : List PipelineLabel :=
  demoStart ++ jobThrough 2 demoIntakeJob demoIntake 13 ++
    jobThrough 3 (demoJob (.layer1 "map")) (.layer1 {}) 7 ++
    jobThrough 4 (demoJob .layer2) (.layer2 {}) 7 ++
    jobThrough 5 (demoJob (.layer3 false none)) (.layer3 {}) 7 ++
    jobThrough 6 (demoJob .layer4) (.layer4 {}) 10 ++
    jobToRunner 7 (demoJob (.layer5 false)) ++ callThrough 8 (.resume "scan") 6 ++
    [.call (.resume "scan")] ++ turns 9 1 .resolve ++
    [.perform 7 (.output (.wellFormed (.layer5 {})))] ++ turns 7 8 .resolve ++ [.resume 7] ++
    turns 9 3 .resolve ++ [.resume 9] ++ jobToRunner 10 (demoJob (.layer5 false)) ++ [.perform 9 .resolve] ++
    turns 9 2 .resolve ++ [.resume 9]

/-- A kill does not reach the runner of the second job. -/
theorem not_killHolds_dropped : ¬∀ d : Deployment, d.transport = .inline → ∀ scanId cfg,
    d.Reaches (fun _ _ => True) cfg → KillHolds scanId cfg := by
  intro h
  obtain ⟨cfg, hreach, hcfg⟩ := estimateFreeDeployment.exists_reaches (fun _ _ => true)
    (droppedRun ++ [.call (.kill demoKill), .resume 11]) (killedAtWork false) (by decide +kernel)
  obtain ⟨habort, k, t, job, ctx, ht, hcall, hscan, hawaiting, haborted⟩ := exists_of_killedAtWork hcfg
  have hholds := h estimateFreeDeployment rfl "scan" cfg (hreach.mono fun _ _ _ => trivial)
  rw [hholds.stopped habort k t job ctx ht hcall hscan hawaiting] at haborted
  cases haborted

end MontrSecure
