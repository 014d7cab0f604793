import MontrSecure.Confirm.Probes
import MontrSecure.Worker.ScenarioRuns

/-!
# What the requests and the jobs may ask

A request that writes a scenario has read it, once, and writes what it makes of what it has read: an edit,
or a grant of an approver. A job sends the requests of the scenario it has read, which was enabled and
granted. The routes send nothing.
-/

namespace MontrSecure

open Async Confirm Fallible

/-- What a request or a job has asked. -/
abbrev ScenarioTrace : Type := Trace ScenarioOp ScenarioOp.Ans ScenarioMemory

/-- What a request makes of a scenario it has read. -/
inductive ScenarioWrite : ScenarioCall → RedTeamScenario → RedTeamScenario → Prop where
  /-- `PUT` writes an edit. -/
  | edit (session : Session) (id : Except (List JsValue) EntityId) (body : CreateRedTeamScenarioBody)
      (existing : RedTeamScenario) :
      ScenarioWrite (.put session id (.ok body)) existing (editedScenario existing body)
  /-- `authorize` writes the grant of an approver. -/
  | grant (session : Session) (id : Except (List JsValue) EntityId) (body : AuthorizeScenarioBody)
      (user : AuthenticatedUser) (huser : session.authUser = some user) (hrole : user.role = .approver)
      (now : IsoDateTime) (existing : RedTeamScenario) :
      ScenarioWrite (.authorize session id (.ok body)) existing (authorizedScenario existing user body now)

/-- The one thing that was asked is a scenario, and it was found. -/
def HasRead (tr : ScenarioTrace) (clientId : ClientId) (existing : RedTeamScenario) : Prop :=
  ∃ m, tr = [⟨m, .get clientId existing.id, .ok (some existing)⟩]

/-- The first thing that was asked is the scenario of the job, and it was found. -/
def HasLoaded (tr : ScenarioTrace) (job : ScenarioRunJob) (scenario : RedTeamScenario) : Prop :=
  ∃ later m, tr = later ++ [⟨m, .get job.clientId job.scenarioId, .ok (some scenario)⟩]

/-- No one has granted the scenario. -/
def Ungranted (s : RedTeamScenario) : Prop :=
  s.liveAuthorizedById = none

/-- A job may send a request: it is a step of the scenario that was loaded, to the target of the scenario. -/
structure SendsStep (deps : ScenarioDeps) (tr : ScenarioTrace) (job : ScenarioRunJob)
    (req : LiveHttpRequest) (scenario : RedTeamScenario) : Prop where
  loaded : HasLoaded tr job scenario
  enabled : scenario.enabled = true
  granted : hasLiveRunAuthorization scenario = true
  step : ∃ step ∈ scenario.steps, req = stepRequest scenario.targetAllowlistRef step

/-- What is found is the scenario that was asked for. -/
def FindsScenario : (op : ScenarioOp) → op.Ans → Prop
  | .get clientId id, .ok (some s) => s.id = id ∧ s.clientId = clientId
  | _, _ => True

/-- What a call may ask. -/
def scenarioProtocol (deps : ScenarioDeps) (call : ScenarioCall) :
    Protocol ScenarioOp ScenarioOp.Ans ScenarioMemory where
  answers := FindsScenario
  awaits tr _ _ op :=
    match op with
    | .create _ s => (∃ session body, call = .post session body) ∧ Ungranted s ∧ s.version = 1
    | .update clientId s => ∃ existing, HasRead tr clientId existing ∧ ScenarioWrite call existing s
    | .delete .. => ∃ session id, call = .delete session id
    | .probe (.send req) => ∃ job scenario, call = .job job ∧ SendsStep deps tr job req scenario
    | _ => True
  ends _ _ _ := True

variable {deps : ScenarioDeps} {tr : ScenarioTrace} {m₀ m : ScenarioMemory}

/-- The guards of an approver's route pass approvers only. -/
theorem approver_of_guardApprover {session : Session} {user : AuthenticatedUser}
    (h : guardApprover deps session = .ok user) :
    session.authUser = some user ∧ user.role = .approver := by
  obtain ⟨_, -, h⟩ := bind_eq_ok_iff.mp h
  obtain ⟨_, -, h⟩ := bind_eq_ok_iff.mp h
  obtain ⟨_, happrover, huser⟩ := bind_eq_ok_iff.mp h
  obtain ⟨user', hauth, hrole⟩ := requireApprover_eq_ok_iff.mp happrover
  rw [Session.user, hauth] at huser
  cases huser
  exact ⟨hauth, hrole⟩

section Routes

variable {session : Session} {id : Except (List JsValue) EntityId}

/-- `POST /scenarios` creates a scenario without a grant. -/
theorem postScenario_follows (body : Except (List JsValue) CreateRedTeamScenarioBody) :
    (postScenario deps session body m).Follows (scenarioProtocol deps (.post session body))
      (fun _ _ _ _ => True) (fun _ _ _ _ => True) [] m := by
  refine Outcome.follows_ofExcept_bind (fun user _ => ?_) fun _ _ => trivial
  refine Outcome.follows_ofExcept_bind (fun body _ => ?_) fun _ _ => trivial
  generalize validated body = checked
  refine Outcome.follows_ofExcept_bind (fun _ _ => ?_) fun _ _ => trivial
  refine Outcome.follows_ask_bind (ScenarioOp.create _ _) ⟨⟨_, _, rfl⟩, rfl, rfl⟩ (fun created m₁ _ => ?_)
    fun _ _ _ => trivial
  exact Outcome.follows_ask_bind (ScenarioOp.auditAppend _) trivial (fun _ _ _ => trivial)
    fun _ _ _ => trivial

/-- `PUT /scenarios/:id` writes an edit of what it has read. -/
theorem putScenario_follows (body : Except (List JsValue) CreateRedTeamScenarioBody) :
    (putScenario deps session id body m).Follows (scenarioProtocol deps (.put session id body))
      (fun _ _ _ _ => True) (fun _ _ _ _ => True) [] m := by
  refine Outcome.follows_ofExcept_bind (fun user _ => ?_) fun _ _ => trivial
  refine Outcome.follows_ofExcept_bind (fun id _ => ?_) fun _ _ => trivial
  refine Outcome.follows_ask_bind (ScenarioOp.get user.clientId id) trivial (fun found m₁ hfound => ?_)
    fun _ _ _ => trivial
  cases found with
  | none => trivial
  | some existing =>
    obtain ⟨rfl, -⟩ : existing.id = id ∧ existing.clientId = user.clientId := hfound
    refine Outcome.follows_ofExcept_bind (fun body' hbody => ?_) fun _ _ => trivial
    -- what the validation says does not matter
    generalize validated body' = checked
    cases body with
    | error issues => cases hbody
    | ok body =>
      cases hbody
      refine Outcome.follows_ofExcept_bind (fun _ _ => ?_) fun _ _ => trivial
      refine Outcome.follows_ask_bind (ScenarioOp.update _ _)
        ⟨existing, ⟨m, rfl⟩, .edit session _ body' existing⟩ (fun saved m₂ _ => ?_) fun _ _ _ => trivial
      exact Outcome.follows_ask_bind (ScenarioOp.auditAppend _) trivial (fun _ _ _ => trivial)
        fun _ _ _ => trivial

/-- `DELETE /scenarios/:id` writes nothing. -/
theorem deleteScenario_follows :
    (deleteScenario deps session id m).Follows (scenarioProtocol deps (.delete session id))
      (fun _ _ _ _ => True) (fun _ _ _ _ => True) [] m := by
  refine Outcome.follows_ofExcept_bind (fun user _ => ?_) fun _ _ => trivial
  refine Outcome.follows_ofExcept_bind (fun removed _ => ?_) fun _ _ => trivial
  refine Outcome.follows_ask_bind (ScenarioOp.get user.clientId removed) trivial (fun found m₁ _ => ?_)
    fun _ _ _ => trivial
  cases found with
  | none => trivial
  | some existing =>
    refine Outcome.follows_ask_bind (ScenarioOp.delete _ _) ⟨_, _, rfl⟩ (fun _ m₂ _ => ?_)
      fun _ _ _ => trivial
    exact Outcome.follows_ask_bind (ScenarioOp.auditAppend _) trivial (fun _ _ _ => trivial)
      fun _ _ _ => trivial

/-- `POST /scenarios/:id/authorize` writes a grant of what it has read. -/
theorem authorizeScenario_follows (body : Except (List JsValue) AuthorizeScenarioBody) :
    (authorizeScenario deps session id body m).Follows (scenarioProtocol deps (.authorize session id body))
      (fun _ _ _ _ => True) (fun _ _ _ _ => True) [] m := by
  refine Outcome.follows_ofExcept_bind (fun user huser => ?_) fun _ _ => trivial
  obtain ⟨hauth, hrole⟩ := approver_of_guardApprover huser
  refine Outcome.follows_ofExcept_bind (fun id _ => ?_) fun _ _ => trivial
  refine Outcome.follows_ask_bind (ScenarioOp.get user.clientId id) trivial (fun found m₁ hfound => ?_)
    fun _ _ _ => trivial
  cases found with
  | none => trivial
  | some existing =>
    obtain ⟨rfl, -⟩ : existing.id = id ∧ existing.clientId = user.clientId := hfound
    cases body with
    | error issues => trivial
    | ok body =>
      refine Outcome.follows_ofExcept_bind (fun body' hbody => ?_) fun _ _ => trivial
      cases hbody
      refine Outcome.follows_ask_bind (ScenarioOp.update _ _)
        ⟨existing, ⟨m, rfl⟩, .grant session _ body user hauth hrole m₁.now existing⟩ (fun saved m₂ _ => ?_)
        fun _ _ _ => trivial
      exact Outcome.follows_ask_bind (ScenarioOp.auditAppend _) trivial (fun _ _ _ => trivial)
        fun _ _ _ => trivial

/-- `POST /scenarios/:id/run` writes nothing and sends nothing. -/
theorem postScenarioRun_follows (body : Except (List JsValue) (Option String)) :
    (postScenarioRun deps session id body m).Follows (scenarioProtocol deps (.run session id body))
      (fun _ _ _ _ => True) (fun _ _ _ _ => True) [] m := by
  refine Outcome.follows_ofExcept_bind (fun user _ => ?_) fun _ _ => trivial
  refine Outcome.follows_ofExcept_bind (fun wanted _ => ?_) fun _ _ => trivial
  refine Outcome.follows_ask_bind (ScenarioOp.get user.clientId wanted) trivial (fun found m₁ _ => ?_)
    fun _ _ _ => trivial
  cases found with
  | none => trivial
  | some scenario =>
    simp only [Program.ite_apply]
    split
    · trivial
    split
    · trivial
    split
    · trivial
    split
    · exact Outcome.follows_ask_bind (ScenarioOp.auditAppend _) trivial (fun _ _ _ => trivial)
        fun _ _ _ => trivial
    refine Outcome.follows_ofExcept_bind (fun target _ => ?_) fun _ _ => trivial
    rw [Program.bind_apply, Outcome.follows_bind]
    -- there is no transport, so that no request is of a kind that is sent
    have hrun : (runScenario deps.parseUrl deps.config none false scenario true target
        m₁.toProbeMemory).Follows (sendProtocol deps.parseUrl deps.config none fun _ => False)
          (fun _ _ _ _ => True) (fun _ _ _ _ => True) [] m₁.toProbeMemory :=
      runScenario_follows fun _ _ htransport => nomatch htransport
    refine (Outcome.Follows.lift (E := probing) hrun .nil (fun _ _ _ _ op _ hop => ?_)
      fun _ _ _ => trivial).mono (fun tr m₀ m result _ => ?_) fun _ _ _ _ _ => trivial
    · cases op with
      | send req => exact hop.1.elim
      | _ => trivial
    refine Outcome.follows_ask_bind (ScenarioOp.auditAppend _) trivial (fun _ m₂ _ => ?_)
      fun _ _ _ => trivial
    refine Outcome.follows_ask_bind (ScenarioOp.enqueue _) trivial (fun jobId m₃ _ => ?_)
      fun _ _ _ => trivial
    exact Outcome.follows_ask_bind (ScenarioOp.auditAppend _) trivial (fun _ _ _ => trivial)
      fun _ _ _ => trivial

end Routes

section Jobs

variable {job : ScenarioRunJob}

/-- A refusal only writes an audit event. -/
theorem rejectRun_follows (reason : String) (scenario : Option RedTeamScenario) :
    (rejectRun job reason scenario m).Follows (scenarioProtocol deps (.job job)) (fun _ _ _ _ => True)
      (fun _ _ _ _ => True) tr m₀ := by
  refine Outcome.follows_attempt_bind ?_
  exact Outcome.follows_ask (jobAudit job _ _ _) trivial (fun _ _ _ => trivial) fun _ _ _ => trivial

/-- A later await leaves the scenario loaded. -/
theorem HasLoaded.append {scenario : RedTeamScenario} (h : HasLoaded tr job scenario)
    (later : ScenarioTrace) : HasLoaded (later ++ tr) job scenario := by
  obtain ⟨between, m, rfl⟩ := h
  exact ⟨later ++ between, m, (List.append_assoc ..).symm⟩

/-- A job sends the steps of the scenario it has loaded, if it was enabled and granted. -/
theorem runLoaded_follows {scenario : RedTeamScenario} (hloaded : HasLoaded tr job scenario) :
    (runLoaded deps job scenario m).Follows (scenarioProtocol deps (.job job)) (fun _ _ _ _ => True)
      (fun _ _ _ _ => True) tr m₀ := by
  unfold runLoaded
  simp only [Program.ite_apply]
  split
  · exact rejectRun_follows _ _
  split
  · exact rejectRun_follows _ _
  split
  · exact rejectRun_follows _ _
  split
  · exact rejectRun_follows _ _
  rename_i henabled _ _ hgranted
  refine Outcome.follows_attempt_bind ?_
  refine Outcome.follows_ask ScenarioOp.buildTransport trivial (fun _ m₁ _ => ?_)
    fun _ m₁ _ => rejectRun_follows _ _
  refine Outcome.follows_attempt_bind ?_
  -- what is sent is a step, to the target of the scenario
  have hrun : (runScenario deps.parseUrl deps.config none true scenario true none
      m₁.toProbeMemory).Follows (sendProtocol deps.parseUrl deps.config none fun req =>
        ∃ step ∈ scenario.steps, req = stepRequest scenario.targetAllowlistRef step)
          (fun _ _ _ _ => True) (fun _ _ _ _ => True) [] m₁.toProbeMemory := by
    refine runScenario_follows fun target htarget _ step hstep => ⟨step, hstep, ?_⟩
    rw [target_of_assertScenarioAuthorized htarget]
  refine (Outcome.Follows.lift (E := probing) hrun .nil (fun _ done _ _ op _ hop => ?_)
    fun _ _ _ => trivial).mono (fun tr m₀ m result _ => ?_) fun tr m₀ m e _ => ?_
  · cases op with
    | send req =>
      refine ⟨job, scenario, rfl, (hloaded.append [_]).append done, ?_, ?_, hop.1⟩
      · exact Bool.eq_true_of_not_eq_false henabled
      · exact Bool.eq_true_of_not_eq_false hgranted
    | _ => trivial
  · refine Outcome.follows_attempt_bind ?_
    exact Outcome.follows_ask (jobAudit job _ _ _) trivial (fun _ _ _ => trivial) fun _ _ _ => trivial
  · exact rejectRun_follows _ _

/-- A job loads its scenario and runs it. -/
theorem processScenarioRunJob_follows :
    (processScenarioRunJob deps job m).Follows (scenarioProtocol deps (.job job)) (fun _ _ _ _ => True)
      (fun _ _ _ _ => True) [] m := by
  unfold processScenarioRunJob
  rw [Program.tryCatch_apply, Outcome.follows_tryCatch]
  refine Outcome.follows_ask_bind (ScenarioOp.get job.clientId job.scenarioId) trivial
    (fun found m₁ _ => ?_) fun e m₁ _ => rejectRun_follows _ _
  cases found with
  | none => exact (rejectRun_follows _ _).mono (fun _ _ _ _ _ => trivial) fun _ _ _ _ _ => rejectRun_follows _ _
  | some scenario =>
    exact (runLoaded_follows ⟨[], m, rfl⟩).mono (fun _ _ _ _ _ => trivial)
      fun _ _ _ _ _ => rejectRun_follows _ _

end Jobs

/-- Every call keeps to its protocol. -/
theorem ScenarioCall.obeys (deps : ScenarioDeps) (call : ScenarioCall) :
    ((scenarioSystem deps).body call).Obeys (scenarioProtocol deps call) := by
  cases call with
  | post session body => exact Outcome.obeys_of_follows fun _ => postScenario_follows body
  | put session id body => exact Outcome.obeys_of_follows fun _ => putScenario_follows body
  | delete session id => exact Outcome.obeys_of_follows fun _ => deleteScenario_follows
  | authorize session id body => exact Outcome.obeys_of_follows fun _ => authorizeScenario_follows body
  | run session id body => exact Outcome.obeys_of_follows fun _ => postScenarioRun_follows body
  | job queued => exact Outcome.obeys_of_follows fun _ => processScenarioRunJob_follows

/-! ## Runs -/

section Runs

variable {ch : ScenarioChoice} {w : ScenarioWorld} {t : ScenarioTable} {cfg cfg' : ScenarioConfig}

/-- What is found has the id and the client that were asked for. -/
theorem findsScenario_perform (ch : ScenarioChoice) (w : ScenarioWorld) (op : ScenarioOp) :
    FindsScenario op (performScenario ch w op).2 := by
  unfold performScenario
  split
  · cases op <;> trivial
  · cases op with
    | get clientId id =>
      show FindsScenario (.get clientId id) (.ok (w.table.get clientId id))
      cases hget : w.table.get clientId id with
      | none => trivial
      | some s =>
        obtain ⟨row, hrow, rfl⟩ := Option.map_eq_some_iff.mp hget
        obtain ⟨hrow, hclient⟩ := Table.getOf_eq_some_iff.mp hrow
        have hid : row.id = id := Table.key_of_get? hrow
        exact ⟨hid, hclient⟩
    | _ => trivial

/-- Every task keeps to the protocol of its call. -/
theorem scenarioLawful {ok : ScenarioConfig → ScenarioEvent → Prop}
    (hreach : Reachable (scenarioSystem deps) ok (ScenarioConfig.start m t) cfg) :
    cfg.Lawful (scenarioProtocol deps) := by
  refine Reachable.lawful (ScenarioCall.obeys deps) (fun _ _ op ch _ w => ?_) ?_ hreach
  · exact findsScenario_perform ch w op
  · intro n task htask
    cases htask

/-- Only the operations change the table. -/
theorem scenarios_of_step {e : ScenarioEvent} (hstep : Step (scenarioSystem deps) cfg e cfg') :
    cfg'.world.table = cfg.world.table ∨
      ∃ n call op r ch, e = .performed n call op r ∧
        performScenario ch cfg.world op = (cfg'.world, r) := by
  cases hstep with
  | enter hc =>
    obtain ⟨-, hw⟩ := Option.ite_none_right_eq_some.mp hc
    cases hw
    exact .inl rfl
  | env he =>
    cases he
    exact .inl rfl
  | issue | leave | crash => exact .inl rfl
  | perform ch htask hphase hperform => exact .inr ⟨_, _, _, _, ch, rfl, hperform⟩

end Runs

end MontrSecure
