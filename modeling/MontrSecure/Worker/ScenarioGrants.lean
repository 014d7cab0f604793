import MontrSecure.Worker.ScenarioProtocol

/-!
# Grants of scenarios

An approver grants a scenario by what the request for it has read. An edit and a creation leave no grant, so
that a stored scenario which is granted was last written by a grant, and a job that finds it so sends the
steps that the approver's request had read.
-/

namespace MontrSecure

open Async Confirm

/-! ## Writes -/

/-- The event writes or removes the scenario. -/
def WritesScenario (id : EntityId) : ScenarioEvent → Prop
  | .performed _ _ (.create _ s) (.ok _) | .performed _ _ (.update _ s) (.ok _) => s.id = id
  | .performed _ _ (.delete _ removed) (.ok _) => removed = id
  | _ => False

/-- The events end, as far as they write the scenario, with a grant: the request of an approver had read the
steps, the target and the version, and has written them with its grant. Nothing has written the scenario
since. -/
def LastGranted (s : RedTeamScenario) (history : List ScenarioEvent) : Prop :=
  ∃ since before n session sid body user now existing c c' id saved,
    history = since ++ .performed n (.authorize session sid (.ok body))
      (.update c (authorizedScenario existing user body now)) (.ok saved) :: before ∧
    session.authUser = some user ∧ user.role = .approver ∧
    .performed n (.authorize session sid (.ok body)) (.get c' id) (.ok (some existing)) ∈ before ∧
    existing.id = s.id ∧ existing.steps = s.steps ∧ existing.targetAllowlistRef = s.targetAllowlistRef ∧
    existing.version = s.version ∧ ∀ e ∈ since, ¬WritesScenario s.id e

theorem LastGranted.cons {s : RedTeamScenario} {history : List ScenarioEvent} (h : LastGranted s history)
    {e : ScenarioEvent} (he : ¬WritesScenario s.id e) : LastGranted s (e :: history) := by
  obtain ⟨since, before, n, session, sid, body, user, now, existing, c, c', id, saved, rfl, huser, hrole, hread,
    hid, hsteps, htarget, hversion, hsince⟩ := h
  refine ⟨e :: since, before, n, session, sid, body, user, now, existing, c, c', id, saved, rfl, huser, hrole,
    hread, hid, hsteps, htarget, hversion, ?_⟩
  rintro e' (_ | ⟨_, he'⟩)
  · exact he
  · exact hsince e' he'

/-- A scenario whose approver is not known is not granted. -/
theorem not_granted_of_ungranted {s : RedTeamScenario} (h : Ungranted s) : hasLiveRunAuthorization s = false := by
  rw [hasLiveRunAuthorization, show s.liveAuthorizedById = none from h]
  rfl

/-- What is read of a row is granted when the row is. -/
theorem granted_scenarioFromRow (row : RedTeamScenario) :
    hasLiveRunAuthorization (scenarioFromRow row) = hasLiveRunAuthorization row := by
  have hfilter : ∀ (o : Option String) (p : String → Bool), (∀ x, p x = true → x ≠ "") →
      (o.filter (· ≠ "")).any p = o.any p := by
    intro o p hp
    cases o with
    | none => rfl
    | some x =>
      by_cases hx : x = ""
      · have hfalse : p x = false := Bool.eq_false_iff.mpr fun h => hp x h hx
        simp [hx, ← hfalse]
      · simp [Option.filter_some, hx]
  rw [hasLiveRunAuthorization, hasLiveRunAuthorization, scenarioFromRow,
    hfilter _ _ fun x hx => of_decide_eq_true hx, hfilter _ _ fun x hx => ?_]
  simp only [Bool.and_eq_true, decide_eq_true_eq] at hx
  exact hx.1

variable {deps : ScenarioDeps} {m : ScenarioMemory} {t : ScenarioTable} {cfg cfg' : ScenarioConfig}
  {e : ScenarioEvent} {ok : ScenarioConfig → ScenarioEvent → Prop}

/-- A step that does not write a scenario leaves it as it is. -/
theorem get?_of_not_writes (hstep : Step (scenarioSystem deps) cfg e cfg') {id : EntityId}
    (hwrites : ¬WritesScenario id e) : cfg'.world.table.get? id = cfg.world.table.get? id := by
  obtain htable | ⟨n, call, op, r, ch, rfl, hperform⟩ := scenarios_of_step hstep
  · rw [htable]
  · obtain htable | ⟨c, s, saved, hop⟩ | ⟨c, s, saved, hop⟩ | ⟨c, removed, hop⟩ :=
      table_of_performScenario hperform
    · rw [htable]
    · cases hop
      exact (create_of_performScenario hperform id).trans (if_neg hwrites)
    · cases hop
      obtain ⟨old, -, -, -, hget⟩ := update_of_performScenario hperform
      exact (hget id).trans (if_neg hwrites)
    · cases hop
      exact (delete_of_performScenario hperform id).trans (if_neg hwrites)

/-- The scenarios that are stored and granted were last written by a grant. -/
def GrantsKnown (cfg : ScenarioConfig) : Prop :=
  ∀ id row, cfg.world.table.get? id = some row → hasLiveRunAuthorization row = true →
    LastGranted row cfg.history

/-- A step that writes a scenario grants it only if it is a grant of what was read. -/
theorem lastGranted_of_writes
    (hreach : Reachable (scenarioSystem deps) ok (ScenarioConfig.start m t) cfg)
    (hstep : Step (scenarioSystem deps) cfg e cfg') {id : EntityId} {row : RedTeamScenario}
    (hwrites : WritesScenario id e) (hrow : cfg'.world.table.get? id = some row)
    (hgranted : hasLiveRunAuthorization row = true) : LastGranted row cfg'.history := by
  have hlawful := scenarioLawful hreach
  have hungranted : ¬Ungranted row := by
    intro h
    rw [not_granted_of_ungranted h] at hgranted
    cases hgranted
  unfold WritesScenario at hwrites
  split at hwrites
  · -- a creation
    rename_i n call c s saved
    obtain ⟨_, _, _, ch, _, _, _, hperform⟩ := hstep.performed_inv
    obtain ⟨_, _, _, _, _, _, _, -, hs, -⟩ := hstep.awaited hlawful
    rw [create_of_performScenario hperform, if_pos hwrites] at hrow
    cases hrow
    exact absurd hs hungranted
  · rename_i n call c s saved
    obtain ⟨_, _, _, ch, _, _, _, hperform⟩ := hstep.performed_inv
    obtain ⟨old, hold, -, -, hget⟩ := update_of_performScenario hperform
    obtain ⟨task, _, _, _, htask, rfl, -, existing, ⟨m', htrace⟩, hwrite⟩ := hstep.awaited hlawful
    rw [hget, if_pos hwrites] at hrow
    cases hrow
    generalize hcall : task.call = call at *
    cases hwrite with
    | edit session sid body => exact absurd rfl hungranted
    | grant session sid body user huser hrole now =>
      have hread : ⟨m', .get c existing.id, .ok (some existing)⟩ ∈ task.trace := by
        rw [htrace]
        exact List.mem_singleton_self _
      have hget := Reachable.performed_of_mem_trace rfl hreach htask hread
      rw [hcall] at hget
      have hid : old.id = existing.id := Table.key_of_get? hold
      exact ⟨[], cfg.history, n, session, sid, body, user, now, existing, c, c, existing.id, saved,
        hstep.history, huser, hrole, hget, hid.symm, rfl, rfl, rfl, fun e he => (nomatch he)⟩
  · -- a removal
    rename_i n call c removed _
    obtain ⟨_, _, _, ch, _, _, _, hperform⟩ := hstep.performed_inv
    rw [delete_of_performScenario hperform, if_pos hwrites] at hrow
    cases hrow
  · exact hwrites.elim

/-- In every run from a table without grants, a scenario that is granted was last written by a grant. -/
theorem grantsKnown (hstart : ∀ row ∈ t.rows, hasLiveRunAuthorization row = false)
    (hreach : Reachable (scenarioSystem deps) ok (ScenarioConfig.start m t) cfg) : GrantsKnown cfg := by
  induction hreach with
  | start =>
    intro id row hrow hgranted
    rw [hstart row (Table.mem_of_get? hrow)] at hgranted
    cases hgranted
  | @step cfg cfg' e hbefore _ hstep ih =>
    intro id row hrow hgranted
    by_cases hwrites : WritesScenario id e
    · exact lastGranted_of_writes hbefore hstep hwrites hrow hgranted
    · rw [get?_of_not_writes hstep hwrites] at hrow
      have hid : row.id = id := Table.key_of_get? hrow
      rw [hstep.history]
      exact (ih id row hrow hgranted).cons (hid ▸ hwrites)

/-! ## Requests that are sent -/

/-- Whenever a job sends a request, it sends a step of the scenario it has read, to the target of that
scenario. The scenario was enabled, and when it was read it had last been written by a grant: the request of
an approver had read the same steps, target and version. -/
theorem sends_granted_steps (deps : ScenarioDeps) (m : ScenarioMemory) (t : ScenarioTable)
    (hstart : ∀ row ∈ t.rows, hasLiveRunAuthorization row = false) (cfg cfg' : ScenarioConfig)
    (hreach : Reachable (scenarioSystem deps) (fun _ _ => True) (ScenarioConfig.start m t) cfg)
    (n : ℕ) (job : ScenarioRunJob) (req : LiveHttpRequest)
    (hsend : Step (scenarioSystem deps) cfg (.issued n (.job job) (.probe (.send req))) cfg') :
    ∃ scenario later before,
      cfg.history = later ++
        .performed n (.job job) (.get job.clientId job.scenarioId) (.ok (some scenario)) :: before ∧
      scenario.id = job.scenarioId ∧ scenario.enabled = true ∧
      (∃ step ∈ scenario.steps, req = stepRequest scenario.targetAllowlistRef step) ∧
      LastGranted scenario before := by
  obtain ⟨task, htask, hcall, job', scenario, hjob, hsends⟩ := hsend.awaits (scenarioLawful hreach)
  cases hjob
  obtain ⟨later, m', htrace⟩ := hsends.loaded
  have hread : ⟨m', .get job.clientId job.scenarioId, .ok (some scenario)⟩ ∈ task.trace := by
    rw [htrace]
    exact List.mem_append_right later (List.mem_singleton_self _)
  have hperformed := Reachable.performed_of_mem_trace rfl hreach htask hread
  rw [hcall] at hperformed
  obtain ⟨newer, older, hhistory⟩ := List.append_of_mem hperformed
  -- the state in which the job has read the scenario
  obtain ⟨before, after, hbefore, -, hget, hpre⟩ := hreach.exists_step rfl hhistory
  obtain ⟨_, _, _, ch, _, _, _, hperform⟩ := hget.performed_inv
  obtain ⟨row, hrow, rfl⟩ := Option.map_eq_some_iff.mp (get_of_performScenario hperform).symm
  obtain ⟨hrow, -⟩ := Table.getOf_eq_some_iff.mp hrow
  have hid : row.id = job.scenarioId := Table.key_of_get? hrow
  refine ⟨_, newer, older, hhistory, hid, hsends.enabled, hsends.step, ?_⟩
  have hgranted := hsends.granted
  rw [granted_scenarioFromRow] at hgranted
  rw [← hpre]
  exact grantsKnown hstart hbefore _ row hrow hgranted

section Witness

/-- A scenario with one step. -/
private def probeLogin : RedTeamScenario :=
  { id := "login", clientId := "client", name := "login", category := .authentication
    steps := [{ order := 1, action := "open", path := some "/login" }]
    targetAllowlistRef := "https://staging.test", enabled := true, createdBy := "operator", createdAt := 0 }

private def probeTable : ScenarioTable := { rows := [probeLogin], nodup := List.nodup_singleton _ }

private def probeDeps : ScenarioDeps where
  config := { clientId := "client", dast := { enabled := true, allowlist := ["https://staging.test"] } }
  parseUrl s :=
    if s = "https://staging.test" then some { host := "staging.test", pathname := "/" }
    else if s = "https://staging.test/login" then some { host := "staging.test", pathname := "/login" }
    else none
  verifyCsrfToken _ _ := true

private def approverSession : Session :=
  { authUser := some { id := "approver", clientId := "client", email := "a@c", role := .approver }
    authMethod := .bearer }

private def ticket : AuthorizeScenarioBody :=
  { authorizationReference := "TICKET-1", trimmed := by decide, nonempty := by decide }

private def loginJob : ScenarioRunJob :=
  { scenarioId := "login", clientId := "client", requestedById := "approver", requestedAt := 0 }

private def answers : ScenarioChoice := { jobId := "job" }

/-- An approver grants the scenario and runs it, and the job is about to send its request. -/
private def grantedRun : List (Label ScenarioCall ScenarioChoice ScenarioMemory) :=
  callTurns 0 (.authorize approverSession (.ok "login") (.ok ticket)) 3 answers ++
    callTurns 1 (.run approverSession (.ok "login") (.ok none)) 5 answers ++
      [.call (.job loginJob)] ++ turns 2 3 answers

private def sendsLogin : ScenarioEvent → Bool
  | .issued 2 (.job job) (.probe (.send req)) =>
    decide (job = loginJob) && decide (req = { method := "GET", url := "https://staging.test/login" })
  | _ => false

private theorem exists_send : ∃ cfg e cfg',
    Reachable (scenarioSystem probeDeps) (fun _ _ => true = true)
        (ScenarioConfig.start { now := 0, aborted := none, id := "new" } probeTable) cfg ∧
      Step (scenarioSystem probeDeps) cfg e cfg' ∧ sendsLogin e = true := by
  have hrun : ((run? (scenarioSystem probeDeps) (fun _ _ => true) grantedRun
      (ScenarioConfig.start { now := 0, aborted := none, id := "new" } probeTable)).any
        fun cfg => (step? (scenarioSystem probeDeps) cfg (.resume 2)).any fun s => sendsLogin s.1) = true := by
    decide +kernel
  exact exists_step_of_run? hrun

/-- A job sends the request of a scenario that was granted. -/
theorem sends_granted_steps_login : ∃ (cfg : ScenarioConfig) (scenario : RedTeamScenario)
    (later before : List ScenarioEvent),
    cfg.history = later ++
      .performed 2 (.job loginJob) (.get "client" "login") (.ok (some scenario)) :: before ∧
    scenario.id = "login" ∧ scenario.enabled = true ∧
    (∃ step ∈ scenario.steps, ({ method := "GET", url := "https://staging.test/login" } : LiveHttpRequest) =
      stepRequest scenario.targetAllowlistRef step) ∧
    LastGranted scenario before := by
  obtain ⟨cfg, e, cfg', hreach, hstep, hsends⟩ := exists_send
  have hstart : ∀ row ∈ probeTable.rows, hasLiveRunAuthorization row = false := by decide
  unfold sendsLogin at hsends
  split at hsends
  · rename_i job req
    simp only [Bool.and_eq_true, decide_eq_true_eq] at hsends
    obtain ⟨rfl, rfl⟩ := hsends
    exact ⟨cfg, sends_granted_steps probeDeps _ probeTable hstart cfg cfg' (hreach.mono fun _ _ _ => trivial) 2
      loginJob _ hstep⟩
  · cases hsends

end Witness

end MontrSecure
