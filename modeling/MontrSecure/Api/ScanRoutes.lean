import MontrSecure.Api.Http
import MontrSecure.Orchestrator.LiveDast

/-!
# Scan routes

The requests of `routes/scans.ts`, `routes/gate.ts` and `routes/dast.ts` that call the orchestrator: who may
make each, and what it calls. The reads before a call and the audit record after it are left out; the call
itself is one of the pipeline's.

With `dast.requireApprover` set, live probing is to be unlocked by an approver's authorize request alone. It
is where no scan is created with a target: `live_needs_authorization`. The source takes a target from the
body of `POST /scans` as well, and then any gate approval unlocks it.
-/

namespace MontrSecure

open Async Fallible

/-! ## Requests -/

/-- `CreateScanBodySchema`; the scope is what `ScanScopeSchema` makes of the one of the body. -/
structure CreateScanBody where
  repo : String
  branch : String := "main"
  mode : ScanMode := .full
  scope : ScanScope := { mode := .full }
  budgetPolicy : Option BudgetPolicy := none

/-- A request that calls the orchestrator, with its path parameter and what its handler draws. -/
inductive ScanRequest where
  | create (body : CreateScanBody) (id : ScanId)
  | cancel (id : ScanId)
  | resume (id : ScanId)
  | kill (id : ScanId) (reason : String) (at_ : IsoDateTime)
  | approveEstimate (id : ScanId)
  | approveFix (id : ScanId)
  | authorizeDast (id : ScanId) (stagingUrl : String) (targetId : EntityId)

namespace ScanRequest

/-- The routes that approvers alone may use. -/
def approverOnly (config : MontrConfig) : ScanRequest → Bool
  | approveEstimate _ => config.rbac.approverRequiredForGate
  | approveFix _ | authorizeDast .. => true
  | create .. | cancel _ | resume _ | kill .. => false

/-- The guard for the role. -/
def roleGuard (config : MontrConfig) (session : Session) (req : ScanRequest) : Except ApiErr Unit :=
  if req.approverOnly config then requireApprover session else requireRole [.operator, .approver] session

/-- The guards that run before the handler, and the user it then acts for. -/
def guard (verifyCsrfToken : EntityId → String → Bool) (config : MontrConfig) (session : Session)
    (req : ScanRequest) : Except ApiErr AuthenticatedUser := do
  let _ ← session.user
  verifyCsrf verifyCsrfToken session
  req.roleGuard config session
  session.user

/-- What the handler calls. -/
def calls (user : AuthenticatedUser) : ScanRequest → List Call
  | create body id =>
    [.createScan
      { clientId := user.clientId
        repo := body.repo
        branch := body.branch
        mode := body.mode
        scope := { body.scope with mode := body.mode }
        operator := user.id
        budgetPolicy := body.budgetPolicy } id,
      .start id]
  | cancel id => [.cancel id]
  | resume id => [.resume id]
  | kill id reason at_ =>
    [.kill
      { scope := .scan, scanId := some id, reason, requestedBy := user.id
        requestedByRole := some user.role, at_ }]
  | approveEstimate id => [.approveGate id .estimate user.id]
  | approveFix id => [.approveGate id .fix user.id]
  | authorizeDast id stagingUrl targetId =>
    [.authorizeScanDast
      { clientId := user.clientId, userId := user.id, scanId := id, stagingUrl, targetId }]

/-- The handler acts for the user of the session. -/
theorem authUser_of_guard {verifyCsrfToken : EntityId → String → Bool} {config : MontrConfig}
    {session : Session} {req : ScanRequest} {user : AuthenticatedUser}
    (h : req.guard verifyCsrfToken config session = .ok user) : session.authUser = some user := by
  obtain ⟨_, -, h⟩ := bind_eq_ok_iff.mp h
  obtain ⟨_, -, h⟩ := bind_eq_ok_iff.mp h
  obtain ⟨_, -, h⟩ := bind_eq_ok_iff.mp h
  unfold Session.user at h
  split at h
  · cases h
  · rename_i hsession
    rw [hsession, Except.ok.inj h]

/-- Only an approver passes the guards of a route for approvers. -/
theorem role_of_guard {verifyCsrfToken : EntityId → String → Bool} {config : MontrConfig}
    {session : Session} {req : ScanRequest} {user : AuthenticatedUser}
    (honly : req.approverOnly config = true)
    (h : req.guard verifyCsrfToken config session = .ok user) : user.role = .approver := by
  have hsession := authUser_of_guard h
  obtain ⟨_, -, h⟩ := bind_eq_ok_iff.mp h
  obtain ⟨_, -, h⟩ := bind_eq_ok_iff.mp h
  obtain ⟨_, hrole, -⟩ := bind_eq_ok_iff.mp h
  rw [roleGuard, if_pos honly] at hrole
  obtain ⟨user', hsession', hrole'⟩ := requireApprover_eq_ok_iff.mp hrole
  cases hsession.symm.trans hsession'
  exact hrole'

/-- An authorize call is made by the route for it. -/
theorem eq_of_authorizeScanDast_mem {user : AuthenticatedUser} {req : ScanRequest} {auth : AuthorizeRequest}
    (h : .authorizeScanDast auth ∈ req.calls user) :
    req = .authorizeDast auth.scanId auth.stagingUrl auth.targetId ∧ auth.userId = user.id := by
  cases req <;> simp [calls] at h
  subst h
  exact ⟨rfl, rfl⟩

end ScanRequest

/-! ## Runs -/

/-- Jobs and remote kills are delivered. -/
def Call.delivered : Call → Bool
  | .runLayerJob _ | .remoteKill _ => true
  | _ => false

/-- Every other call is made by a request of the session it comes with; `sessions` gives it for each call. -/
def Admitted (verifyCsrfToken : EntityId → String → Bool) (config : MontrConfig) (sessions : ℕ → Session) :
    PipelineStep → Prop
  | .entered n c => c.delivered = true ∨ ∃ (req : ScanRequest) (user : AuthenticatedUser),
      req.guard verifyCsrfToken config (sessions n) = .ok user ∧ c ∈ req.calls user
  | _ => True

/-- Whenever a Layer 3 job that may probe has been built, an approver's request has authorized its target for
the scan before. -/
def LiveAuthorized (sessions : ℕ → Session) (history : List PipelineStep) : Prop :=
  ∀ post n c job policy pre target, history = post ++ .issued n c (.enqueue job policy) :: pre →
    job.payload = .layer3 true target →
    ∃ k req clientId row saved user, .performed k (.authorizeScanDast req)
        (.store (.scansUpdate clientId row)) (.ok saved) ∈ pre ∧
      req.scanId = job.scanId ∧ target = some req.stagingUrl ∧
      (sessions k).authUser = some user ∧ user.role = .approver ∧ user.id = req.userId

/-- What an authorize call in the history says about its session. -/
theorem approver_of_admitted {verifyCsrfToken : EntityId → String → Bool} {d : Deployment}
    {sessions : ℕ → Session} {ok : PipelineConfig → PipelineStep → Prop} {cfg : PipelineConfig} {k : ℕ}
    {req : AuthorizeRequest} (hreach : d.Reaches ok cfg)
    (hadmitted : ∀ cfg e, ok cfg e → Admitted verifyCsrfToken d.config sessions e)
    (hentered : .entered k (.authorizeScanDast req) ∈ cfg.history) :
    ∃ user, (sessions k).authUser = some user ∧ user.role = .approver ∧ user.id = req.userId := by
  obtain ⟨before, hok⟩ := Reachable.ok_of_mem rfl hreach hentered
  obtain ⟨route, user, hguard, hcalls⟩ := (hadmitted _ _ hok).resolve_left Bool.false_ne_true
  obtain ⟨rfl, huser⟩ := ScanRequest.eq_of_authorizeScanDast_mem hcalls
  exact ⟨user, ScanRequest.authUser_of_guard hguard, ScanRequest.role_of_guard rfl hguard, huser.symm⟩

/-- In a run in which no scan is created with a target that passes, a Layer 3 job that may probe is built
only after an approver's request has authorized its target. -/
theorem live_needs_authorization (verifyCsrfToken : EntityId → String → Bool) (d : Deployment)
    (sessions : ℕ → Session) (cfg : PipelineConfig)
    (hreach : d.Reaches (fun _ e => Admitted verifyCsrfToken d.config sessions e ∧ RunsIntake e ∧
      NamesNoTarget d.config e) cfg) :
    LiveAuthorized sessions cfg.history := by
  intro post n c job policy pre target hhistory hpayload
  obtain ⟨before, after, hbefore, -, hstep, rfl⟩ := hreach.exists_step rfl hhistory
  obtain ⟨t, ht, rfl, row, auto, hcarries, hjob⟩ :=
    hstep.awaits (Deployment.Reaches.targetsLawful hbefore)
  have hknown := (Deployment.Reaches.targetsKnown hbefore (fun _ _ h => h.2.1)
    fun _ _ h => h.2.2).carried hbefore (fun _ _ h => h.2.1) ht hcarries
  obtain ⟨hid, -⟩ := buildJob_eq_ok hjob
  obtain ⟨hlive, htarget⟩ := layer3_of_buildJob hjob hpayload
  obtain ⟨url, hurl, hpasses⟩ := target_of_computeAllowLive hlive
  obtain ⟨e, he, hauthorizes⟩ := hknown url hurl hpasses
  unfold Authorizes at hauthorizes
  split at hauthorizes
  · rename_i k req clientId row' saved
    obtain ⟨hscan, rfl⟩ := hauthorizes
    obtain ⟨user, hsession, hrole, huser⟩ := approver_of_admitted hbefore (fun _ _ h => h.1)
      (Reachable.entered_of_performed rfl rfl hbefore he)
    exact ⟨k, req, clientId, row', saved, user, he, hscan.trans hid.symm, htarget.trans hurl, hsession,
      hrole, huser⟩
  · cases hauthorizes

/-! ## Two runs -/

deriving instance DecidableEq for AuthorizeRequest, CreateScanInput, Call

/-- A session whose token came in the header. -/
def bearerSession (user : AuthenticatedUser) : Session := { authUser := some user, authMethod := .bearer }

/-- The calls of a step are made by these requests of the user. -/
def madeBy (user : AuthenticatedUser) (reqs : List ScanRequest) : PipelineStep → Bool
  | .entered _ c => c.delivered || reqs.any fun req => c ∈ req.calls user
  | _ => true

theorem admitted_of_madeBy {verifyCsrfToken : EntityId → String → Bool} {config : MontrConfig}
    {user : AuthenticatedUser} {reqs : List ScanRequest} {e : PipelineStep}
    (hguard : ∀ req ∈ reqs, req.guard verifyCsrfToken config (bearerSession user) = .ok user)
    (h : madeBy user reqs e = true) : Admitted verifyCsrfToken config (fun _ => bearerSession user) e := by
  unfold madeBy at h
  split at h
  · refine (Bool.or_eq_true_iff.mp h).imp_right fun h => ?_
    obtain ⟨req, hreq, hcalls⟩ := List.any_eq_true.mp h
    exact ⟨req, user, hguard req hreq, of_decide_eq_true hcalls⟩
  · rename_i hentered
    unfold Admitted
    split
    · exact absurd rfl (hentered _ _)
    · trivial

/-- The intake of a step finds no routes and no files. -/
def findsNothing : PipelineStep → Bool
  | .performed _ (.runLayerJob job) (.runLayer _) (.ok raw) =>
    match raw.parse .layer0, job.payload with
    | .ok (.layer0 out), .layer0 _ _ mode scope => out.scope = finalizedScope scope mode 0 0 none
    | _, _ => true
  | _ => true

theorem runsIntake_of_findsNothing {e : PipelineStep} (h : findsNothing e = true) : RunsIntake e := by
  unfold findsNothing at h
  split at h
  · intro out repo branch mode scope hparse hpayload
    rw [hparse, hpayload] at h
    exact ⟨0, 0, none, of_decide_eq_true h⟩
  · rename_i hintake
    unfold RunsIntake
    split
    · exact absurd rfl (hintake _ _ _ _)
    · trivial

/-- The scan of a step is created without a target. -/
def createsBare : PipelineStep → Bool
  | .entered _ (.createScan input _) => input.scope.stagingUrl.isNone
  | _ => true

theorem namesNoTarget_of_createsBare {config : MontrConfig} {e : PipelineStep}
    (h : createsBare e = true) : NamesNoTarget config e := by
  unfold NamesNoTarget
  split
  · rename_i input id
    intro url hurl
    have hnone : input.scope.stagingUrl.isNone = true := h
    rw [hurl] at hnone
    cases hnone
  · trivial

/-- Live DAST is on, and an operator may approve the estimate. -/
def liveDeployment : Deployment :=
  { config :=
      { clientId := "acme", dast := { enabled := true, allowlist := ["https://staging.shop.test"] }
        rbac := { approverRequiredForGate := false } } }

/-- Its staging target. -/
def stagingTarget : String := "https://staging.shop.test/app"

/-- An operator and an approver. -/
def liveUser (role : Role) : AuthenticatedUser :=
  { id := "ann", clientId := "acme", email := "ann@acme.test", role }

/-- The request that creates the scan. -/
def createWith (scope : ScanScope) : ScanRequest := .create { repo := "shop", scope } "scan"

/-- A scan is created with the scope, its estimate is approved, and Layers 0 to 2 run; `more` comes before
Layer 2. -/
def liveRun (scope : ScanScope) (more : List PipelineLabel) (n : ℕ) : List PipelineLabel :=
  let created : CreateScanInput :=
    { clientId := "acme", repo := "shop", branch := "main", mode := .full, scope, operator := "ann" }
  let intake : LayerOutput :=
    match demoIntake with
    | .layer0 out => .layer0 { out with scope := finalizedScope scope .full 0 0 none }
    | out => out
  callThrough 0 (.createScan created "scan") 2 ++ callThrough 1 (.start "scan") 7 ++
    jobThrough 2 (demoJob (.layer0 "shop" "main" .full scope)) intake 11 ++
    callThrough 3 (.approveGate "scan" .estimate "ann") 5 ++
    jobThrough 4 (demoJob (.layer1 "map")) (.layer1 {}) 7 ++ more ++
    jobThrough n (demoJob .layer2) (.layer2 {}) 7

/-- A Layer 3 job that may probe is built. -/
def buildsLive : PipelineStep → Bool
  | .issued _ _ (.enqueue job _) => job.payload = .layer3 true (some stagingTarget)
  | _ => false

/-- An authorize request is carried out. -/
def authorizesAny : PipelineStep → Bool
  | .performed _ (.authorizeScanDast _) _ _ => true
  | _ => false

/-- An approver creates the scan without a target and has one authorized, and the job is built. -/
theorem live_needs_authorization_authorized :
    ∃ cfg : PipelineConfig,
      LiveAuthorized (fun _ => bearerSession (liveUser .approver)) cfg.history ∧
      ∃ e ∈ cfg.history, buildsLive e = true := by
  let requests : List ScanRequest :=
    [createWith { mode := .full }, .approveEstimate "scan", .authorizeDast "scan" stagingTarget "target"]
  let authorize : Call := .authorizeScanDast
    { clientId := "acme", userId := "ann", scanId := "scan", stagingUrl := stagingTarget
      targetId := "target" }
  obtain ⟨cfg, hreach, hcfg⟩ := liveDeployment.exists_reaches
    (fun _ e => madeBy (liveUser .approver) requests e && findsNothing e && createsBare e)
    (liveRun { mode := .full } (callThrough 5 authorize 6) 6)
    (fun cfg => cfg.history.any buildsLive) (by decide +kernel)
  refine ⟨cfg, live_needs_authorization (fun _ _ => true) liveDeployment _ cfg
    (hreach.mono fun _ e he => ?_), by simpa using hcfg⟩
  obtain ⟨he, hnames⟩ := Bool.and_eq_true_iff.mp he
  obtain ⟨hmade, hintake⟩ := Bool.and_eq_true_iff.mp he
  refine ⟨admitted_of_madeBy (fun req hreq => ?_) hmade, runsIntake_of_findsNothing hintake,
    namesNoTarget_of_createsBare hnames⟩
  simp only [requests, List.mem_cons, List.not_mem_nil, or_false] at hreq
  obtain rfl | rfl | rfl := hreq <;> rfl

/-- An operator creates a scan with a target and approves its estimate, and a Layer 3 job that may probe is
built although nothing has been authorized. -/
theorem not_live_needs_authorization :
    liveDeployment.config.dast.requireApprover = true ∧
      ∃ cfg, liveDeployment.Reaches (fun _ e => Admitted (fun _ _ => true) liveDeployment.config
          (fun _ => bearerSession (liveUser .operator)) e ∧ RunsIntake e) cfg ∧
        ¬LiveAuthorized (fun _ => bearerSession (liveUser .operator)) cfg.history := by
  let scope : ScanScope := { mode := .full, stagingUrl := some stagingTarget }
  obtain ⟨cfg, hreach, hcfg⟩ := liveDeployment.exists_reaches
    (fun _ e => madeBy (liveUser .operator) [createWith scope, .approveEstimate "scan"] e && findsNothing e)
    (liveRun scope [] 5)
    (fun cfg => anyEvent (fun e pre => buildsLive e && !pre.any authorizesAny) cfg.history)
    (by decide +kernel)
  refine ⟨rfl, cfg, hreach.mono fun _ e he => ?_, fun h => ?_⟩
  · obtain ⟨hmade, hintake⟩ := Bool.and_eq_true_iff.mp he
    refine ⟨admitted_of_madeBy (fun req hreq => ?_) hmade, runsIntake_of_findsNothing hintake⟩
    simp only [List.mem_cons, List.not_mem_nil, or_false] at hreq
    obtain rfl | rfl := hreq <;> rfl
  · obtain ⟨post, e, pre, hhistory, he⟩ := exists_of_anyEvent hcfg
    obtain ⟨hbuilds, hnone⟩ := Bool.and_eq_true_iff.mp he
    unfold buildsLive at hbuilds
    split at hbuilds
    · rename_i n c job policy
      obtain ⟨k, req, clientId, row, saved, user, hmem, -⟩ :=
        h post n c job policy pre _ hhistory (by simpa using hbuilds)
      have hauthorized : pre.any authorizesAny = true := List.any_eq_true.mpr ⟨_, hmem, rfl⟩
      rw [hauthorized] at hnone
      cases hnone
    · cases hbuilds

end MontrSecure
