import MontrSecure.Api.AuthProtocol

/-!
# The first user

A registration decides by a count of the users whether it is the first one, then hashes the password, and
then stores its user. Registrations that overlap are all the first one. As long as a registration that has
counted no users still finds none when it stores its user, one user at most is registered with a role above
`viewer`, and every other role was given by a request of an approver.
-/

namespace MontrSecure

open Async Fallible

variable {deps : AuthDeps} {cfg cfg' : AuthConfig} {e : AuthEvent} {now : ℕ} {id : EntityId} {t : UserTable}
  {ok : AuthConfig → AuthEvent → Prop}

/-! ## Registrations and grants -/

/-- A registration stores a user with a role above `viewer`. -/
def RegistersAbove (id : EntityId) : AuthEvent → Prop
  | .performed _ (.register _) (.createUser user) (.ok _) => user.id = id ∧ user.role ≠ .viewer
  | _ => False

/-- At most one registration has stored a user with a role above `viewer`. -/
def BootstrapsOnce (history : List AuthEvent) : Prop :=
  ∀ later e before id, history = later ++ e :: before → RegistersAbove id e →
    ∀ e' ∈ before, ∀ id', ¬RegistersAbove id' e'

/-- A request has given the user the role, and the user who made it had held the approver role. -/
def GrantedByApprover (deps : AuthDeps) (history : List AuthEvent) (id : EntityId) (role : Role) : Prop :=
  ∃ later before n req body clientId count token,
    history = later ++ .performed n (.role req (.ok body)) (.updateMany clientId id role) (.ok count) :: before ∧
      req.token = some token ∧ token.claims.role = .approver ∧ SignedFor deps before token

/-- Every role above `viewer` comes from a registration, or from a request of an approver. -/
def RolesAccounted (deps : AuthDeps) (cfg : AuthConfig) : Prop :=
  ∀ id user, cfg.world.get? id = some user → user.clientId = deps.clientId → user.role ≠ .viewer →
    (∃ e ∈ cfg.history, RegistersAbove id e) ∨ GrantedByApprover deps cfg.history id user.role

/-- The task has counted no users. -/
def CountedNone (deps : AuthDeps) (cfg : AuthConfig) (n : ℕ) : Prop :=
  ∃ task, cfg.tasks[n]? = some task ∧ ∃ m, ⟨m, .countForClient deps.clientId, .ok 0⟩ ∈ task.trace

/-- A registration that has counted no users finds none when it stores its user. -/
def BootstrapCurrent (deps : AuthDeps) (cfg : AuthConfig) (e : AuthEvent) : Prop :=
  ∀ n body user saved, e = .performed n (.register body) (.createUser user) (.ok saved) →
    CountedNone deps cfg n → ∀ u ∈ cfg.world.rows, u.clientId ≠ deps.clientId

/-- The client has a user. -/
def HasUser (deps : AuthDeps) (t : UserTable) : Prop :=
  ∃ id user, t.get? id = some user ∧ user.clientId = deps.clientId

/-- What passes `authenticate` and `requireApprover` has a token with the approver role. -/
theorem token_of_requireApprover {m : AuthMemory} {req : AuthRequest} {session : Session}
    (hauth : authenticate m req = .ok session) (happrover : requireApprover session = .ok ()) :
    ∃ token user, req.token = some token ∧ token ∈ m.issued ∧ m.now < token.exp ∧
      token.claims.role = .approver ∧ session.authUser = some user ∧ user.id = token.claims.sub ∧
      user.clientId = token.claims.clientId := by
  obtain ⟨user, huser, hrole⟩ := requireApprover_eq_ok_iff.mp happrover
  unfold authenticate at hauth
  split at hauth
  · cases hauth
  · rename_i claims exp hverified
    cases hauth
    cases huser
    obtain ⟨htoken, hissued⟩ := Option.filter_eq_some_iff.mp hverified
    rw [decide_eq_true_eq] at hissued
    exact ⟨_, _, htoken, hissued.1, hissued.2, hrole, rfl, rfl, rfl⟩

/-- What passes the guards of an approver's route has a token with the approver role. -/
theorem token_of_guardApproverRequest {m : AuthMemory} {req : AuthRequest} {user : AuthenticatedUser}
    (h : guardApproverRequest deps m req = .ok user) :
    ∃ token, req.token = some token ∧ token ∈ m.issued ∧ token.claims.role = .approver := by
  obtain ⟨session, hauth, h⟩ := bind_eq_ok_iff.mp h
  obtain ⟨_, -, h⟩ := bind_eq_ok_iff.mp h
  obtain ⟨_, happrover, -⟩ := bind_eq_ok_iff.mp h
  obtain ⟨token, -, htoken, hissued, -, hrole, -⟩ := token_of_requireApprover hauth happrover
  exact ⟨token, htoken, hissued, hrole⟩

/-! ## Steps -/

/-- A user who is stored after a step was stored before, or is registered now, or is given another role. -/
theorem user_of_step (hlawful : cfg.Lawful (authProtocol deps)) (hstep : Step (authSystem deps) cfg e cfg')
    {user' : UserRecord} (huser' : cfg'.world.get? id = some user') :
    cfg.world.get? id = some user' ∨
      (∃ n body user saved, e = .performed n (.register (.ok body)) (.createUser user) (.ok saved) ∧
        user.id = id ∧ user' = UserTable.created cfg.mem.now user) ∨
      ∃ n task m req body clientId count user, cfg.tasks[n]? = some task ∧
        e = .performed n (.role req (.ok body)) (.updateMany clientId id user'.role) (.ok count) ∧
        (∃ k, task.phase = .waiting m (.updateMany clientId id user'.role) k) ∧
        (∃ approver, guardApproverRequest deps m req = .ok approver) ∧
        cfg.world.get? id = some user ∧ user'.clientId = user.clientId := by
  obtain hsame | ⟨n, call, op, r, ch, rfl, hperform⟩ := users_of_step hstep
  · exact .inl (hsame ▸ huser')
  · obtain ⟨task, m, k, m₀, htask, hcall, hphase, -, hawaits⟩ := hstep.awaited hlawful
    obtain hsame | ⟨user, saved, hop⟩ | ⟨clientId, id', role, rfl⟩ := users_of_performAuth hperform
    · exact .inl (hsame ▸ huser')
    · cases hop
      obtain ⟨body, count, m', rfl, -⟩ := hawaits
      rw [(createUser_of_performAuth hperform).2 id] at huser'
      split at huser'
      · rename_i hid
        cases huser'
        exact .inr (.inl ⟨n, body, user, saved, rfl, hid, rfl⟩)
      · exact .inl huser'
    · obtain ⟨req, body, approver, rfl, hguard, -⟩ := hawaits
      obtain hsame | ⟨rfl, ⟨count, rfl⟩, user, huser, -, hwritten⟩ := updateMany_of_performAuth hperform id
      · exact .inl (hsame ▸ huser')
      · cases huser'.symm.trans hwritten
        exact .inr (.inr ⟨n, task, m, req, body, clientId, count, user, htask, rfl, ⟨k, hphase⟩,
          ⟨approver, hguard⟩, huser, rfl⟩)

/-- No user is removed, and none goes to another client. -/
theorem user_kept (hstep : Step (authSystem deps) cfg e cfg') {user : UserRecord}
    (huser : cfg.world.get? id = some user) :
    ∃ user', cfg'.world.get? id = some user' ∧ user'.clientId = user.clientId := by
  obtain hsame | ⟨n, call, op, r, ch, rfl, hperform⟩ := users_of_step hstep
  · exact ⟨user, hsame ▸ huser, rfl⟩
  · obtain hsame | ⟨new, saved, hop⟩ | ⟨clientId, id', role, rfl⟩ := users_of_performAuth hperform
    · exact ⟨user, hsame ▸ huser, rfl⟩
    · cases hop
      obtain ⟨hfree, hget⟩ := createUser_of_performAuth hperform
      have hid : new.id ≠ id := by
        rintro rfl
        rw [huser] at hfree
        cases hfree
      exact ⟨user, (hget id).trans ((if_neg hid).trans huser), rfl⟩
    · obtain hsame | ⟨-, -, old, hold, -, hwritten⟩ := updateMany_of_performAuth hperform id
      · exact ⟨user, hsame.trans huser, rfl⟩
      · cases huser.symm.trans hold
        exact ⟨_, hwritten, rfl⟩

/-- A client that has a user keeps having one. -/
theorem HasUser.step (h : HasUser deps cfg.world) (hstep : Step (authSystem deps) cfg e cfg') :
    HasUser deps cfg'.world := by
  obtain ⟨id, user, huser, hclient⟩ := h
  obtain ⟨user', huser', hsame⟩ := user_kept hstep huser
  exact ⟨id, user', huser', hsame.trans hclient⟩

/-- After a registration the client has a user. -/
theorem hasUser_of_registers (hlawful : cfg.Lawful (authProtocol deps))
    (hstep : Step (authSystem deps) cfg e cfg') (he : RegistersAbove id e) : HasUser deps cfg'.world := by
  unfold RegistersAbove at he
  split at he
  · rename_i n body user saved
    obtain ⟨_, _, _, ch, _, _, _, hperform⟩ := hstep.performed_inv
    obtain ⟨_, _, _, _, _, _, _, -, _, _, _, _, -, -, hclient⟩ := hstep.awaited hlawful
    exact ⟨user.id, _, ((createUser_of_performAuth hperform).2 user.id).trans (if_pos rfl), hclient⟩
  · exact he.elim

/-- A registration of a role above `viewer` has counted no users. -/
theorem countedNone_of_registers (hlawful : cfg.Lawful (authProtocol deps))
    {n : ℕ} {body : Except (List JsValue) RegisterBody} {user saved : UserRecord}
    (hstep : Step (authSystem deps) cfg (.performed n (.register body) (.createUser user) (.ok saved)) cfg')
    (hrole : user.role ≠ .viewer) : CountedNone deps cfg n := by
  obtain ⟨task, _, _, _, htask, _, _, -, body', count, m', -, hcount, hregistered, -⟩ :=
    hstep.awaited hlawful
  refine ⟨task, htask, m', ?_⟩
  by_cases hzero : count = 0
  · exact hzero ▸ hcount
  · rw [registeredRole, if_neg hzero] at hregistered
    exact absurd hregistered hrole

/-! ## Runs -/

/-- Once a user was registered with a role above `viewer`, the client has a user. -/
theorem hasUser_of_history (hreach : Reachable (authSystem deps) ok (AuthConfig.start now id t) cfg)
    {e : AuthEvent} (he : e ∈ cfg.history) {id' : EntityId} (hregisters : RegistersAbove id' e) :
    HasUser deps cfg.world := by
  induction hreach with
  | start => cases he
  | step hbefore _ hstep ih =>
    rw [hstep.history] at he
    obtain rfl | he := List.mem_cons.mp he
    · exact hasUser_of_registers (authLawful hbefore) hstep hregisters
    · exact (ih he).step hstep

/-- In a run in which every registration that has counted no users finds none, one user at most is
registered with a role above `viewer`. -/
theorem bootstrapsOnce
    (hreach : Reachable (authSystem deps) (BootstrapCurrent deps) (AuthConfig.start now id t) cfg) :
    BootstrapsOnce cfg.history := by
  intro later e before id' hhistory he e' he' id'' hregisters
  obtain ⟨earlier, after, hearlier, hcurrent, hstep, hpre⟩ := hreach.exists_step rfl hhistory
  unfold RegistersAbove at he
  split at he
  · rename_i n body user saved
    have hcounted := countedNone_of_registers (authLawful hearlier) hstep he.2
    obtain ⟨id₀, u, hu, hclient⟩ := hasUser_of_history hearlier (hpre ▸ he') hregisters
    exact hcurrent n body user saved rfl hcounted u (Table.mem_of_get? hu) hclient
  · exact he

/-- In every run of a client that had no users, every role above `viewer` comes from a registration, or from
a request of a user who had held the approver role. -/
theorem rolesAccounted (hempty : ∀ u ∈ t.rows, u.clientId ≠ deps.clientId)
    (hreach : Reachable (authSystem deps) ok (AuthConfig.start now id t) cfg) : RolesAccounted deps cfg := by
  induction hreach with
  | start =>
    intro id user huser hclient
    exact absurd hclient (hempty user (Table.mem_of_get? huser))
  | @step cfg cfg' e hbefore _ hstep ih =>
    intro id user' huser' hclient hrole
    have hlater : ∀ (id : EntityId) (role : Role), GrantedByApprover deps cfg.history id role →
        GrantedByApprover deps cfg'.history id role := by
      rintro id role ⟨later, before, n, req, body, clientId, count, token, hhistory, h⟩
      refine ⟨e :: later, before, n, req, body, clientId, count, token, ?_, h⟩
      rw [hstep.history, hhistory, List.cons_append]
    obtain hsame | ⟨n, body, user, saved, rfl, hid, rfl⟩ | ⟨n, task, m, req, body, clientId, count, user, htask,
      rfl, ⟨k, hphase⟩, ⟨approver, hguard⟩, -, -⟩ := user_of_step (authLawful hbefore) hstep huser'
    · obtain ⟨e', he', hregisters⟩ | hgranted := ih id user' hsame hclient hrole
      · left
        refine ⟨e', ?_, hregisters⟩
        rw [hstep.history]
        exact List.mem_cons_of_mem e he'
      · exact .inr (hlater id _ hgranted)
    · left
      rw [hstep.history]
      exact ⟨_, List.mem_cons_self, hid, hrole⟩
    · right
      obtain ⟨token, htoken, hissued, happrover⟩ := token_of_guardApproverRequest hguard
      have hsigned := signedFor_of_issued hbefore (issued_of_waiting hbefore htask hphase hissued)
      exact ⟨[], cfg.history, n, req, body, clientId, count, token, hstep.history, htoken, happrover, hsigned⟩

section Overlap

private def noUsers : UserTable := { rows := [], nodup := List.nodup_nil }

private def registerDeps : AuthDeps :=
  { clientId := "client", issueCsrfToken := fun _ => "csrf", verifyCsrfToken := fun _ _ => true }

/-- A registration that asks for no role. -/
private def registration (email : String) : AuthCall := .register (.ok { email, password := "long enough" })

private def someHash : AuthChoice := { hash := "hash" }

private def storesFirst (cfg : AuthConfig) : AuthEvent → Bool
  | .performed _ _ (.createUser _) _ => decide (cfg.world.rows = [])
  | _ => true

private theorem exists_bootstrap : ∃ cfg,
    Reachable (authSystem registerDeps) (fun cfg e => storesFirst cfg e = true)
        (AuthConfig.start 0 "first" noUsers) cfg ∧
      decide ((cfg.world.get? "first").map UserRecord.role = some .approver) = true := by
  have hrun : ((run? (authSystem registerDeps) storesFirst (callTurns 0 (registration "a@c.io") 5 someHash)
      (AuthConfig.start 0 "first" noUsers)).any fun cfg =>
        decide ((cfg.world.get? "first").map UserRecord.role = some .approver)) = true := by
    decide +kernel
  exact exists_reachable_of_run? hrun

/-- Both registrations have counted no users when the first of them stores its user. -/
private def overlappingRegistrations : List (Label AuthCall AuthChoice (ℕ × EntityId)) :=
  [.call (registration "a@c.io")] ++ turns 0 2 someHash ++ [.resume 0, .env (0, "second")] ++
    [.call (registration "b@c.io")] ++ turns 1 4 someHash ++ [.perform 0 someHash] ++ turns 0 1 someHash

private def registersAbove : AuthEvent → Bool
  | .performed _ (.register _) (.createUser user) (.ok _) => user.role ≠ .viewer
  | _ => false

private theorem exists_overlap_registrations : ∃ cfg,
    Reachable (authSystem registerDeps) (fun _ _ => true = true) (AuthConfig.start 0 "first" noUsers) cfg ∧
      anyEvent (fun e before => registersAbove e && before.any registersAbove) cfg.history = true := by
  have hrun : ((run? (authSystem registerDeps) (fun _ _ => true) overlappingRegistrations
      (AuthConfig.start 0 "first" noUsers)).any fun cfg =>
        anyEvent (fun e before => registersAbove e && before.any registersAbove) cfg.history) = true := by
    decide +kernel
  exact exists_reachable_of_run? hrun

private theorem registers_of_registersAbove {e : AuthEvent} (h : registersAbove e = true) :
    ∃ id, RegistersAbove id e := by
  unfold registersAbove at h
  split at h
  · exact ⟨_, rfl, of_decide_eq_true h⟩
  · cases h

end Overlap

end MontrSecure
