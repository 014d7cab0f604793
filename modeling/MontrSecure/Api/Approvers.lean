import MontrSecure.Api.Bootstrap

/-!
# Approver requests

The guards of an approver's route trust the role in the token, which a login has copied from the user it had
read. A request that passes them was therefore made by a user who was an approver at that read, and who is
one still, unless a request has set the role since.
-/

namespace MontrSecure

open Async

variable {deps : AuthDeps} {cfg cfg' : AuthConfig} {e : AuthEvent} {now : ℕ} {id : EntityId} {t : UserTable}
  {ok : AuthConfig → AuthEvent → Prop}

/-- A request sets the role of the user. -/
def SetsRole (id : EntityId) (e : AuthEvent) : Prop :=
  ∃ n req body clientId role count, e = .performed n (.role req body) (.updateMany clientId id role) (.ok count)

/-- The user is stored with the role. -/
def HasRole (cfg : AuthConfig) (clientId : ClientId) (id : EntityId) (role : Role) : Prop :=
  ∃ user, cfg.world.findById clientId id = some user ∧ user.role = role

/-- A user is found by the id in the table of the client. -/
theorem findById_of_get? {user : UserRecord} (h : cfg.world.get? id = some user) :
    cfg.world.findById user.clientId id = some user :=
  Table.getOf_eq_some_iff.mpr ⟨h, rfl⟩

/-- A step that does not set the role of a user leaves it as it is. -/
theorem hasRole_of_step (hlawful : cfg.Lawful (authProtocol deps)) (hstep : Step (authSystem deps) cfg e cfg')
    {clientId : ClientId} {role : Role} (h : HasRole cfg clientId id role) :
    HasRole cfg' clientId id role ∨ SetsRole id e := by
  obtain ⟨user, hfind, rfl⟩ := h
  obtain ⟨huser, rfl⟩ := Table.getOf_eq_some_iff.mp hfind
  obtain ⟨user', huser', hclient⟩ := user_kept hstep huser
  obtain hsame | ⟨n, body, new, saved, rfl, rfl, -⟩ | ⟨n, _, _, req, body, clientId, count, _, -, rfl, -⟩ :=
    user_of_step hlawful hstep huser'
  · left
    cases hsame.symm.trans huser
    exact ⟨user, findById_of_get? huser', rfl⟩
  · -- a user who is registered now was not stored before
    obtain ⟨_, _, _, ch, _, _, _, hperform⟩ := hstep.performed_inv
    rw [(createUser_of_performAuth hperform).1] at huser
    cases huser
  · exact .inr ⟨n, req, .ok body, clientId, user'.role, count, rfl⟩

/-- In a run the role of a user stays as it is until a request sets it. -/
theorem hasRole_of_run {mid : AuthConfig}
    (hmid : Reachable (authSystem deps) ok (AuthConfig.start now id t) mid)
    (hreach : Reachable (authSystem deps) ok mid cfg) {clientId : ClientId} {id' : EntityId} {role : Role}
    (h : HasRole mid clientId id' role) :
    ∃ since, cfg.history = since ++ mid.history ∧
      (HasRole cfg clientId id' role ∨ ∃ e ∈ since, SetsRole id' e) := by
  induction hreach with
  | start => exact ⟨[], rfl, .inl h⟩
  | @step cfg cfg' e hbetween _ hstep ih =>
    obtain ⟨since, hhistory, hrole⟩ := ih
    refine ⟨e :: since, by rw [hstep.history, hhistory, List.cons_append], ?_⟩
    obtain hrole | ⟨e', he', hsets⟩ := hrole
    · obtain hrole' | hsets := hasRole_of_step (authLawful (hmid.trans hbetween)) hstep hrole
      · exact .inl hrole'
      · exact .inr ⟨e, List.mem_cons_self, hsets⟩
    · exact .inr ⟨e', List.mem_cons_of_mem e he', hsets⟩

/-- In every state that is reached, a request that passes `authenticate` and `requireApprover` has a token
that has not expired and that a login has signed; the user was stored as an approver when that login read it,
and is stored as one now unless a request has set the role since. -/
theorem approver_when_signed (deps : AuthDeps) (now : ℕ) (id : EntityId) (t : UserTable) (cfg : AuthConfig)
    (hreach : Reachable (authSystem deps) (fun _ _ => True) (AuthConfig.start now id t) cfg)
    (req : AuthRequest) (session : Session) (hauth : authenticate cfg.mem req = .ok session)
    (hrequire : requireApprover session = .ok ()) :
    ∃ user token later before n body email stored,
      session.authUser = some user ∧ req.token = some token ∧ cfg.mem.now < token.exp ∧
      cfg.history = later ++
        .performed n (.login body) (.findByEmail deps.clientId email) (.ok (some stored)) :: before ∧
      token.claims = sessionClaims deps stored ∧ stored.id = user.id ∧ stored.clientId = user.clientId ∧
      stored.role = .approver ∧
      (HasRole cfg user.clientId user.id .approver ∨ ∃ e ∈ later, SetsRole user.id e) := by
  obtain ⟨token, user, htoken, hissued, hexp, hrole, huser, hid, hclient⟩ :=
    token_of_requireApprover hauth hrequire
  obtain ⟨n, body, email, stored, hmem, hclaims⟩ := signedFor_of_issued hreach hissued
  obtain ⟨later, before, hhistory⟩ := List.append_of_mem hmem
  obtain ⟨earlier, after, hearlier, -, hread, hpre, hlater⟩ := hreach.exists_between rfl hhistory
  obtain ⟨_, _, _, ch, _, _, _, hperform⟩ := hread.performed_inv
  obtain ⟨-, hstored, hstoredClient⟩ := findByEmail_of_performAuth hperform
  have hid' : stored.id = user.id := by rw [hid, hclaims, sessionClaims]
  have hclient' : stored.clientId = user.clientId := by rw [hclient, hclaims, sessionClaims, hstoredClient]
  have happrover : stored.role = .approver := by rw [← hrole, hclaims, sessionClaims]
  refine ⟨user, token, later, before, n, body, email, stored, huser, htoken, hexp, hhistory, hclaims, hid',
    hclient', happrover, ?_⟩
  -- the login has read what was stored
  have hthen : HasRole earlier user.clientId user.id .approver :=
    ⟨stored, hid' ▸ hclient' ▸ findById_of_get? hstored, happrover⟩
  have hafter : HasRole after user.clientId user.id .approver := by
    obtain hrole | ⟨_, _, _, _, _, _, h⟩ := hasRole_of_step (authLawful hearlier) hread hthen
    · exact hrole
    · cases h
  obtain ⟨since, hsince, hnow⟩ := hasRole_of_run (.step hearlier trivial hread) hlater hafter
  rw [hhistory, hread.history, hpre] at hsince
  rw [List.append_cancel_right hsince]
  exact hnow

/-! ### An approver who is none any more -/

section Demotion

private def boss : UserRecord :=
  { id := "boss", clientId := "client", email := "b@c.io", passwordHash := "hash", role := .approver
    createdAt := 0, updatedAt := 0 }

private def bossTable : UserTable := { rows := [boss], nodup := List.nodup_singleton _ }

private def loginDeps : AuthDeps :=
  { clientId := "client", issueCsrfToken := fun _ => "csrf", verifyCsrfToken := fun _ _ => true }

private def bossLogin : AuthCall := .login (.ok { email := "b@c.io", password := "long enough" })

/-- A request with the token of that login. -/
private def bossRequest : AuthRequest :=
  { bearer := some
      { claims := { sub := "boss", clientId := "client", email := "b@c.io", role := .approver }, exp := 3600000 } }

private def accepted : AuthChoice := { hash := "hash" }

private def passesAsApprover (cfg : AuthConfig) : Bool :=
  match authenticate cfg.mem bossRequest with
  | .ok session => decide (session.authUser.map AuthenticatedUser.id = some "boss") &&
      match requireApprover session with
      | .ok () => true
      | .error _ => false
  | .error _ => false

private theorem session_of_passesAsApprover {cfg : AuthConfig} (h : passesAsApprover cfg = true) :
    ∃ session, authenticate cfg.mem bossRequest = .ok session ∧ requireApprover session = .ok () ∧
      session.authUser.map AuthenticatedUser.id = some "boss" := by
  unfold passesAsApprover at h
  split at h
  · rename_i session hauth
    obtain ⟨hid, hpass⟩ := Bool.and_eq_true_iff.mp h
    split at hpass
    · exact ⟨session, hauth, ‹_›, of_decide_eq_true hid⟩
    · cases hpass
  · cases h

private theorem exists_login : ∃ cfg,
    Reachable (authSystem loginDeps) (fun _ _ => true = true) (AuthConfig.start 0 "new" bossTable) cfg ∧
      passesAsApprover cfg = true := by
  have hrun : ((run? (authSystem loginDeps) (fun _ _ => true) (callTurns 0 bossLogin 3 accepted)
      (AuthConfig.start 0 "new" bossTable)).any passesAsApprover) = true := by
    decide +kernel
  exact exists_reachable_of_run? hrun

/-- After a login of an approver a request with its token passes. -/
theorem approver_when_signed_boss : ∃ (cfg : AuthConfig) (user : AuthenticatedUser) (token : SessionToken)
    (later before : List AuthEvent) (n : ℕ) (body : Except (List JsValue) LoginBody) (email : String)
    (stored : UserRecord),
    bossRequest.token = some token ∧ cfg.mem.now < token.exp ∧
      cfg.history = later ++ .performed n (.login body) (.findByEmail "client" email) (.ok (some stored)) :: before ∧
      token.claims = sessionClaims loginDeps stored ∧ stored.id = user.id ∧ stored.clientId = user.clientId ∧
      stored.role = .approver ∧
      (HasRole cfg user.clientId user.id .approver ∨ ∃ e ∈ later, SetsRole user.id e) := by
  obtain ⟨cfg, hreach, hpasses⟩ := exists_login
  obtain ⟨session, hauth, hrequire, -⟩ := session_of_passesAsApprover hpasses
  obtain ⟨user, token, later, before, n, body, email, stored, -, h⟩ :=
    approver_when_signed loginDeps 0 "new" bossTable cfg (hreach.mono fun _ _ _ => trivial) bossRequest session
      hauth hrequire
  exact ⟨cfg, user, token, later, before, n, body, email, stored, h⟩

/-- The approver logs in, and gives up the role. -/
private def demotion : List (Label AuthCall AuthChoice (ℕ × EntityId)) :=
  callTurns 0 bossLogin 3 accepted ++
    callTurns 1 (.role bossRequest (.ok { userId := "boss", role := .viewer })) 3 accepted

private theorem exists_demotion : ∃ cfg,
    Reachable (authSystem loginDeps) (fun _ _ => true = true) (AuthConfig.start 0 "new" bossTable) cfg ∧
      (passesAsApprover cfg && decide ((cfg.world.findById "client" "boss").map UserRecord.role = some .viewer)) =
        true := by
  have hrun : ((run? (authSystem loginDeps) (fun _ _ => true) demotion
      (AuthConfig.start 0 "new" bossTable)).any fun cfg => passesAsApprover cfg &&
        decide ((cfg.world.findById "client" "boss").map UserRecord.role = some .viewer)) = true := by
    decide +kernel
  exact exists_reachable_of_run? hrun

/-- A user who is no approver any more passes with the token of an earlier login. -/
theorem approver_not_current : ¬∀ (deps : AuthDeps) (now : ℕ) (id : EntityId) (t : UserTable) (cfg : AuthConfig),
    Reachable (authSystem deps) (fun _ _ => True) (AuthConfig.start now id t) cfg →
      ∀ (req : AuthRequest) (session : Session) (user : AuthenticatedUser),
        authenticate cfg.mem req = .ok session → requireApprover session = .ok () →
          session.authUser = some user → HasRole cfg deps.clientId user.id .approver := by
  intro h
  obtain ⟨cfg, hreach, hdemoted⟩ := exists_demotion
  obtain ⟨hpasses, hviewer⟩ := Bool.and_eq_true_iff.mp hdemoted
  obtain ⟨session, hauth, hrequire, huser⟩ := session_of_passesAsApprover hpasses
  obtain ⟨user, huser, hid⟩ := Option.map_eq_some_iff.mp huser
  obtain ⟨stored, hstored, hrole⟩ :=
    h loginDeps 0 "new" bossTable cfg (hreach.mono fun _ _ _ => trivial) bossRequest session user hauth hrequire huser
  obtain ⟨stored', hstored', hrole'⟩ := Option.map_eq_some_iff.mp (of_decide_eq_true hviewer)
  rw [hid] at hstored
  cases hstored.symm.trans hstored'
  rw [hrole] at hrole'
  cases hrole'

end Demotion

end MontrSecure
