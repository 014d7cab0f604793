import MontrSecure.Api.Auth

/-!
# What the requests about users may do

A registration stores one user, with the role that its count of the users gives it. A login signs a token
with the role of the user it has read. A request that changes a role has passed the guards of an approver.
-/

namespace MontrSecure

open Async

/-- What a request about users has asked. -/
abbrev AuthTrace : Type := Trace AuthOp AuthOp.Ans AuthMemory

/-- The claims of a user. -/
def sessionClaims (deps : AuthDeps) (user : UserRecord) : SessionClaims :=
  { sub := user.id, clientId := deps.clientId, email := user.email, role := user.role }

/-- A login may sign the token: its claims are those of a user the login has read. -/
def Signs (deps : AuthDeps) (call : AuthCall) (tr : AuthTrace) (token : SessionToken) : Prop :=
  ∃ body email user m, call = .login body ∧ ⟨m, .findByEmail deps.clientId email, .ok (some user)⟩ ∈ tr ∧
    token.claims = sessionClaims deps user

/-- A registration may store the user: its role is what the count of the users gives it. -/
def Registers (deps : AuthDeps) (call : AuthCall) (tr : AuthTrace) (user : UserRecord) : Prop :=
  ∃ body count m, call = .register (.ok body) ∧ ⟨m, .countForClient deps.clientId, .ok count⟩ ∈ tr ∧
    user.role = registeredRole count body.role ∧ user.clientId = deps.clientId

/-- A request may change the role: it has passed the guards of an approver. -/
def ChangesRole (deps : AuthDeps) (call : AuthCall) (m : AuthMemory) (id : EntityId) (role : Role) : Prop :=
  ∃ req body user, call = .role req (.ok body) ∧ guardApproverRequest deps m req = .ok user ∧
    id = body.userId ∧ role = body.role

/-- What a request may do to the tokens, and what it may ask. -/
def authProtocol (deps : AuthDeps) (call : AuthCall) : Protocol AuthOp AuthOp.Ans AuthMemory where
  answers _ _ := True
  awaits tr m₀ m op :=
    (m.issued = m₀.issued ∨ ∃ token, Signs deps call tr token ∧ m.issued = token :: m₀.issued) ∧
      match op with
      | .createUser user => Registers deps call tr user
      | .updateMany _ id role => ChangesRole deps call m id role
      | _ => True
  ends _ m₀ m := m.issued = m₀.issued

variable {deps : AuthDeps} {m₀ m : AuthMemory} {tr : AuthTrace}

/-- A registration keeps to the protocol. -/
theorem registerUser_follows (body : Except (List JsValue) RegisterBody) :
    (registerUser deps body m).Follows (authProtocol deps (.register body))
      (fun _ m₀ m _ => m.issued = m₀.issued) (fun _ m₀ m _ => m.issued = m₀.issued) [] m := by
  cases body with
  | error issues => rfl
  | ok body =>
    refine Outcome.follows_ask_bind (AuthOp.findByEmail deps.clientId body.email) ⟨.inl rfl, trivial⟩
      (fun found m₁ _ => ?_) fun _ _ _ => rfl
    cases found with
    | some _ => rfl
    | none =>
      refine Outcome.follows_ask_bind (AuthOp.countForClient deps.clientId) ⟨.inl rfl, trivial⟩
        (fun count m₂ _ => ?_) fun _ _ _ => rfl
      refine Outcome.follows_ask_bind (AuthOp.hashPassword body.password) ⟨.inl rfl, trivial⟩
        (fun passwordHash m₃ _ => ?_) fun _ _ _ => rfl
      refine Outcome.follows_ask_bind (AuthOp.createUser _) ⟨.inl rfl, body, count, m₁, rfl, ?_, rfl, rfl⟩
        (fun created m₄ _ => ?_) fun _ _ _ => rfl
      · exact List.mem_cons_of_mem _ List.mem_cons_self
      · exact Outcome.follows_ask_bind (AuthOp.auditAppend _) ⟨.inl rfl, trivial⟩ (fun _ _ _ => rfl)
          fun _ _ _ => rfl

/-- A login keeps to the protocol. -/
theorem loginUser_follows (body : Except (List JsValue) LoginBody) :
    (loginUser deps body m).Follows (authProtocol deps (.login body))
      (fun _ m₀ m _ => m.issued = m₀.issued) (fun _ m₀ m _ => m.issued = m₀.issued) [] m := by
  cases body with
  | error issues => rfl
  | ok body =>
    refine Outcome.follows_ask_bind (AuthOp.findByEmail deps.clientId body.email) ⟨.inl rfl, trivial⟩
      (fun found m₁ _ => ?_) fun _ _ _ => rfl
    cases found with
    | none =>
      refine Outcome.follows_ask_bind AuthOp.decoyHash ⟨.inl rfl, trivial⟩ (fun stored m₂ _ => ?_)
        fun _ _ _ => rfl
      exact Outcome.follows_ask_bind (AuthOp.verifyPassword body.password stored) ⟨.inl rfl, trivial⟩
        (fun _ _ _ => rfl) fun _ _ _ => rfl
    | some user =>
      refine Outcome.follows_ask_bind (AuthOp.verifyPassword body.password user.passwordHash)
        ⟨.inl rfl, trivial⟩ (fun verified m₂ _ => ?_) fun _ _ _ => rfl
      cases verified with
      | false => rfl
      | true =>
        -- the token is signed in the segment that ends with the audit event
        refine Outcome.follows_ask_bind (AuthOp.auditAppend _) ⟨.inr ⟨_, ?_, rfl⟩, trivial⟩
          (fun _ _ _ => rfl) fun _ _ _ => rfl
        exact ⟨.ok body, body.email, user, m, rfl, List.mem_cons_of_mem _ List.mem_cons_self, rfl⟩

/-- A change of a role keeps to the protocol. -/
theorem changeRole_follows (req : AuthRequest) (body : Except (List JsValue) ChangeRoleBody) :
    (changeRole deps req body m).Follows (authProtocol deps (.role req body))
      (fun _ m₀ m _ => m.issued = m₀.issued) (fun _ m₀ m _ => m.issued = m₀.issued) [] m := by
  unfold changeRole
  rw [Program.bind_apply, Program.get_apply, Outcome.bind]
  refine Outcome.follows_ofExcept_bind (fun user huser => ?_) fun _ _ => rfl
  cases body with
  | error issues => rfl
  | ok body =>
    refine Outcome.follows_ofExcept_bind (fun body' hbody => ?_) fun _ _ => rfl
    cases hbody
    rw [Program.bind_apply, Outcome.follows_bind]
    unfold updateRole
    refine Outcome.follows_ask_bind (AuthOp.updateMany deps.clientId body.userId body.role)
      ⟨.inl rfl, req, body, user, rfl, huser, rfl, rfl⟩ (fun count m₁ _ => ?_) fun _ _ _ => rfl
    rw [Program.ite_apply]
    split
    · rfl
    · refine Outcome.follows_ask (AuthOp.findById deps.clientId body.userId) ⟨.inl rfl, trivial⟩
        (fun found m₂ _ => ?_) fun _ _ _ => rfl
      cases found with
      | none => rfl
      | some updated =>
        exact Outcome.follows_ask_bind (AuthOp.auditAppend _) ⟨.inl rfl, trivial⟩ (fun _ _ _ => rfl)
          fun _ _ _ => rfl

/-- Every request keeps to its protocol. -/
theorem AuthCall.obeys (deps : AuthDeps) (call : AuthCall) :
    ((authSystem deps).body call).Obeys (authProtocol deps call) := by
  cases call with
  | register body => exact Outcome.obeys_of_follows fun _ => registerUser_follows body
  | login body => exact Outcome.obeys_of_follows fun _ => loginUser_follows body
  | role req body => exact Outcome.obeys_of_follows fun _ => changeRole_follows req body

/-! ## What the operations do -/

section Operations

variable {now : ℕ} {t t' : UserTable} {ch : AuthChoice} {clientId : ClientId} {id : EntityId} {user : UserRecord}

/-- A stored user has a new id. -/
theorem createUser_of_performAuth {saved : UserRecord}
    (h : performAuth now t ch (.createUser user) = (t', .ok saved)) :
    t.get? user.id = none ∧
      ∀ id, t'.get? id = if user.id = id then some (UserTable.created now user) else t.get? id := by
  unfold performAuth at h
  split at h
  · cases h
  · simp only [execAuth, UserTable.create] at h
    split at h
    · rename_i row t'' hcreate
      cases h
      split at hcreate
      · cases hcreate
      · obtain ⟨inserted, hinsert, hpair⟩ := Option.map_eq_some_iff.mp hcreate
        obtain ⟨-, rfl⟩ := Prod.mk.inj hpair
        obtain ⟨hfree, rfl⟩ := Table.insert?_eq_some_iff.mp hinsert
        refine ⟨?_, fun id => Table.get?_insertNew hfree⟩
        rw [← Option.not_isSome_iff_eq_none, Table.get?_isSome_iff]
        exact Bool.eq_false_iff.mp hfree
    · cases h

/-- A change of a role changes the role of one user of the client at most. -/
theorem updateMany_of_performAuth {role : Role} {r : AuthOp.Ans (.updateMany clientId id role)}
    (h : performAuth now t ch (.updateMany clientId id role) = (t', r)) (id' : EntityId) :
    t'.get? id' = t.get? id' ∨
      id = id' ∧ (∃ count, r = .ok count) ∧ ∃ u, t.get? id' = some u ∧ u.clientId = clientId ∧
        t'.get? id' = some { u with role, updatedAt := now } := by
  unfold performAuth at h
  split at h
  · cases h
    exact .inl rfl
  · simp only [execAuth, UserTable.updateMany] at h
    cases hof : t.updateOf UserRecord.clientId clientId id fun u => { u with role, updatedAt := now } with
    | none =>
      rw [hof] at h
      cases h
      exact .inl rfl
    | some written =>
      obtain ⟨row, t''⟩ := written
      rw [hof] at h
      cases h
      have hkey : ∀ u : UserRecord, ({ u with role, updatedAt := now } : UserRecord).id = u.id := fun _ => rfl
      have hget : t''.get? id' = if id = id' then some row else t.get? id' := Table.get?_updateOf hkey hof
      obtain ⟨old, hold, hclient, rfl, -⟩ := Table.updateOf_eq_some_iff.mp hof
      by_cases hid : id = id'
      · right
        rw [if_pos hid] at hget
        exact ⟨hid, ⟨1, rfl⟩, old, hid ▸ hold, hclient, hget⟩
      · left
        rw [hget, if_neg hid]

/-- Only a registration and a change of a role change the table. -/
theorem users_of_performAuth {op : AuthOp} {r : op.Ans} (h : performAuth now t ch op = (t', r)) :
    t' = t ∨ (∃ user saved, (⟨op, r⟩ : Σ op : AuthOp, op.Ans) = ⟨.createUser user, .ok saved⟩) ∨
      ∃ clientId id role, op = .updateMany clientId id role := by
  unfold performAuth at h
  split at h
  · cases h
    exact .inl rfl
  · cases op with
    | createUser user =>
      simp only [execAuth] at h
      split at h
      · cases h
        exact .inr (.inl ⟨user, _, rfl⟩)
      · cases h
        exact .inl rfl
    | updateMany clientId id role => exact .inr (.inr ⟨clientId, id, role, rfl⟩)
    | _ =>
      cases h
      exact .inl rfl

/-- A login that finds a user finds a user of the table. -/
theorem findByEmail_of_performAuth {email : String}
    (h : performAuth now t ch (.findByEmail clientId email) = (t', .ok (some user))) :
    t' = t ∧ t.get? user.id = some user ∧ user.clientId = clientId := by
  unfold performAuth at h
  split at h
  · cases h
  · simp only [execAuth, Prod.mk.injEq, Except.ok.injEq] at h
    obtain ⟨rfl, hfound⟩ := h
    have hmem := List.mem_of_find?_eq_some hfound
    have hmatch := List.find?_some hfound
    simp only [Bool.and_eq_true, decide_eq_true_eq] at hmatch
    exact ⟨rfl, Table.get?_of_mem hmem, hmatch.1⟩

end Operations

/-! ## Runs -/

section Runs

variable {cfg cfg' : AuthConfig} {e : AuthEvent} {now : ℕ} {id : EntityId} {t : UserTable}
  {ok : AuthConfig → AuthEvent → Prop}

/-- Every task keeps to the protocol of its call. -/
theorem authLawful (hreach : Reachable (authSystem deps) ok (AuthConfig.start now id t) cfg) :
    cfg.Lawful (authProtocol deps) := by
  refine Reachable.lawful (AuthCall.obeys deps) (fun _ _ _ _ _ _ => trivial) ?_ hreach
  intro n task htask
  cases htask

/-- Only the operations change the table. -/
theorem users_of_step (hstep : Step (authSystem deps) cfg e cfg') :
    cfg'.world = cfg.world ∨ ∃ n call op r ch, e = .performed n call op r ∧
      performAuth cfg.mem.now cfg.world ch op = (cfg'.world, r) := by
  cases hstep with
  | enter hc =>
    cases hc
    exact .inl rfl
  | env he =>
    cases he
    exact .inl rfl
  | issue | leave | crash => exact .inl rfl
  | perform ch htask hphase hperform => exact .inr ⟨_, _, _, _, ch, rfl, hperform⟩

/-- A step forgets no token. -/
theorem issued_of_step (hlawful : cfg.Lawful (authProtocol deps)) (hstep : Step (authSystem deps) cfg e cfg') :
    cfg'.mem.issued = cfg.mem.issued ∨ ∃ (n : ℕ) (task : AuthTask) (token : SessionToken), cfg.tasks[n]? = some task ∧
      Signs deps task.call task.trace token ∧ cfg'.mem.issued = token :: cfg.mem.issued := by
  cases hstep with
  | enter hc => exact .inl rfl
  | env he =>
    cases he
    exact .inl rfl
  | issue htask hphase hrun =>
    obtain ⟨hsame | ⟨token, hsigns, hissued⟩, -⟩ := hlawful.awaits htask hphase hrun
    · exact .inl hsame
    · exact .inr ⟨_, _, token, htask, hsigns, hissued⟩
  | leave htask hphase hrun => exact .inl (hlawful.ends htask hphase hrun)
  | perform ch htask hphase hperform => exact .inl rfl
  | crash => exact .inl rfl

/-- A login had read the user whose claims the token has. -/
def SignedFor (deps : AuthDeps) (history : List AuthEvent) (token : SessionToken) : Prop :=
  ∃ n body email user,
    .performed n (.login body) (.findByEmail deps.clientId email) (.ok (some user)) ∈ history ∧
      token.claims = sessionClaims deps user

/-- Every token was signed by a login for a user it had read. -/
theorem signedFor_of_issued (hreach : Reachable (authSystem deps) ok (AuthConfig.start now id t) cfg)
    {token : SessionToken} (htoken : token ∈ cfg.mem.issued) : SignedFor deps cfg.history token := by
  induction hreach with
  | start => cases htoken
  | @step cfg cfg' e hbefore _ hstep ih =>
    have hlater : ∀ token, SignedFor deps cfg.history token → SignedFor deps cfg'.history token := by
      rintro token ⟨n, body, email, user, hmem, hclaims⟩
      rw [hstep.history]
      exact ⟨n, body, email, user, List.mem_cons_of_mem _ hmem, hclaims⟩
    obtain hsame | ⟨n, task, signed, htask, hsigns, hissued⟩ := issued_of_step (authLawful hbefore) hstep
    · exact hlater token (ih (hsame ▸ htoken))
    · rw [hissued] at htoken
      obtain rfl | htoken := List.mem_cons.mp htoken
      · obtain ⟨body, email, user, m', hcall, hread, hclaims⟩ := hsigns
        have hperformed := Reachable.performed_of_mem_trace rfl hbefore htask hread
        rw [hcall] at hperformed
        exact hlater token ⟨n, body, email, user, hperformed, hclaims⟩
      · exact hlater token (ih htoken)

/-- The tokens that had been issued when a task asked for something are still issued. -/
theorem issued_of_waiting (hreach : Reachable (authSystem deps) ok (AuthConfig.start now id t) cfg) {n : ℕ}
    {task : AuthTask} (htask : cfg.tasks[n]? = some task)
    {m : AuthMemory} {op : AuthOp} {k : op.Ans → AuthMemory → Outcome AuthOp AuthOp.Ans AuthMemory ApiErr Unit}
    (hphase : task.phase = .waiting m op k) {token : SessionToken} (htoken : token ∈ m.issued) :
    token ∈ cfg.mem.issued := by
  induction hreach generalizing n task m op k with
  | start => cases htask
  | @step cfg cfg' e hbefore _ hstep ih =>
    have hkept : token ∈ cfg.mem.issued → token ∈ cfg'.mem.issued := by
      obtain hsame | ⟨_, _, signed, -, -, hissued⟩ := issued_of_step (authLawful hbefore) hstep
      · exact fun h => hsame ▸ h
      · exact fun h => hissued ▸ List.mem_cons_of_mem signed h
    obtain ⟨-, -, hready⟩ | hsame | ⟨task', htask', -, h⟩ := hstep.task htask
    · rw [hphase] at hready
      cases hready
    · exact hkept (ih hsame hphase htoken)
    · obtain ⟨p, op', q, -, -, -, -, hwaiting⟩ | ⟨_, _, _, _, -, -, -, hready⟩ | ⟨-, hfinished⟩ := h
      · rw [hphase] at hwaiting
        cases hwaiting
        exact htoken
      · rw [hphase] at hready
        cases hready
      · rw [hphase] at hfinished
        cases hfinished

end Runs

end MontrSecure
