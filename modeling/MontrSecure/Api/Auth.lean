import MontrSecure.Api.Http
import MontrSecure.Async.Asking
import MontrSecure.Confirm.Guard
import MontrSecure.Data.Scoped

/-!
# Users and sessions

`PrismaUserStore` of `apps/api/src/prisma-store.ts`, the sessions of `apps/api/src/auth` and
`plugins/auth-plugin.ts`, and the routes of `apps/api/src/routes/auth.ts` that write users or issue tokens.
A token is what `jwt.sign` makes of claims; it verifies if it was issued and has not expired.
-/

namespace MontrSecure

open Async Confirm

/-! ## Users -/

/-- `UserRecord`. -/
structure UserRecord where
  id : EntityId
  clientId : ClientId
  email : String
  passwordHash : String
  role : Role
  createdAt : IsoDateTime
  updatedAt : IsoDateTime
  deriving DecidableEq

/-- `PublicUser`. -/
structure PublicUser where
  id : EntityId
  clientId : ClientId
  email : String
  role : Role
  createdAt : IsoDateTime

/-- `toPublicUser`. -/
def toPublicUser (u : UserRecord) : PublicUser :=
  { id := u.id, clientId := u.clientId, email := u.email, role := u.role, createdAt := u.createdAt }

/-- The table `User`. -/
abbrev UserTable : Type := Table UserRecord.id

namespace UserTable

variable (t : UserTable) (clientId : ClientId)

/-- `findByEmail`. -/
def findByEmail (email : String) : Option UserRecord :=
  t.rows.find? fun u => u.clientId = clientId && u.email = lower (trim email)

/-- `findById`. -/
def findById (id : EntityId) : Option UserRecord := t.getOf UserRecord.clientId clientId id

/-- `countForClient`. -/
def countForClient : ℕ := t.rows.countP fun u => u.clientId = clientId

/-- The row of `create`; the database sets the dates. -/
def created (now : IsoDateTime) (user : UserRecord) : UserRecord :=
  { user with email := lower (trim user.email), createdAt := now, updatedAt := now }

/-- `create`: `@@unique([clientId, email])`. -/
def create (now : IsoDateTime) (user : UserRecord) : Option (UserRecord × UserTable) :=
  if (t.findByEmail user.clientId user.email).isSome then none
  else (t.insert? (created now user)).map fun t' => (created now user, t')

/-- `updateMany({ where: { clientId, id }, data: { role } })`, and how many rows it has changed. -/
def updateMany (now : IsoDateTime) (id : EntityId) (role : Role) : ℕ × UserTable :=
  match t.updateOf UserRecord.clientId clientId id fun u => { u with role, updatedAt := now } with
  | some (_, t') => (1, t')
  | none => (0, t)

end UserTable

/-! ## Sessions -/

/-- `SessionClaims`. -/
structure SessionClaims where
  sub : EntityId
  clientId : ClientId
  email : String
  role : Role
  deriving DecidableEq

/-- A session token: its claims, and when it expires. -/
structure SessionToken where
  claims : SessionClaims
  exp : ℕ
  deriving DecidableEq

/-- What the clock reads, what `idgen` gives next, and the tokens that were issued. -/
structure AuthMemory where
  now : ℕ
  id : EntityId
  issued : List SessionToken

/-- What the guards read of a request. -/
structure AuthRequest where
  /-- The token of `Authorization: Bearer`. -/
  bearer : Option SessionToken := none
  /-- The token of the cookie `montr_session`. -/
  cookie : Option SessionToken := none
  csrfHeader : Option String := none
  csrfCookie : Option String := none

/-- The token that is verified. -/
def AuthRequest.token (req : AuthRequest) : Option SessionToken := req.bearer <|> req.cookie

/-- `jwtVerify`. -/
def jwtVerify (m : AuthMemory) (req : AuthRequest) : Option SessionToken :=
  req.token.filter fun token => token ∈ m.issued ∧ m.now < token.exp

/-- `authenticate`: the user is what the claims say. -/
def authenticate (m : AuthMemory) (req : AuthRequest) : Except ApiErr Session :=
  match jwtVerify m req with
  | none => .error (.http unauthorized)
  | some { claims, .. } =>
    .ok
      { authUser := some
          { id := claims.sub, clientId := claims.clientId, email := claims.email, role := claims.role }
        authMethod := if req.bearer.isSome then .bearer else .cookie
        csrfHeader := req.csrfHeader, csrfCookie := req.csrfCookie }

/-! ## Operations -/

/-- What the routes ask. -/
inductive AuthOp where
  | findByEmail (clientId : ClientId) (email : String)
  | countForClient (clientId : ClientId)
  | hashPassword (password : String)
  | createUser (user : UserRecord)
  | decoyHash
  | verifyPassword (password stored : String)
  | updateMany (clientId : ClientId) (id : EntityId) (role : Role)
  | findById (clientId : ClientId) (id : EntityId)
  | auditAppend (input : AuditInput)

/-- What an operation resolves to. -/
abbrev AuthOp.Val : AuthOp → Type
  | findByEmail .. | findById .. => Option UserRecord
  | countForClient _ | updateMany .. => ℕ
  | hashPassword _ | decoyHash => String
  | createUser _ => UserRecord
  | verifyPassword .. => Bool
  | auditAppend _ => Unit

/-- How an operation is answered: it resolves or it rejects. -/
abbrev AuthOp.Ans (op : AuthOp) : Type := Except ApiErr op.Val

/-- An asynchronous action of the routes. -/
abbrev AuthProgram (α : Type) : Type := Program AuthOp AuthOp.Ans AuthMemory ApiErr α

/-- Await an operation; its rejection is thrown. -/
def askAuth (op : AuthOp) : AuthProgram op.Val := Program.ask op

/-! ## Routes -/

/-- `RegisterBodySchema`. -/
structure RegisterBody where
  email : String
  password : String
  role : Option Role := none

/-- `LoginBodySchema`. -/
structure LoginBody where
  email : String
  password : String

/-- `ChangeRoleBodySchema`. -/
structure ChangeRoleBody where
  userId : EntityId
  role : Role

/-- What the routes use from elsewhere. -/
structure AuthDeps where
  clientId : ClientId
  sessionTtlMinutes : ℕ := 60
  issueCsrfToken : EntityId → String
  verifyCsrfToken : EntityId → String → Bool

variable (deps : AuthDeps)

/-- The guards of an approver's route. -/
def guardApproverRequest (m : AuthMemory) (req : AuthRequest) : Except ApiErr AuthenticatedUser := do
  let session ← authenticate m req
  verifyCsrf deps.verifyCsrfToken session
  requireApprover session
  session.user

/-- The audit event of a route. -/
def authAudit (actor : AuditActor) (action : String) (targetId : EntityId) (summary : String)
    (metadata : JsRecord) : AuditInput :=
  AuditInput.scrubbed
    { clientId := deps.clientId, actor, action, targetType := some "user", targetId := some targetId, summary
      metadata := some metadata }

/-- The role of a registration, where `count` users were counted. -/
def registeredRole (count : ℕ) (requested : Option Role) : Role :=
  if count = 0 then requested.getD .approver else .viewer

/-- `POST /auth/register`. -/
def registerUser (body : Except (List JsValue) RegisterBody) : AuthProgram PublicUser := do
  let body ← Program.ofExcept (parseBody body)
  match ← askAuth (.findByEmail deps.clientId body.email) with
  | some _ => Program.throw (.http (conflict "A user with this email already exists"))
  | none =>
    let count ← askAuth (.countForClient deps.clientId)
    let role := registeredRole count body.role
    let m ← Program.get
    let passwordHash ← askAuth (.hashPassword body.password)
    let created ← askAuth (.createUser
      { id := m.id, clientId := deps.clientId, email := body.email, passwordHash, role, createdAt := m.now
        updatedAt := m.now })
    let bootstrap := if count = 0 then " (bootstrap)" else ""
    askAuth (.auditAppend (authAudit deps { type := .user, id := created.id, role := some created.role }
      "auth.role_changed" created.id s!"User registered with role '{role.name}'{bootstrap}"
      [("email", .str created.email), ("role", .str role.name), ("bootstrap", .bool (decide (count = 0)))]))
    return toPublicUser created

/-- `signSession`. -/
def signSession (claims : SessionClaims) : AuthProgram SessionToken := do
  let token := { claims, exp := (← Program.get).now + deps.sessionTtlMinutes * 60000 }
  Program.modify fun m => { m with issued := token :: m.issued }
  return token

/-- `POST /auth/login`. -/
def loginUser (body : Except (List JsValue) LoginBody) :
    AuthProgram (PublicUser × SessionToken × String) := do
  let body ← Program.ofExcept (parseBody body)
  match ← askAuth (.findByEmail deps.clientId body.email) with
  | none =>
    let stored ← askAuth .decoyHash
    let _ ← askAuth (.verifyPassword body.password stored)
    Program.throw (.http (unauthorized "Invalid email or password"))
  | some user =>
    let ok ← askAuth (.verifyPassword body.password user.passwordHash)
    if ok = false then Program.throw (.http (unauthorized "Invalid email or password"))
    else
      let token ← signSession deps
        { sub := user.id, clientId := deps.clientId, email := user.email, role := user.role }
      askAuth (.auditAppend (authAudit deps { type := .user, id := user.id, role := some user.role }
        "auth.login" user.id s!"User '{user.email}' logged in" [("email", .str user.email)]))
      return (toPublicUser user, token, deps.issueCsrfToken user.id)

/-- `updateRole`. -/
def updateRole (clientId : ClientId) (id : EntityId) (role : Role) : AuthProgram (Option UserRecord) := do
  let count ← askAuth (.updateMany clientId id role)
  if count = 0 then return none
  else askAuth (.findById clientId id)

/-- `POST /auth/role`. -/
def changeRole (req : AuthRequest) (body : Except (List JsValue) ChangeRoleBody) :
    AuthProgram PublicUser := do
  let user ← Program.ofExcept (guardApproverRequest deps (← Program.get) req)
  let body ← Program.ofExcept (parseBody body)
  match ← updateRole deps.clientId body.userId body.role with
  | none => Program.throw (.http (notFound "User not found"))
  | some updated =>
    askAuth (.auditAppend (authAudit deps (actorFromUser user) "auth.role_changed" body.userId
      s!"Role of user '{updated.email}' changed to '{body.role.name}'"
      [("userId", .str body.userId), ("newRole", .str body.role.name)]))
    return toPublicUser updated

/-! ## Interleaved requests -/

/-- A request. -/
inductive AuthCall where
  | register (body : Except (List JsValue) RegisterBody)
  | login (body : Except (List JsValue) LoginBody)
  | role (req : AuthRequest) (body : Except (List JsValue) ChangeRoleBody)

/-- The program of a request. -/
def AuthCall.body : AuthCall → AuthProgram Unit
  | .register body => do
    let _ ← registerUser deps body
    return ()
  | .login body => do
    let _ ← loginUser deps body
    return ()
  | .role req body => do
    let _ ← changeRole deps req body
    return ()

/-- How an operation goes: it may be rejected, and what is computed from a password is arbitrary. -/
structure AuthChoice where
  rejects : Option ApiErr := none
  hash : String := ""
  verified : Bool := true

/-- The effect of an operation, and its answer. -/
def execAuth (now : ℕ) (t : UserTable) (ch : AuthChoice) : (op : AuthOp) → UserTable × op.Ans
  | .findByEmail clientId email => (t, .ok (t.findByEmail clientId email))
  | .countForClient clientId => (t, .ok (t.countForClient clientId))
  | .hashPassword _ | .decoyHash => (t, .ok ch.hash)
  | .createUser user =>
    match t.create now user with
    | some (row, t') => (t', .ok row)
    | none => (t, .error (.thrown (.other "user with this email already exists for client")))
  | .verifyPassword .. => (t, .ok ch.verified)
  | .updateMany clientId id role =>
    ((t.updateMany clientId now id role).2, .ok (t.updateMany clientId now id role).1)
  | .findById clientId id => (t, .ok (t.findById clientId id))
  | .auditAppend _ => (t, .ok ())

/-- The operation, unless it is rejected. -/
def performAuth (now : ℕ) (t : UserTable) (ch : AuthChoice) (op : AuthOp) : UserTable × op.Ans :=
  match ch.rejects with
  | some e => (t, .error e)
  | none => execAuth now t ch op

/-- Requests, and an environment in which time passes and ids are generated. -/
def authSystem :
    System AuthCall AuthOp AuthOp.Ans AuthChoice (ℕ × EntityId) AuthMemory UserTable ApiErr where
  body := AuthCall.body deps
  enter _ _ t := some t
  perform _ _ op ch m t := performAuth m.now t ch op
  leave _ _ _ t := t
  env next _ m t := some ({ m with now := next.1, id := next.2 }, t)
  crash m t := (m, t)

/-- A state of requests. -/
abbrev AuthConfig := Config AuthCall AuthOp AuthOp.Ans (ℕ × EntityId) AuthMemory UserTable ApiErr

/-- A request that runs. -/
abbrev AuthTask := Task AuthCall AuthOp AuthOp.Ans AuthMemory ApiErr

/-- An event of requests. -/
abbrev AuthEvent := Event AuthCall AuthOp AuthOp.Ans (ℕ × EntityId) ApiErr

/-- Before the first request no token was issued. -/
def AuthConfig.start (now : ℕ) (id : EntityId) (t : UserTable) : AuthConfig :=
  { mem := { now, id, issued := [] }, world := t, tasks := [], history := [] }

end MontrSecure
