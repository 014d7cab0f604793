import MontrSecure.Audit.HashChain
import MontrSecure.Data.Fallible
import MontrSecure.Telemetry.Logger

/-!
# Requests

What the routes of `apps/api` share: `errors.ts`, the guards of `plugins/auth-plugin.ts` that run before a
handler, and `audit.ts`. A request comes with the user that `authenticate` has attached to it.
-/

namespace MontrSecure

/-! ## Errors -/

/-- `HttpError`. -/
structure HttpError where
  statusCode : ℕ
  code : String
  message : String
  details : Option JsRecord := none

/-- `unauthorized`. -/
def unauthorized (message : String := "Authentication required") : HttpError :=
  { statusCode := 401, code := "UNAUTHENTICATED", message }

/-- `forbidden`. -/
def forbidden (message : String := "Forbidden") (details : Option JsRecord := none) : HttpError :=
  { statusCode := 403, code := "FORBIDDEN", message, details }

/-- `notFound`. -/
def notFound (message : String := "Not found") : HttpError :=
  { statusCode := 404, code := "NOT_FOUND", message }

/-- `badRequest`. -/
def badRequest (message : String) (details : Option JsRecord := none) : HttpError :=
  { statusCode := 400, code := "BAD_REQUEST", message, details }

/-- `conflict`. -/
def conflict (message : String) : HttpError := { statusCode := 409, code := "CONFLICT", message }

/-- What a handler or a job throws. -/
inductive ApiErr where
  | http (e : HttpError)
  | thrown (e : Err)
  /-- What an aborted operation rejects with. -/
  | abort (message : String)

/-! ## Users -/

/-- `AuthenticatedUser`. -/
structure AuthenticatedUser where
  id : EntityId
  clientId : ClientId
  email : String
  role : Role
  deriving DecidableEq

/-- `AuthMethod`. -/
inductive AuthMethod where
  | cookie
  | bearer
  deriving DecidableEq

/-- What the guards read of a request. -/
structure Session where
  authUser : Option AuthenticatedUser
  authMethod : AuthMethod
  csrfHeader : Option String := none
  csrfCookie : Option String := none

/-! ## Guards -/

/-- The user a handler acts for. -/
def Session.user (session : Session) : Except ApiErr AuthenticatedUser :=
  match session.authUser with
  | none => .error (.http unauthorized)
  | some user => .ok user

/-- `requireRole`. -/
def requireRole (roles : List Role) (session : Session) : Except ApiErr Unit := do
  let user ← session.user
  if user.role ∈ roles then return ()
  else
    throw (.http (forbidden (("Requires role: ").append (" or ".intercalate (roles.map Role.name)))
      (some [("required", .arr (roles.map fun role => .str role.name)),
        ("actual", .str user.role.name)])))

/-- `requireApprover`. -/
def requireApprover (session : Session) : Except ApiErr Unit := do
  let user ← session.user
  if user.role = .approver then return ()
  else
    throw (.http (forbidden "Approver role required"
      (some [("required", .arr [.str Role.approver.name]), ("actual", .str user.role.name)])))

/-- `verifyCsrf`; `verifyCsrfToken` says which tokens were issued to a user. -/
def verifyCsrf (verifyCsrfToken : EntityId → String → Bool) (session : Session) :
    Except ApiErr Unit := do
  match session.authMethod with
  | .bearer => return ()
  | .cookie =>
    let user ← session.user
    match session.csrfHeader, session.csrfCookie with
    | some header, some cookie =>
      if header = "" ∨ cookie = "" ∨ header ≠ cookie then
        throw (.http (forbidden "CSRF token missing or mismatched"
          (some [("hint", .str "send the 'x-csrf-token' header matching the 'montr_csrf' cookie")])))
      else if verifyCsrfToken user.id cookie then return ()
      else throw (.http (forbidden "CSRF token invalid"))
    | _, _ =>
      throw (.http (forbidden "CSRF token missing or mismatched"
        (some [("hint", .str "send the 'x-csrf-token' header matching the 'montr_csrf' cookie")])))

/-- `parse`: what the schema made of a part of the request, or its issues. -/
def parsed {α : Type} (part : String) : Except (List JsValue) α → Except ApiErr α
  | .ok a => .ok a
  | .error issues =>
    .error (.http (badRequest (("Invalid ").append part) (some [("issues", .arr issues)])))

/-- `parseBody`. -/
def parseBody {α : Type} : Except (List JsValue) α → Except ApiErr α := parsed "request body"

/-- Only an approver passes. -/
theorem requireApprover_eq_ok_iff {session : Session} :
    requireApprover session = .ok () ↔ ∃ user, session.authUser = some user ∧ user.role = .approver := by
  rw [requireApprover, Session.user]
  cases session.authUser with
  | none =>
    constructor
    · intro h
      cases h
    · rintro ⟨_, h, -⟩
      cases h
  | some user =>
    show (if user.role = .approver then _ else _) = _ ↔ _
    by_cases hrole : user.role = .approver
    · rw [if_pos hrole]
      exact iff_of_true rfl ⟨user, rfl, hrole⟩
    · rw [if_neg hrole]
      constructor
      · intro h
        cases h
      · rintro ⟨_, h, happrover⟩
        cases h
        exact absurd happrover hrole

/-! ## Audit -/

/-- `AuditInput`. -/
structure AuditInput where
  clientId : ClientId
  actor : AuditActor
  action : String
  scanId : Option ScanId := none
  targetType : Option String := none
  targetId : Option EntityId := none
  summary : String
  metadata : Option JsRecord := none

/-- `actorFromUser`. -/
def actorFromUser (user : AuthenticatedUser) : AuditActor :=
  { type := .user, id := user.id, role := some user.role }

/-- What `recordAudit` appends. -/
def AuditInput.scrubbed (input : AuditInput) : AuditInput :=
  { input with metadata := some (Telemetry.scrubFields {} input.metadata) }

end MontrSecure
