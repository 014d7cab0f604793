import MontrSecure.Orchestrator.Runtime

/-!
# Live-DAST authorization

The handler of `POST /scans/:id/dast/authorize` (`apps/api/src/routes/dast.ts`), from the point where
the request has been authenticated as coming from an approver. `hostOf` parses URLs, which the
runtime's `URL` class does for the source.
-/

namespace MontrSecure

open Async Action

/-- `isAllowlisted`. -/
def isAllowlisted (hostOf : String → Option String) (url : String) (allowlist : List String) :
    Bool :=
  allowlist.any fun entry =>
    entry ≠ "" &&
      (entry.toList.isPrefixOf url.toList ||
        ((hostOf entry).isSome && decide (hostOf entry = hostOf url)))

/-- A request to authorize live DAST for a scan. -/
structure AuthorizeRequest where
  clientId : ClientId
  userId : EntityId
  scanId : ScanId
  stagingUrl : String
  /-- What `idgen` gives, should a target have to be registered. -/
  targetId : EntityId

/-- The target of the URL, registered when it is new. -/
def findOrCreateTarget (req : AuthorizeRequest) : Action DastTarget := do
  match ← store (.dastFindByUrl req.clientId req.stagingUrl) with
  | some target => return target
  | none =>
    let createdAt ← nowIso
    store (.dastCreate
      { id := req.targetId, clientId := req.clientId, url := req.stagingUrl, enabled := false
        createdAt })

/-- The handler of `POST /scans/:id/dast/authorize`. -/
def authorizeScanDast (config : MontrConfig) (hostOf : String → Option String)
    (req : AuthorizeRequest) : Action Unit := do
  match ← store (.scansGet req.clientId req.scanId) with
  | none => Program.throw (.other "Scan not found")
  | some scan =>
    if isAllowlisted hostOf req.stagingUrl config.dast.allowlist then
      let target ← findOrCreateTarget req
      let approvedAt ← nowIso
      let authorized ← store (.dastUpdate req.clientId
        { target with
          enabled := true, approvedById := some req.userId, approvedAt := some approvedAt })
      let _ ← store (.scansUpdate req.clientId
        { scan with
          scope := { scan.scope with stagingUrl := some req.stagingUrl }
          approver := some req.userId })
      store (.auditAppend
        { clientId := req.clientId, scanId := some req.scanId, action := .dastAuthorized
          actor := { type := .user, id := req.userId, role := some .approver }
          targetType := some "scan", targetId := some req.scanId
          summary := s!"Live-DAST authorized for scan {req.scanId} against {req.stagingUrl}"
          metadata := [("url", .str req.stagingUrl), ("dastTargetId", .str authorized.id)] })
    else
      Program.throw (.dastTargetNotAllowlisted
        "Target is not on the DAST allowlist (production is blocked by policy)")

end MontrSecure
