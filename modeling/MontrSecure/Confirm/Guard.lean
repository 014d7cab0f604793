import MontrSecure.Async.Asking
import MontrSecure.Contracts.Scan
import MontrSecure.CostMeter.Pricing
import Mathlib.Data.List.Infix

/-!
# The guard of live probing

`packages/confirm/src/guard.ts`: what a target is, which targets are on the allowlist or look like
production, the authorization of a live run, and `ScopeGuard`, which every probe passes. `URL` is a class of
the runtime; a parser of URLs stands for its constructor.
-/

namespace MontrSecure.Confirm

open Async

/-! ## Targets -/

/-- The parts of a `URL` that are read. -/
structure Url where
  host : String
  pathname : String
  deriving DecidableEq

/-- `new URL(s)`, unless it throws. -/
abbrev UrlParser : Type := String → Option Url

/-- `String.prototype.trim`. -/
def trim (s : String) : String :=
  String.ofList (((s.toList.dropWhile isTrimmed).reverse.dropWhile isTrimmed).reverse)

/-- `String.prototype.toLowerCase` for hosts, which are ASCII. -/
def lower (s : String) : String := s.map Char.toLower

/-- A character of a scheme, after the first. -/
def isSchemeChar (c : Char) : Bool := c.isAlphanum || c = '+' || c = '.' || c = '-'

/-- `/^[a-z][a-z0-9+.-]*:\/\//i`. -/
def hasScheme (s : String) : Bool :=
  match s.toList with
  | [] => false
  | c :: rest => c.isAlpha && [':', '/', '/'].isPrefixOf (rest.dropWhile isSchemeChar)

/-- `String.prototype.includes`. -/
def includes (s part : String) : Bool := decide (part.toList <:+: s.toList)

/-- `MUTATING_METHODS`. -/
def mutatingMethods : List String := ["POST", "PUT", "PATCH", "DELETE"]

/-- `String.prototype.toUpperCase` for methods. -/
def upper (s : String) : String := s.map Char.toUpper

/-- `MUTATING_METHODS.has(method.toUpperCase())`. -/
def isMutating (method : String) : Bool := decide (upper method ∈ mutatingMethods)

/-- `PRODUCTION_MARKERS`. -/
def productionMarkers : List String := ["prod", "production", "www.", "live.", "release"]

/-- `STAGING_MARKERS`. -/
def stagingMarkers : List String :=
  ["staging", "stage", "test", "dev", "qa", "uat", "sandbox", "preview", "canary", "localhost",
    "127.0.0.1", ".internal", ".local"]

variable (parseUrl : UrlParser)

/-- `toUrl`. -/
def toUrl (raw : String) : Except Err Url :=
  let s := trim raw
  if s = "" then .error (.dastTargetNotAllowlisted "empty DAST target")
  else
    match parseUrl (if hasScheme s then s else "https://" ++ s) with
    | none => .error (.dastTargetNotAllowlisted s!"invalid DAST target URL: {s}")
    | some u => .ok u

/-- `hostOf`. -/
def hostOf (target : String) : String :=
  match toUrl parseUrl target with
  | .ok u => lower u.host
  | .error _ => target

/-- `s.replace(/\/$/, "")`. -/
def stripSlash (s : String) : String :=
  if ['/'].isSuffixOf s.toList then String.ofList s.toList.dropLast else s

/-- `u.pathname || "/"`. -/
def Url.path (u : Url) : String := if u.pathname = "" then "/" else u.pathname

/-- The path of an entry, without a slash at its end. -/
def Url.root (u : Url) : String := stripSlash u.path

/-- The URL has the host of the entry, and its path is the entry's or under it. -/
def Url.under (u entry : Url) : Bool :=
  decide (lower entry.host = lower u.host) &&
    (decide (entry.root = "") || decide (u.path = entry.root) ||
      (entry.root ++ "/").toList.isPrefixOf u.path.toList)

/-- An entry of the allowlist admits the target. -/
def admits (target : String) (u : Url) (entry : String) : Bool :=
  decide (target = entry) ||
    match toUrl parseUrl entry with
    | .ok e => u.under e
    | .error _ => false

/-- `isAllowlisted`. -/
def isAllowlisted (target : String) (allowlist : List String) : Bool :=
  match toUrl parseUrl target with
  | .error _ => false
  | .ok u => allowlist.any (admits parseUrl target u)

/-- `looksLikeProduction`. -/
def looksLikeProduction (target : String) : Bool :=
  match toUrl parseUrl target with
  | .error _ => true
  | .ok u =>
    let host := lower u.host
    !stagingMarkers.any (includes host) && productionMarkers.any (includes host)

/-! ## Authorization -/

/-- `HumanApprovalRequiredError`. -/
def humanApprovalRequired (message : String) : Err := .montr .humanApprovalRequired message false

/-- `RateLimitExceededError`. -/
def rateLimitExceeded (message : String) : Err := .montr .rateLimitExceeded message false

/-- `assertLiveAuthorized`. -/
def assertLiveAuthorized (config : LiveConfig) (allowLive : Bool) (stagingUrl : Option String) :
    Except Err String :=
  if config.dast.enabled = false then
    .error (.dastTargetNotAllowlisted "live DAST is disabled by policy (dast.enabled=false)")
  else if allowLive = false then
    .error (humanApprovalRequired
      "live DAST requires approver authorization (RBAC) before any probe")
  else
    match stagingUrl with
    | none | some "" => .error (.dastTargetNotAllowlisted "no staging target provided for live DAST")
    | some url =>
      if config.dast.allowlist = [] then
        .error (.dastTargetNotAllowlisted "DAST allowlist is empty — nothing may be probed")
      else if isAllowlisted parseUrl url config.dast.allowlist = false then
        .error (.dastTargetNotAllowlisted
          s!"staging target is not on the allowlist: {hostOf parseUrl url}")
      else if config.productionBlocked && looksLikeProduction parseUrl url then
        .error (.dastTargetNotAllowlisted
          s!"staging target looks like production — blocked by policy: {hostOf parseUrl url}")
      else .ok url

/-! ## Probing -/

/-- An error of live probing: of this code, or one that an aborted operation rejects with. -/
inductive LiveErr where
  | err (e : Err)
  /-- `name` is `AbortError` or `code` is `UND_ERR_ABORTED`. -/
  | abort (message : String)

/-- `msg`. -/
def LiveErr.message : LiveErr → String
  | .err (.montr _ message _) | .err (.other message) | .abort message => message

/-- `isAbort`. -/
def isAbort : LiveErr → Bool
  | .err e => decide (e.code = .killSwitchActivated)
  | .abort _ => true

/-- `asKill`, with the message of the caller. -/
def asKill (message : String) : LiveErr → LiveErr
  | .err e => .err (if e.code = .killSwitchActivated then e else .killSwitchActivated message)
  | .abort _ => .err (.killSwitchActivated message)

/-- `LiveHttpRequest`, without the signal. -/
structure LiveHttpRequest where
  method : String
  url : String
  headers : Option (List (String × String)) := none
  body : Option String := none
  deriving DecidableEq

/-- `LiveHttpResponse`. -/
structure LiveHttpResponse where
  status : ℕ
  headers : Option (List (String × String)) := none
  body : String
  deriving DecidableEq

/-- `EgressGuardLike`. -/
abbrev EgressGuard : Type := String → Except Err Unit

/-- What live probing asks. -/
inductive ProbeOp where
  /-- `buildDefaultEgressGuard`. -/
  | buildEgressGuard
  | sleep (ms : ℕ)
  | send (req : LiveHttpRequest)

/-- What an operation resolves to. -/
abbrev ProbeOp.Val : ProbeOp → Type
  | buildEgressGuard => EgressGuard
  | sleep _ => Unit
  | send _ => LiveHttpResponse

/-- How an operation is answered: it resolves or it rejects. -/
abbrev ProbeOp.Ans (op : ProbeOp) : Type := Except LiveErr op.Val

/-- What the clock reads, and the reason of the kill signal once it has fired. -/
structure ProbeMemory where
  now : ℕ
  aborted : Option LiveErr

/-- An asynchronous action of live probing. -/
abbrev ProbeProgram (α : Type) : Type := Program ProbeOp ProbeOp.Ans ProbeMemory LiveErr α

/-- Await an operation; its rejection is thrown. -/
def askProbe (op : ProbeOp) : ProbeProgram op.Val := Program.ask op

/-- What a `ScopeGuard` counts. -/
structure ScopeGuard where
  total : ℕ := 0
  mutating : ℕ := 0
  sendTimes : List ℕ := []

namespace ScopeGuard

variable (config : LiveConfig) (egressGuard : EgressGuard) (guard : ScopeGuard)

/-- `assertNotKilled`. -/
def assertNotKilled (m : ProbeMemory) : Except LiveErr Unit :=
  match m.aborted with
  | none => .ok ()
  | some (.err e) =>
    .error (.err (if e.code = .killSwitchActivated then e
      else .killSwitchActivated "kill switch activated — halting DAST probing"))
  | some (.abort _) =>
    .error (.err (.killSwitchActivated "kill switch activated — halting DAST probing"))

/-- `assertProbeAllowed`. -/
def assertProbeAllowed (m : ProbeMemory) (url method : String) : Except LiveErr Unit := do
  assertNotKilled m
  if config.scope.maxRequestsPerScan ≤ guard.total then
    throw (.err (rateLimitExceeded "DAST per-scan request cap reached (blast-radius)"))
  else if isMutating method && config.scope.maxMutatingRequests ≤ guard.mutating then
    throw (.err (rateLimitExceeded "DAST mutating-request cap reached (blast-radius)"))
  else if isAllowlisted parseUrl url config.dast.allowlist = false then
    throw (.err (.dastTargetNotAllowlisted
      s!"target not on the staging allowlist: {hostOf parseUrl url}"))
  else if config.productionBlocked && looksLikeProduction parseUrl url then
    throw (.err (.dastTargetNotAllowlisted
      s!"production target blocked by policy: {hostOf parseUrl url}"))
  else
    match egressGuard url with
    | .ok () => return ()
    | .error e => throw (.err e)

/-- `throttle`. -/
def throttle : ProbeProgram ScopeGuard := do
  let rps := config.scope.maxRequestsPerSecond
  if ¬ 0 < rps then return guard
  else
    let now := (← Program.get).now
    let sendTimes := guard.sendTimes.filter fun t => now < t + 1000
    let guard := { guard with sendTimes }
    if rps ≤ sendTimes.length then
      let oldest := sendTimes.headD now
      if now < oldest + 1000 then
        Program.ofExcept (assertNotKilled (← Program.get))
        askProbe (.sleep (oldest + 1000 - now))
        Program.ofExcept (assertNotKilled (← Program.get))
        return guard
      else return guard
    else return guard

/-- `record`. -/
def record (method : String) (m : ProbeMemory) : ScopeGuard :=
  { total := guard.total + 1
    mutating := guard.mutating + if isMutating method then 1 else 0
    sendTimes := guard.sendTimes ++ [m.now] }

end ScopeGuard

end MontrSecure.Confirm
