import MontrSecure.Confirm.Guard
import MontrSecure.Contracts.Phase4
import MontrSecure.Text.Utf16
import Mathlib.Data.List.Sort

/-!
# The red-team scenario library

`packages/confirm/src/scenarios.ts`: the validation of a scenario, its authorization, and `runScenario`,
which sends its steps one by one through a `ScopeGuard` of its own, or only checks them.
-/

namespace MontrSecure.Confirm

open Async

/-! ## Validation -/

/-- `ScenarioValidation`. -/
structure ScenarioValidation where
  valid : Bool
  errors : List String
  warnings : List String

/-- `HttpMethod`, as it is written. -/
def methodName : HttpMethod → String
  | .get => "GET"
  | .post => "POST"
  | .put => "PUT"
  | .patch => "PATCH"
  | .delete => "DELETE"
  | .options => "OPTIONS"
  | .head => "HEAD"
  | .all => "ALL"

/-- `isRelativePath`. -/
def isRelativePath (path : String) : Bool :=
  let p := trim path
  !(['/', '/'].isPrefixOf p.toList) && !hasScheme p

/-- The errors of a step. -/
def stepErrors (i : ℕ) (step : RedTeamStep) : List String :=
  match step.path with
  | none => []
  | some path =>
    if isRelativePath path then []
    else
      [s!"steps[{i}].path must be relative to the allowlisted target " ++
        s!"(no absolute/scheme-relative URL): {path}"]

/-- The warnings of a step, after steps with the orders `seen`. -/
def stepWarnings (seen : List ℕ) (i : ℕ) (step : RedTeamStep) : List String :=
  (if step.order ∈ seen then [s!"steps[{i}] duplicates order {step.order}"] else []) ++
    match step.method with
    | none => []
    | some method =>
      if isMutating (methodName method) then
        [s!"steps[{i}] is {methodName method} (mutating) — it is capped by " ++
          "dast.scope.maxMutatingRequests (0 by default)"]
      else []

/-- `validateScenario`. -/
def validateScenario (steps : List RedTeamStep) (targetAllowlistRef : String) : ScenarioValidation :=
  let targetErrors :=
    if trim targetAllowlistRef = "" then
      ["targetAllowlistRef is required — a scenario must be bound to an allowlisted target"]
    else []
  let errors := targetErrors ++ (steps.mapIdx stepErrors).flatten
  let warnings :=
    (if steps = [] then ["scenario has no steps — it will authorize but probe nothing"] else []) ++
      (steps.mapIdx fun i step => stepWarnings ((steps.take i).map RedTeamStep.order) i step).flatten
  { valid := decide (errors = []), errors, warnings }

/-! ## Targets and requests -/

/-- `resolveScenarioTarget`. -/
def resolveScenarioTarget (scenario : RedTeamScenario) (override : Option String) : String :=
  match override.map trim with
  | none | some "" => scenario.targetAllowlistRef
  | some o => o

/-- `replace(/\[[^\]]+\]/g, "1")`, for at most `n` characters. -/
def replaceSegments : ℕ → List Char → List Char
  | 0, cs => cs
  | _, [] => []
  | n + 1, c :: rest =>
    let inside := rest.takeWhile (· ≠ ']')
    if c = '[' ∧ inside ≠ [] ∧ inside.length < rest.length then
      '1' :: replaceSegments n (rest.drop (inside.length + 1))
    else c :: replaceSegments n rest

/-- `replace(/:([A-Za-z0-9_]+)/g, "1")`, for at most `n` characters. -/
def replaceParams : ℕ → List Char → List Char
  | 0, cs => cs
  | _, [] => []
  | n + 1, c :: rest =>
    let name := rest.takeWhile fun d => d.isAlphanum || d = '_'
    if c = ':' ∧ name ≠ [] then '1' :: replaceParams n (rest.drop name.length)
    else c :: replaceParams n rest

/-- `concretePath`. -/
def concretePath (path : String) : String :=
  let p := if ['/'].isPrefixOf path.toList then path.toList else '/' :: path.toList
  let q := replaceSegments p.length p
  String.ofList (replaceParams q.length q)

/-- `joinUrl`. -/
def joinUrl (target path : String) : String := stripSlash target ++ concretePath path

/-- The request of a step. -/
def stepRequest (target : String) (step : RedTeamStep) : LiveHttpRequest :=
  { method := upper ((step.method.map methodName).getD "GET")
    url := joinUrl target (step.path.getD "/")
    body := step.body }

/-! ## Transcripts -/

/-- `HttpExchange`. -/
structure HttpExchange where
  method : String
  url : String
  requestHeaders : Option (List (String × String)) := none
  requestSnippet : Option String := none
  status : ℕ
  responseHeaders : Option (List (String × String)) := none
  responseSnippet : Option String := none
  note : Option String := none

/-- The longest beginning that has at most `n` code units. -/
def takeUnits (n : ℕ) : List Char → List Char
  | [] => []
  | c :: cs =>
    let k := (Text.charUnits c).length
    if k ≤ n then c :: takeUnits (n - k) cs else []

/-- `truncate`. -/
def truncate (s : String) : String :=
  if 512 < Text.length s then
    String.ofList (takeUnits 512 s.toList) ++ s!"…[truncated {Text.length s - 512} chars]"
  else s

/-- `safeHeaders`. -/
def safeHeaders (headers : List (String × String)) : List (String × String) :=
  headers.map fun h =>
    if lower h.1 ∈ ["authorization", "cookie", "set-cookie", "x-api-key"] then (h.1, "[redacted]") else h

/-- `toExchange`. -/
def toExchange (req : LiveHttpRequest) (note : String) (response : LiveHttpResponse) : HttpExchange :=
  { method := req.method, url := req.url, requestSnippet := req.body.map truncate
    status := response.status, responseHeaders := response.headers.map safeHeaders
    responseSnippet := some (truncate response.body), note := some note }

/-! ## Running -/

/-- `ScenarioStepResult`. -/
structure ScenarioStepResult where
  order : ℕ
  action : String
  method : String
  path : String
  url : String
  probed : Bool
  status : Option ℕ := none
  blocked : Bool := false
  reason : Option String := none

/-- What the loop over the steps has done so far. -/
structure ScenarioProgress where
  guard : ScopeGuard := {}
  results : List ScenarioStepResult := []
  transcript : List HttpExchange := []
  blocked : Bool := false
  probedAny : Bool := false

/-- `ScenarioRunResult`. -/
structure ScenarioRunResult where
  scenarioId : EntityId
  target : String
  probed : Bool
  blocked : Bool
  requestsSent : ℕ
  mutatingSent : ℕ
  steps : List ScenarioStepResult
  transcript : List HttpExchange

/-- The result of a step that sent nothing. -/
def unsent (target : String) (step : RedTeamStep) : ScenarioStepResult :=
  let req := stepRequest target step
  { order := step.order, action := step.action, method := req.method, path := step.path.getD "/"
    url := req.url, probed := false }

/-- The run stops at a step. -/
def ScenarioProgress.stop (progress : ScenarioProgress) (target : String) (step : RedTeamStep)
    (e : LiveErr) : ScenarioProgress :=
  { progress with
    results := progress.results ++ [{ unsent target step with blocked := true, reason := some e.message }]
    blocked := true }

/-- The message with which an aborted scenario ends. -/
def scenarioAborted : String := "red-team scenario aborted by kill switch"

variable (parseUrl : UrlParser) (config : LiveConfig)

/-- `assertScenarioAuthorized`. -/
def assertScenarioAuthorized (scenario : RedTeamScenario) (allowLive : Bool)
    (targetOverride : Option String) : Except Err String :=
  assertLiveAuthorized parseUrl config allowLive (some (resolveScenarioTarget scenario targetOverride))

/-- Throttle, and send the request of a step. -/
def sendStep (guard : ScopeGuard) (req : LiveHttpRequest) :
    ProbeProgram (ScopeGuard × LiveHttpResponse) := do
  let guard ← guard.throttle config
  Program.ofExcept (ScopeGuard.assertNotKilled (← Program.get))
  let response ← askProbe (.send req)
  return (guard, response)

/-- The loop over the steps; without a transport nothing is sent. -/
def runSteps (egressGuard : EgressGuard) (transport : Bool) (target : String) :
    List RedTeamStep → ScenarioProgress → ProbeProgram ScenarioProgress
  | [], progress => return progress
  | step :: steps, progress => do
    let req := stepRequest target step
    match progress.guard.assertProbeAllowed parseUrl config egressGuard (← Program.get) req.url
        req.method with
    | .error e =>
      if isAbort e then Program.throw (asKill scenarioAborted e)
      else return progress.stop target step e
    | .ok () =>
      if transport = false then
        runSteps egressGuard transport target steps
          { progress with results := progress.results ++ [unsent target step] }
      else
        match ← Program.attempt (sendStep config progress.guard req) with
        | .error e =>
          if isAbort e then Program.throw (asKill scenarioAborted e)
          else return progress.stop target step e
        | .ok (guard, response) =>
          runSteps egressGuard transport target steps
            { progress with
              guard := guard.record req.method (← Program.get)
              results := progress.results ++
                [{ unsent target step with probed := true, status := some response.status }]
              transcript := progress.transcript ++ [toExchange req step.action response]
              probedAny := true }

/-- `runScenario`; `egressGuard` is the one that was passed, if any. -/
def runScenario (egressGuard : Option EgressGuard) (transport : Bool) (scenario : RedTeamScenario)
    (allowLive : Bool) (targetOverride : Option String) : ProbeProgram ScenarioRunResult := do
  match assertScenarioAuthorized parseUrl config scenario allowLive targetOverride with
  | .error e => Program.throw (.err e)
  | .ok target =>
    let egressGuard ← match egressGuard with
      | some egressGuard => pure egressGuard
      | none => askProbe .buildEgressGuard
    let steps := scenario.steps.insertionSort fun a b => a.order ≤ b.order
    let progress ← runSteps parseUrl config egressGuard transport target steps {}
    return { scenarioId := scenario.id, target, probed := progress.probedAny
             blocked := progress.blocked, requestsSent := progress.guard.total
             mutatingSent := progress.guard.mutating, steps := progress.results
             transcript := progress.transcript }

end MontrSecure.Confirm
