import MontrSecure.Async.Embedding
import MontrSecure.Confirm.Findings
import MontrSecure.Confirm.LiveProbes
import MontrSecure.Confirm.PayloadSafety

/-!
# Live confirmation

`confirmLive` and `runAdaptiveLoop` of `packages/confirm/src/live.ts`, and `confirmFindings` with them: the fixed probes
of a finding, the rounds in which a model chooses the next probe, and the login through the browser before them.
-/

namespace MontrSecure.Confirm.Live

open Async

/-! ## What confirmation asks -/

/-- What confirmation asks, live probing included. -/
inductive LiveOp where
  | agent (op : AgentOp)
  | probe (op : ProbeOp)
  /-- `browser.login`. -/
  | login (loginUrl : String)
  /-- `defaultBrowserDriver`. -/
  | loadBrowser
  /-- `defaultTransport`. -/
  | loadTransport

/-- What an operation resolves to. -/
abbrev LiveOp.Val : LiveOp → Type
  | agent op => op.Val
  | probe op => op.Val
  | login _ => AuthenticatedSession
  | loadBrowser => Unit
  | loadTransport => Unit

/-- How an operation is answered: it resolves or it rejects. -/
abbrev LiveOp.Ans (op : LiveOp) : Type := Except LiveErr op.Val

/-- An asynchronous action of confirmation. -/
abbrev LiveProgram (α : Type) : Type := Program LiveOp LiveOp.Ans ProbeMemory LiveErr α

/-- Await an operation; its rejection is thrown. -/
def askLive (op : LiveOp) : LiveProgram op.Val := Program.ask op

/-- A collaborator is loaded unless it is given. -/
def loadUnless (given : Bool) (load : LiveOp) : LiveProgram Unit :=
  if given then return ()
  else do
    let _ ← askLive load

/-- What contacts no target, as a part of confirmation. -/
def agentPart :
    Embedding AgentOp AgentOp.Ans ProbeMemory LiveErr LiveOp LiveOp.Ans ProbeMemory LiveErr where
  op := .agent
  answer _ r := r
  view := id
  put m _ := m
  error := id

/-- What a guard asks, as a part of confirmation. -/
def probePart :
    Embedding ProbeOp ProbeOp.Ans ProbeMemory LiveErr LiveOp LiveOp.Ans ProbeMemory LiveErr where
  op := .probe
  answer _ r := r
  view := id
  put m _ := m
  error := id

/-- An action that contacts no target. -/
def asAgent {α : Type} (p : AgentProgram α) : LiveProgram α := p.lift agentPart

/-- An action of a guard. -/
def asProbe {α : Type} (p : ProbeProgram α) : LiveProgram α := p.lift probePart

/-! ## One probe -/

/-- The parser of URLs of `payload-safety.ts` reads more of a URL. -/
structure LiveRuntime extends Runtime where
  parsePayloadUrl : String → Option PayloadUrl

variable (rt : LiveRuntime) (input : ConfirmInput) (deps : ConfirmDeps) (egressGuard : EgressGuard)
  (finding : ProbableFinding)

/-- The message of `asKill`. -/
def dastAborted : String := "DAST probe aborted by kill switch"

/-- The role of a probe, as it is written. -/
def roleName : ProbeRole → String
  | .baseline => "baseline"
  | .payload => "payload"
  | .adaptivePayload => "adaptive_payload"

/-- `toExchange`. -/
def probeExchange (probe : Probe) (response : LiveHttpResponse) : HttpExchange :=
  { toExchange probe.request probe.note response with requestHeaders := probe.request.headers.map safeHeaders }

/-- The kill switch has fired: the audit log says so, and everything ends. -/
def halt {α : Type} (probe : Probe) (e : LiveErr) : LiveProgram α := do
  asAgent (safeAppend deps (agentAudit input "dast.kill_switch" "DAST probing halted by kill switch"
    [("host", .str (hostOfSafe rt.toRuntime probe.request.url))] (some finding.id)))
  Program.throw (asKill dastAborted e)

/-- The checks before a probe. -/
def gate (probe : Probe) (guard : ScopeGuard) : LiveProgram ScopeGuard := do
  Program.ofExcept (guard.assertProbeAllowed rt.parseUrl input.config egressGuard (← Program.get) probe.request.url
    probe.request.method)
  let guard ← asProbe (guard.throttle input.config)
  Program.ofExcept (ScopeGuard.assertNotKilled (← Program.get))
  return guard

/-- What becomes of a probe. -/
inductive ProbeResult where
  /-- A guardrail refused it. -/
  | blocked (e : LiveErr)
  /-- The transport failed. -/
  | failed
  | answered (response : LiveHttpResponse)

/-- The audit entry of a probe that was answered; a URL that cannot be parsed throws. -/
def probeAudit (probe : Probe) (response : LiveHttpResponse) (summary : String) (metadata : JsRecord) :
    Except LiveErr AuditInput :=
  match rt.parseUrl probe.request.url with
  | none => .error (.err (.other "TypeError"))
  | some url =>
    .ok (agentAudit input "dast.probe" summary
      ([("method", .str probe.request.method), ("host", .str url.host), ("path", .str url.pathname),
        ("status", .num response.status), ("role", .str (roleName probe.role))] ++ metadata) (some finding.id))

/-- A probe passes the gate and is sent; what was answered is recorded. -/
def sendProbe (probe : Probe) (summary : String) (metadata : JsRecord) (guard : ScopeGuard) :
    LiveProgram (ProbeResult × ScopeGuard) := do
  match ← Program.attempt (gate rt input egressGuard probe guard) with
  | .error e => if isAbort e then halt rt input deps finding probe e else return (.blocked e, guard)
  | .ok guard =>
    match ← Program.attempt (askLive (.probe (.send probe.request))) with
    | .error e => if isAbort e then halt rt input deps finding probe e else return (.failed, guard)
    | .ok response =>
      let guard := guard.record probe.request.method (← Program.get)
      let entry ← Program.ofExcept (probeAudit rt input finding probe response summary metadata)
      asAgent (safeAppend deps entry)
      return (.answered response, guard)

/-! ## The fixed probes -/

/-- What the probes of a finding have come to. -/
structure ProbeProgress where
  guard : ScopeGuard
  collected : List Collected := []
  exchanges : List HttpExchange := []

/-- A probe was answered. -/
def ProbeProgress.add (progress : ProbeProgress) (probe : Probe) (response : LiveHttpResponse) : ProbeProgress :=
  { progress with
    collected := progress.collected ++ [{ probe, response }]
    exchanges := progress.exchanges ++ [probeExchange probe response] }

/-- The loop over the fixed probes; a guardrail ends it with its error. -/
def fixedProbes : List Probe → ProbeProgress → LiveProgram (Option LiveErr × ProbeProgress)
  | [], progress => return (none, progress)
  | probe :: probes, progress => do
    let summary := s!"probe {probe.request.method} → {roleName probe.role}"
    match ← sendProbe rt input deps egressGuard finding probe summary [] progress.guard with
    | (.blocked e, guard) => return (some e, { progress with guard })
    | (.failed, guard) => fixedProbes probes { progress with guard }
    | (.answered response, guard) => fixedProbes probes ({ progress with guard }.add probe response)

/-! ## The adaptive rounds -/

/-- `MAX_ADAPTIVE_ROUNDS`. -/
def maxAdaptiveRounds : ℕ := 3

/-- `AdaptiveAction`. -/
structure AdaptiveAction where
  probe : Probe
  variantId : Option String := none
  composed : Bool := false

/-- What the model has chosen: a probe, nothing, or a variant that was not offered. -/
inductive AdaptiveChoice where
  | action (action : AdaptiveAction)
  | nothing
  | notOffered

/-- The reply of the model, unless it is no JSON object. -/
def askVariant (prompt : String) : AgentProgram (Option Json) := do
  let _ ← askAgent (.resolvePrompt prompt)
  let resp ← askAgent (.complete { purpose := prompt, finding := finding.id })
  return (rt.parseJson resp.content).filter fun
    | .obj _ | .arr _ => true
    | _ => false

/-- `chooseNextVariant`, and what the loop makes of it. -/
def chooseNextVariant (ctx : VariantBuildCtx) (remaining : List PayloadVariant) : AgentProgram AdaptiveChoice := do
  let reply ← askVariant rt finding "confirm.live_adaptive.system"
  match (reply.bind fun reply => (reply.property "variantId").bind textOf).filter (· ≠ "") with
  | none => return .nothing
  | some choice =>
    match remaining.find? (·.id = choice) with
    | some variant => return .action { probe := variant.build ctx, variantId := some variant.id }
    | none => return .notOffered

/-- `chooseAdaptiveActionWithComposition`. -/
def chooseAdaptiveActionWithComposition (ctx : VariantBuildCtx) (remaining : List PayloadVariant) :
    AgentProgram AdaptiveChoice := do
  let reply ← askVariant rt finding "confirm.live_adaptive_compose.system"
  let field (key : String) := (reply.bind fun reply => (reply.property key).bind textOf).filter (· ≠ "")
  let composed := (field "composedPayload").filter fun payload =>
    (evaluateComposedPayloadSafety rt.parsePayloadUrl finding.category payload (some ctx.marker)).safe
  match composed with
  | some payload =>
    return .action { probe := buildComposedProbe finding.category ctx payload, composed := true }
  | none =>
    match (field "variantId").bind fun id => remaining.find? (·.id = id) with
    | some variant => return .action { probe := variant.build ctx, variantId := some variant.id }
    | none => return .nothing

/-- The label of an action. -/
def AdaptiveAction.label (action : AdaptiveAction) : String :=
  action.variantId.getD (if action.composed then "composed" else "unknown")

/-- The rounds that are left, from round `round` on; `tried` are the variants that were chosen. -/
def adaptiveRounds (ctx : VariantBuildCtx) (variants : List PayloadVariant) :
    ℕ → ℕ → List String → ProbeProgress → LiveProgram ProbeProgress
  | 0, _, _, progress => return progress
  | left + 1, round, tried, progress => do
    Program.ofExcept (ScopeGuard.assertNotKilled (← Program.get))
    let remaining := variants.filter fun v => v.id ∉ tried
    let composable := isComposableLiveCategory finding.category
    if !composable && remaining.isEmpty then return progress
    else
      match ← Program.attempt (asAgent
          (if composable then chooseAdaptiveActionWithComposition rt finding ctx remaining
          else chooseNextVariant rt finding ctx remaining)) with
      | .error e => if isAbort e then Program.throw (asKill dastAborted e) else return progress
      | .ok .notOffered => return progress
      | .ok .nothing => do
        Program.ofExcept (ScopeGuard.assertNotKilled (← Program.get))
        return progress
      | .ok (.action action) => do
        Program.ofExcept (ScopeGuard.assertNotKilled (← Program.get))
        let tried := tried ++ (action.variantId.filter (· ≠ "")).toList
        let summary := s!"adaptive probe {action.probe.request.method} → {action.label}"
        let metadata : JsRecord :=
          [("variantId", .str action.label), ("composed", .bool action.composed), ("round", .num (round + 1))]
        match ← sendProbe rt input deps egressGuard finding action.probe summary metadata progress.guard with
        | (.blocked _, guard) => return { progress with guard }
        | (.failed, guard) => adaptiveRounds ctx variants left (round + 1) tried { progress with guard }
        | (.answered response, guard) => do
          let progress := { progress with guard }.add action.probe response
          if (oracle rt.toLowerCase finding.category progress.collected).success ||
              !isAmbiguous rt.toLowerCase finding.category progress.collected then return progress
          else adaptiveRounds ctx variants left (round + 1) tried progress

/-- `runAdaptiveLoop`. -/
def runAdaptiveLoop (ctx : VariantBuildCtx) (progress : ProbeProgress) : LiveProgram ProbeProgress :=
  let variants := payloadVariants finding.category
  if variants.isEmpty || !isAmbiguous rt.toLowerCase finding.category progress.collected then return progress
  else adaptiveRounds rt input deps egressGuard finding ctx variants maxAdaptiveRounds 0 [] progress

/-! ## One finding -/

/-- The route is for users that have logged in. -/
def needsAuth (route : Option Route) : Bool :=
  route.any fun r => r.authState = .authenticated || r.authState = .roleGated

/-- The page on which the browser logs in. -/
def loginUrl (target : String) : String := stripSlash target ++ "/login"

/-- What the probes have shown. -/
def conclude (route : Option Route) (target : String) (progress : ProbeProgress) :
    LiveProgram (LiveConfirmOutcome × ScopeGuard) :=
  let verdict := oracle rt.toLowerCase finding.category progress.collected
  if verdict.success then do
    let param := paramFor input.appMap finding ((categoryDefaultParam finding.category).getD "q")
    let confirmed ← Program.ofExcept
      (assembleConfirmed deps finding route (some param) (.live target progress.exchanges) .live)
    return ({ confirmed := true, finding := some confirmed }, progress.guard)
  else
    return ({ confirmed := false, reason := some s!"live probes did not confirm exploitability ({verdict.note})" },
      progress.guard)

/-- The probes that were crafted, and the adaptive ones where those prove nothing. -/
def runProbes (route : Option Route) (target : String) (session : Option AuthenticatedSession) (probes : List Probe)
    (guard : ScopeGuard) : LiveProgram (LiveConfirmOutcome × ScopeGuard) := do
  match ← fixedProbes rt input deps egressGuard finding probes { guard } with
  | (some e, progress) =>
    return ({ confirmed := false, reason := some s!"live probing stopped by guardrail: {e.message}" }, progress.guard)
  | (none, progress) =>
    if !(oracle rt.toLowerCase finding.category progress.collected).success && deps.llm then do
      let ctx := buildCtx input.appMap finding route target session (markerOf "montrAdapt" finding)
      let progress ← runAdaptiveLoop rt input deps egressGuard finding ctx progress
      conclude rt input deps finding route target progress
    else conclude rt input deps finding route target progress

/-- `confirmLive`, behind the login. -/
def probeFinding (route : Option Route) (target : String) (session : Option AuthenticatedSession)
    (guard : ScopeGuard) : LiveProgram (LiveConfirmOutcome × ScopeGuard) :=
  let probes := craftProbes input.appMap finding route target session
  if probes.isEmpty then
    return ({ confirmed := false, reason := some s!"no safe live probe for {finding.category.name}" }, guard)
  else do
    loadUnless deps.transport .loadTransport
    runProbes rt input deps egressGuard finding route target session probes guard

/-- The login through the browser. -/
def browserLogin (target : String) : LiveProgram AuthenticatedSession := do
  Program.ofExcept (ScopeGuard.assertNotKilled (← Program.get))
  askLive (.login (loginUrl target))

/-- `confirmLive`. -/
def confirmLive (target : String) (guard : ScopeGuard) : LiveProgram (LiveConfirmOutcome × ScopeGuard) :=
  let route := findRoute finding input.appMap
  if needsAuth route then do
    loadUnless deps.browser .loadBrowser
    match ← Program.attempt (browserLogin target) with
    | .error e =>
      if isAbort e then Program.throw (asKill dastAborted e)
      else
        return ({ confirmed := false
                  reason := some
                    "authenticated flow required but browser login was unavailable; live probe skipped" }, guard)
    | .ok session => probeFinding rt input deps egressGuard finding route target (some session) guard
  else probeFinding rt input deps egressGuard finding route target none guard

/-! ## The batch -/

/-- The egress guard that is given, or the one that is built. -/
def egressGuardOf : LiveProgram EgressGuard :=
  match deps.egressGuard with
  | some egressGuard => return egressGuard
  | none => askLive (.probe .buildEgressGuard)

/-- The target and the egress guard of a live run, which every guardrail has accepted. -/
def acceptedTarget : LiveProgram (String × EgressGuard) := do
  let target ← Program.ofExcept
    ((assertLiveAuthorized rt.parseUrl input.config input.allowLive input.stagingUrl).mapError LiveErr.err)
  let egressGuard ← egressGuardOf deps
  asAgent (safeAppend deps (agentAudit input "dast.authorized" "Live DAST authorized against allowlisted staging."
    [("host", .str (hostOfSafe rt.toRuntime target)), ("allowlistCount", .num input.config.dast.allowlist.length),
      ("scope", scopeJson input.config.scope)]))
  return (target, egressGuard)

/-- The authorization of live probing: a refusal leaves static confirmation alone. -/
def authorizeLive : LiveProgram (Option (String × EgressGuard)) :=
  if (input.allowLive && input.config.dast.enabled) = false then return none
  else do
    match ← Program.attempt (acceptedTarget rt input deps) with
    | .ok accepted => return some accepted
    | .error (_ : LiveErr) => return none

/-- The live attempt at a finding, if there is one. -/
def attemptLive (authorized : Option (String × EgressGuard)) (guard : ScopeGuard) :
    LiveProgram (Option LiveConfirmOutcome × ScopeGuard) :=
  match authorized with
  | none => return (none, guard)
  | some (target, egressGuard) =>
    -- an empty target would count as none, but none is authorized
    if isLiveEligible finding.category = false then return (none, guard)
    else do
      let (outcome, guard) ← confirmLive rt input deps egressGuard finding target guard
      return (some outcome, guard)

/-- The body of the loop over the findings. -/
def confirmFinding (authorized : Option (String × EgressGuard)) (guard : ScopeGuard) :
    LiveProgram (FindingVerdict × ScopeGuard) :=
  if deps.isKnownFalsePositive finding.category finding.location.file finding.location.line then do
    let verdict ← asAgent (suppress input deps finding
      ("Matches a known false positive in the regression corpus (§15); suppressed to the appendix pending " ++
        "re-review (fail-safe).")
      "Suppressed known false positive (static)" [("reason", .str "known_false_positive")])
    return (verdict, guard)
  else
    match structuralConfirmationGate finding input.appMap with
    | some reason => do
      let verdict ← asAgent (suppress input deps finding reason "Structurally ruled out before confirmation"
        [("reason", .str "structurally_ruled_out"), ("detail", .str reason),
          ("routeId", (finding.routeId.map JsValue.str).getD .undefined)])
      return (verdict, guard)
    | none => do
      let staticOutcome ← asAgent (confirmStatic rt.toRuntime input deps finding)
      let (live, guard) ← attemptLive rt input deps finding authorized guard
      let verdict ← asAgent (settle rt.toRuntime input deps finding staticOutcome live)
      return (verdict, guard)

/-- The loop over the findings. -/
def confirmEach (authorized : Option (String × EgressGuard)) :
    List ProbableFinding → ScopeGuard → LiveProgram (List FindingVerdict)
  | [], _ => return []
  | finding :: rest, guard => do
    asAgent (throwIfKilled "kill switch activated — halting Layer 3")
    let (verdict, guard) ← confirmFinding rt input deps finding authorized guard
    let verdicts ← confirmEach authorized rest guard
    return verdict :: verdicts

/-- `confirmFindings`. -/
def confirmFindings : LiveProgram Layer3Output := do
  let authorized ← authorizeLive rt input deps
  let verdicts ← confirmEach rt input deps authorized (byRank input) {}
  return layer3Output verdicts

end MontrSecure.Confirm.Live
