import MontrSecure.Confirm.Static

/-!
# The investigation of a finding

`investigate.ts`, `evidence.ts`, `adversarial.ts` and `investigation-pipeline.ts` of `packages/confirm`: a
loop in which the model uses tools and concludes, the gate of executable evidence, a panel of verifiers, and
the path through all three that may confirm a finding.
-/

namespace MontrSecure.Confirm

open Async

/-! ## The loop -/

/-- `InvestigationVerdict`. -/
inductive InvestigationVerdict where
  | confirmedCandidate
  | refuted
  | inconclusive
  deriving DecidableEq

/-- `InvestigationOutcome`, without the turns it took. -/
structure InvestigationOutcome where
  verdict : InvestigationVerdict
  rationale : String
  ownershipCheckFound : Option Bool := none
  existingTestFile : Option String := none
  targetRouteId : Option EntityId := none

/-- `asVerdict`. -/
def asVerdict (v : Option Json) : InvestigationVerdict :=
  match v.bind textOf with
  | some "confirmed_candidate" => .confirmedCandidate
  | some "refuted" => .refuted
  | _ => .inconclusive

/-- A property with a text that is not blank, trimmed. -/
def trimmedText (rawInput : Json) (key : String) : Option String :=
  nonempty (((rawInput.property key).bind textOf).map trim)

/-- `parseConclusion`. -/
def parseConclusion (rawInput : Json) : InvestigationOutcome :=
  { verdict := asVerdict (rawInput.property "verdict")
    rationale := (trimmedText rawInput "rationale").getD
      "model submitted a conclusion with no rationale text."
    ownershipCheckFound := (rawInput.property "ownershipCheckFound").bind booleanOf
    existingTestFile := trimmedText rawInput "existingTestFile"
    targetRouteId := trimmedText rawInput "targetRouteId" }

/-- `SUBMIT_CONCLUSION_TOOL`. -/
def submitConclusionTool : String := "submit_conclusion"

/-- `DEFAULT_MAX_TURNS`. -/
def defaultMaxTurns : ℕ := 6

/-- `ABSOLUTE_MAX_INVESTIGATION_TURNS`. -/
def absoluteMaxInvestigationTurns : ℕ := 8

/-- `MAX_TOOL_CALLS_PER_TURN`. -/
def maxToolCallsPerTurn : ℕ := 4

/-- `throwIfKilled`, with the message of the caller. -/
def throwIfKilled (message : String) : AgentProgram Unit := do
  match (← Program.get).aborted with
  | none => return ()
  | some (.err e) =>
    Program.throw (.err (if e.code = .killSwitchActivated then e else .killSwitchActivated message))
  | some (.abort _) => Program.throw (.err (.killSwitchActivated message))

/-- The text of the events of a stream. -/
def streamedText (events : List LLMStreamEvent) : String :=
  String.join (events.map fun
    | .textDelta text => text
    | _ => "")

/-- The tool calls of the events of a stream. -/
def streamedCalls (events : List LLMStreamEvent) : List LLMToolCall :=
  events.filterMap fun
    | .toolUse call => some call
    | _ => none

/-- The stream says that it failed. -/
def LLMStream.failed (s : LLMStream) : Bool :=
  s.cut || s.events.any fun
    | .error => true
    | _ => false

/-- `runStreamedTurn`: a stream without tool calls is asked again as a whole. -/
def runStreamedTurn (request : LLMRequest) : AgentProgram LLMResponse := do
  let streamed : LLMStream :=
    match ← Program.attempt (askAgent (.stream request)) with
    | .ok s => s
    | .error (_ : LiveErr) => { cut := true }
  let toolCalls := streamedCalls streamed.events
  if streamed.failed || toolCalls.isEmpty then askAgent (.complete request)
  else return { content := streamedText streamed.events, toolCalls }

variable (rt : Runtime) (input : ConfirmInput) (deps : ConfirmDeps) (finding : ProbableFinding)

/-- `tryParseFreeformConclusion`. -/
def tryParseFreeformConclusion (content : String) : Option InvestigationOutcome :=
  (rt.parseJson content).bind fun parsed => (parsed.property "verdict").map fun _ => parseConclusion parsed

/-- The outcome that confirms nothing. -/
def inconclusive (rationale : String) : InvestigationOutcome := { verdict := .inconclusive, rationale }

/-- The turns that are left, from turn `turn` on, of at most `cap`. -/
def investigationTurns (cap : ℕ) : ℕ → ℕ → AgentProgram InvestigationOutcome
  | 0, _ =>
    return inconclusive (s!"investigation exhausted its {cap}-turn budget without a submitted conclusion; " ++
      "treated as inconclusive (fail-safe — budget exhaustion never confirms).")
  | left + 1, turn => do
    throwIfKilled "kill switch activated — halting Layer 3 investigation"
    match ← Program.attempt (runStreamedTurn
        { purpose := s!"investigation turn {turn}", finding := finding.id }) with
    | .error e =>
      return inconclusive (s!"investigation call failed on turn {turn}: {LiveErr.message e} " ++
        "(fail-safe — treated as inconclusive).")
    | .ok resp =>
      match resp.toolCalls.find? (·.name = submitConclusionTool) with
      | some submission => return parseConclusion submission.input
      | none =>
        if resp.toolCalls.isEmpty then
          return (tryParseFreeformConclusion rt resp.content).getD
            (inconclusive (s!"model returned no tool call and no parseable conclusion on turn {turn}; " ++
              "investigation ended (fail-safe)."))
        else
          (resp.toolCalls.take maxToolCallsPerTurn).forM fun call => do
            let _ ← askAgent (.tool call)
          investigationTurns cap left (turn + 1)

/-- `runInvestigation`. -/
def runInvestigation (maxTurns : ℕ) : AgentProgram InvestigationOutcome :=
  let turnsCap := min (max 1 maxTurns) absoluteMaxInvestigationTurns
  investigationTurns rt finding turnsCap turnsCap 1

/-! ## Evidence -/

/-- `ExecutableEvidence`: an existing test that fails. -/
structure ExecutableEvidence where
  summary : String
  testFile : String

/-- The run of a test is evidence. -/
def isEvidence (result : TestRunResult) : Bool := result.ran && result.passed = some false

/-- `gatherExecutableEvidence`. -/
def gatherExecutableEvidence (existingTestFile : Option String) : AgentProgram (Option ExecutableEvidence) :=
  match nonempty input.repoRoot, nonempty existingTestFile with
  | some repoRoot, some testFile => do
    match ← Program.attempt (askAgent (.runTest repoRoot testFile 15000)) with
    | .ok result => return if isEvidence result then some { summary := result.summary, testFile } else none
    | .error (_ : LiveErr) => return none
  | _, _ => return none

/-! ## Verifiers -/

/-- `VerifierLens`. -/
inductive VerifierLens where
  | exploitability
  | reachability
  | businessImpact
  | refutation
  deriving DecidableEq

/-- A lens, as it is written. -/
def VerifierLens.text : VerifierLens → String
  | exploitability => "exploitability"
  | reachability => "reachability"
  | businessImpact => "business_impact"
  | refutation => "refutation"

/-- `LENS_ORDER`. -/
def lensOrder : List VerifierLens := [.exploitability, .reachability, .businessImpact, .refutation]

/-- `VerifierVerdict`. -/
structure VerifierVerdict where
  lens : VerifierLens
  errored : Bool := false
  confirm : Bool
  rationale : String

/-- What a reply of a verifier says; one that is no object is a vote against. -/
def parseVerdict (lens : VerifierLens) (content : String) : VerifierVerdict :=
  match rt.parseJson content with
  | some (.obj fields) =>
    let rec_ : Json := .obj fields
    { lens, confirm := decide ((rec_.property "confirm").bind booleanOf = some true)
      rationale := (trimmedText rec_ "rationale").getD "(no rationale provided)" }
  | some (.arr _) => { lens, confirm := false, rationale := "(no rationale provided)" }
  | _ =>
    { lens, errored := true, confirm := false
      rationale := "verifier response was not valid JSON (fail-safe reject)." }

/-- `runOneVerifier`. -/
def runOneVerifier (lens : VerifierLens) : AgentProgram VerifierVerdict := do
  match ← Program.attempt (askAgent (.complete { purpose := lens.text, finding := finding.id })) with
  | .ok resp => return parseVerdict rt lens resp.content
  | .error e =>
    return { lens, errored := true, confirm := false
             rationale := s!"verifier call failed for finding {finding.id}: {LiveErr.message e} " ++
               "(fail-safe reject)." }

/-- `AdversarialOutcome`. -/
structure AdversarialOutcome where
  verdicts : List VerifierVerdict

namespace AdversarialOutcome

variable (outcome : AdversarialOutcome)

/-- `confirmVotes`. -/
def confirmVotes : ℕ := (outcome.verdicts.filter (·.confirm)).length

/-- `totalVerifiers`. -/
def totalVerifiers : ℕ := outcome.verdicts.length

/-- `requiredVotes`. -/
def requiredVotes : ℕ := outcome.totalVerifiers / 2 + 1

/-- `confirmed`. -/
def confirmed : Bool := decide (0 < outcome.totalVerifiers ∧ outcome.requiredVotes ≤ outcome.confirmVotes)

end AdversarialOutcome

/-- The verifiers run one after the other. -/
def runVerifiers : List VerifierLens → AgentProgram (List VerifierVerdict)
  | [] => return []
  | lens :: lenses => do
    let verdict ← runOneVerifier rt finding lens
    return verdict :: (← runVerifiers lenses)

/-- `runAdversarialVerification`, with a gateway. -/
def runAdversarialVerification : AgentProgram AdversarialOutcome := do
  let count := min (max (deps.investigation.verifierCount.getD lensOrder.length) 1) lensOrder.length
  return { verdicts := ← runVerifiers rt finding (lensOrder.take count) }

/-! ## The path -/

/-- `combinedScoreOf`. -/
def combinedScoreOf : ℚ := finding.reachabilityScore * finding.exposureScore * finding.impactScore

/-- `effortScaledMaxTurns`. -/
def effortScaledMaxTurns : ℕ :=
  let configured := deps.investigation.maxTurns.getD defaultMaxTurns
  let score := combinedScoreOf finding
  -- halves are rounded up
  if 1 / 2 ≤ score then configured
  else if score < 15 / 100 then max 2 ((configured + 1) / 2)
  else max 2 ((3 * configured + 2) / 4)

/-- `findRouteForInvestigation`. -/
def findRouteForInvestigation (targetRouteId : Option EntityId) : Option Route :=
  (routeWithId input.appMap targetRouteId).or (findRoute finding input.appMap)

/-- `buildInvestigationArgument`. -/
def buildInvestigationArgument (investigation : InvestigationOutcome) (evidence : ExecutableEvidence)
    (adversarial : AdversarialOutcome) : String :=
  let line (v : VerifierVerdict) : String :=
    s!"  - {v.lens.text}: " ++ (if v.confirm then "CONFIRM" else "reject") ++ s!" — {v.rationale}"
  "\n".intercalate
    (["Agentic investigation proof (E1 investigation + E2 executable evidence + E4 adversarial majority):",
      s!"Investigator's rationale: {investigation.rationale}",
      if investigation.ownershipCheckFound = some false then
        "The investigator actively looked for an ownership/authorization check and did NOT find one."
      else "",
      s!"Executable evidence (failing_test): {evidence.summary}",
      s!"Adversarial verifier panel: {adversarial.confirmVotes}/{adversarial.totalVerifiers} confirmed " ++
        s!"(required {adversarial.requiredVotes}):",
      "\n".intercalate (adversarial.verdicts.map line),
      s!"Exploit hypothesis: {finding.exploitHypothesis}"].filter (· ≠ ""))

/-- The proof of an investigation. -/
def investigationProof (route : Option Route) (argument : String) : ProofArtifact :=
  .static
    { argument
      dataFlow :=
        [{ location := finding.location, authState := (route.map (·.authState)).getD .unknown
           transform := some ("agentic investigation (E1) — read the handler + traced the flow across " ++
             "files") }] }

/-- `attemptInvestigationConfirmation`: the finding, and the votes for it. -/
def attemptInvestigationConfirmation : AgentProgram (Option (ConfirmedFinding × AdversarialOutcome)) :=
  if deps.llm = false ∨ deps.investigation.enabled = false then return none
  else do
    let investigation ← runInvestigation rt finding (effortScaledMaxTurns deps finding)
    if investigation.verdict ≠ .confirmedCandidate then return none
    else
      match ← gatherExecutableEvidence input investigation.existingTestFile with
      | none => return none
      | some evidence =>
        let adversarial ← runAdversarialVerification rt deps finding
        if adversarial.confirmed = false then return none
        else
          let route := findRouteForInvestigation input finding investigation.targetRouteId
          let proof := investigationProof finding route
            (buildInvestigationArgument finding investigation evidence adversarial)
          let confirmed ← Program.ofExcept (assembleConfirmed deps finding route none proof .static)
          return some (confirmed, adversarial)

end MontrSecure.Confirm
