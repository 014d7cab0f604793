import MontrSecure.Fix.Edits
import MontrSecure.Fix.Validate

/-!
# The generation of fixes

`packages/fix/src/generate.ts`: for each confirmed finding a model is asked for edits, once or in a loop with a
cheap check. What it proposes is validated, then what a fixed transformation makes; where neither holds, the
fix is an advice to a human.
-/

namespace MontrSecure

open Async

section Generate

variable (ctx : FixGenerationContext)

/-! ## Replies -/

/-- `LlmProposal`. -/
structure LlmProposal where
  fixedSource : Option String := none
  rationale : Option String := none
  model : String

/-- `safeJsonObject`. -/
def safeJsonObject (text : String) : Option Json :=
  match ctx.parseJson text with
  | some (.obj fields) => some (.obj fields)
  | _ => none

/-- `issue` of `InterpretedFixResponse`. -/
inductive FixIssue where
  | unparseable
  | invalidEdits

/-- `InterpretedFixResponse`. -/
structure InterpretedFixResponse where
  fixedSource : Option String := none
  rationale : Option String := none
  issue : Option FixIssue := none

/-- `interpretFixResponse`. -/
def interpretFixResponse (content : String) (source : Option String) : InterpretedFixResponse :=
  match safeJsonObject ctx content with
  | none => { issue := some .unparseable }
  | some parsed =>
    let rationale :=
      match parsed.property "rationale" with
      | some (.str rationale) => some rationale
      | _ => none
    match source, parsed.property "edits" with
    | some source, some edits =>
      match parseLlmEdits edits (sourceLines source).length with
      | none => { rationale, issue := some .invalidEdits }
      | some edits => { fixedSource := some (applyLineEdits source edits), rationale }
    | _, _ => { rationale }

/-! ## Asking the model -/

/-- `FIX_SYSTEM_PROMPT`. -/
def fixSystemPrompt : String :=
  "You are a secure-code fix generator. The user message's `source` field is the vulnerable " ++
    "file with each line prefixed \"<lineNumber>: \" (1-based, e.g. \"12: const x = 1;\"). Propose " ++
    "the SMALLEST possible set of line-range edits that fixes ONLY the vulnerability — never " ++
    "re-emit the whole file. Return ONLY minified JSON of the form " ++
    "\x7b\"edits\":[\x7b\"startLine\":<n>,\"endLine\":<n>,\"replacement\":\"<replacement lines, WITHOUT " ++
    "line-number prefixes>\"\x7d],\"rationale\":\"<plain English>\"\x7d. `startLine`/`endLine` are 1-based " ++
    "and inclusive, refer to the ORIGINAL line numbers, and edits must not overlap. Change as " ++
    "little as possible. NEVER modify authentication, session, cryptography, or access-control " ++
    "logic. If you cannot fix it safely, return \x7b\x7d."

/-- `AGENT_TOOL_SUFFIX`. -/
def agentToolSuffix : String :=
  " If a read_file tool is available, you MAY call it to inspect imported or sibling files for " ++
    "context before answering; when ready, stop calling tools and return ONLY the JSON edit list."

/-- `resolveFixSystemPrompt`. -/
def resolveFixSystemPrompt : FixProgram String := do
  return (← askFix (.resolvePrompt "fix.system")).getD fixSystemPrompt

/-- `fixUserPayload`. -/
def fixUserPayload (finding : ConfirmedFinding) (source : Option String) : String :=
  ctx.stringify
    (.obj
      [("category", .str finding.category.name), ("filePath", .str finding.location.file),
        ("title", .str finding.title), ("impact", .str finding.impact),
        ("source", .str ((source.map numberLines).getD ""))])

/-- The first message of a conversation. -/
def firstMessage (finding : ConfirmedFinding) (source : Option String) : FixMessage :=
  { role := "user", content := fixUserPayload ctx finding source }

/-- `proposeFixWithLlm`. -/
def proposeFixWithLlm (finding : ConfirmedFinding) (source : Option String) :
    FixProgram (Option LlmProposal) := do
  let system ← resolveFixSystemPrompt
  match ← Program.attempt (askFix (.complete
      { system, messages := [firstMessage ctx finding source], withTools := false })) with
  | .error (_ : Err) => return none
  | .ok response =>
    let interpreted := interpretFixResponse ctx response.content source
    return some
      { fixedSource := interpreted.fixedSource, rationale := interpreted.rationale, model := response.model }

/-- A tool call, executed: only `read_file` is. -/
def executeToolCall (call : FixToolCall) : FixProgram FixMessage := do
  if call.name = "read_file" then
    let path :=
      match call.input.property "path" with
      | some (.str path) => path
      | _ => ""
    let source ← if path = "" then pure none else askFix (.readSource path)
    return { role := "tool", content := source.getD s!"(file not found or unreadable: {path})"
             toolCallId := some call.id, name := some call.name }
  else
    return { role := "tool", content := s!"(unsupported tool: {call.name})"
             toolCallId := some call.id, name := some call.name }

/-- `executeToolCalls`. -/
def executeToolCalls : List FixToolCall → FixProgram (List FixMessage)
  | [] => return []
  | call :: calls => do
    let message ← executeToolCall call
    return message :: (← executeToolCalls calls)

/-- `CheapOracleResult`. -/
structure CheapOracleResult where
  applies : Bool
  failsPrePatch : Bool
  passesPostPatch : Bool

/-- `cheapPatchOracle`. -/
def cheapPatchOracle (original patch : String) (vulnerable : String → Bool) :
    Except Err CheapOracleResult :=
  (ctx.diff.applyPatch original patch).map fun applied =>
    { applies := applied.isSome, failsPrePatch := vulnerable original
      passesPostPatch := applied.any fun source => !vulnerable source }

/-- `agentFeedback`. -/
def agentFeedback (issue : Option FixIssue) (oracle : Option CheapOracleResult) : String :=
  match issue, oracle with
  | some .unparseable, _ =>
    "Your reply was not valid JSON. Return ONLY minified JSON of the form " ++
      "\x7b\"edits\":[\x7b\"startLine\":<n>,\"endLine\":<n>,\"replacement\":\"<...>\"\x7d],\"rationale\":\"...\"\x7d."
  | some .invalidEdits, _ =>
    "Your edits were structurally invalid — an out-of-range startLine/endLine, a malformed " ++
      "entry, or two overlapping ranges. Re-read the numbered source and return a corrected " ++
      "edits list: each entry's startLine/endLine must be a 1-based, in-range, inclusive pair " ++
      "referring to the ORIGINAL line numbers, and ranges must not overlap."
  | none, none =>
    "Your reply had no usable \"edits\". Return ONLY minified JSON " ++
      "\x7b\"edits\":[\x7b\"startLine\":<n>,\"endLine\":<n>,\"replacement\":\"...\"\x7d],\"rationale\":\"...\"\x7d that " ++
      "removes the vulnerability."
  | none, some oracle =>
    if !oracle.applies then
      "Your edits did not produce a patch that applies cleanly to the original file. Re-check " ++
        "your line ranges against the ORIGINAL numbered source (they must match exactly) and " ++
        "try again."
    else if !oracle.failsPrePatch then
      "The vulnerability check did not detect the vulnerable pattern in the ORIGINAL file — " ++
        "re-read the finding and target the exact vulnerable lines."
    else
      "Your fix did NOT remove the vulnerability (the vulnerable pattern is still present after " ++
        "your edit). Return a new edits list that changes the necessary lines so the pattern is gone, " ++
        "changing as little else as possible."

/-- A conversation, with the last proposal and the attempts made. -/
structure AgentState where
  messages : List FixMessage
  last : Option LlmProposal := none
  fixIters : ℕ := 0

/-- The conversation ends with what it has. -/
def AgentState.result (s : AgentState) : Option LlmProposal × ℕ := (s.last, max 1 s.fixIters)

/-- An attempt is judged: it is accepted, or there is something to tell the model. -/
def judgeProposal (finding : ConfirmedFinding) (original : Option String) (strategy : Option FixStrategy)
    (interpreted : InterpretedFixResponse) : Except Err (Option String) :=
  match interpreted.issue with
  | some issue => .ok (some (agentFeedback (some issue) none))
  | none =>
    match strategy, original with
    | some strategy, some original =>
      match interpreted.fixedSource.filter fun fixed => fixed ≠ "" ∧ fixed ≠ original with
      | none => .ok (some (agentFeedback none none))
      | some fixed =>
        (cheapPatchOracle ctx original (buildUnifiedDiff ctx finding.location.file original fixed)
          strategy.vulnerable).map fun oracle =>
            if oracle.applies && oracle.failsPrePatch && oracle.passesPostPatch then none
            else some (agentFeedback none (some oracle))
    | _, _ => .ok none

/-- The loop of `proposeFixWithAgent`, with the attempts and the rounds of tools that are left. -/
def agentTurns (finding : ConfirmedFinding) (original : Option String) (strategy : Option FixStrategy)
    (system : String) (withTools : Bool) :
    ℕ → ℕ → AgentState → FixProgram (Option LlmProposal × ℕ)
  | 0, _, state => return state.result
  | attempts + 1, toolRounds, state => do
    match ← Program.attempt (askFix (.complete { system, messages := state.messages, withTools })) with
    | .error (_ : Err) => return state.result
    | .ok response =>
      match toolRounds with
      | toolRounds + 1 =>
        if response.stopReason = "tool_use" ∧ response.toolCalls ≠ [] then
          let results ← executeToolCalls response.toolCalls
          let asked : FixMessage :=
            { role := "assistant", content := response.content, toolCalls := response.toolCalls }
          agentTurns finding original strategy system withTools (attempts + 1) toolRounds
            { state with messages := state.messages ++ asked :: results }
        else propose response attempts (toolRounds + 1) state
      | 0 => propose response attempts 0 state
where
  propose (response : FixResponse) (attempts toolRounds : ℕ) (state : AgentState) := do
    let interpreted := interpretFixResponse ctx response.content original
    let proposed : AgentState :=
      { messages := state.messages ++ [{ role := "assistant", content := response.content }]
        last := some
          { fixedSource := interpreted.fixedSource, rationale := interpreted.rationale
            model := response.model }
        fixIters := state.fixIters + 1 }
    match ← Program.ofExcept (judgeProposal ctx finding original strategy interpreted) with
    | none => return proposed.result
    | some feedback =>
      agentTurns finding original strategy system withTools attempts toolRounds
        { proposed with messages := proposed.messages ++ [{ role := "user", content := feedback }] }

/-- `proposeFixWithAgent`. -/
def proposeFixWithAgent (finding : ConfirmedFinding) (original : Option String)
    (strategy : Option FixStrategy) (maxIterations maxToolCalls : ℕ) :
    FixProgram (Option LlmProposal × ℕ) := do
  let resolvedSystem ← resolveFixSystemPrompt
  let withTools := decide (0 < maxToolCalls)
  let system := if withTools then resolvedSystem ++ agentToolSuffix else resolvedSystem
  agentTurns ctx finding original strategy system withTools (max 1 maxIterations) maxToolCalls
    { messages := [firstMessage ctx finding original] }

/-! ## Fixes -/

/-- How a fix came about. -/
inductive FixVia where
  | llm
  | deterministic
  | advisory

/-- The token of a way. -/
def FixVia.name : FixVia → String
  | llm => "llm"
  | deterministic => "deterministic"
  | advisory => "advisory"

/-- `composeRationale`. -/
def composeRationale (strategy : FixStrategy) (via : FixVia) (llmRationale : Option String) : String :=
  match via with
  | .llm => strategy.rationale ++ " (Model-proposed patch, deterministically validated.)"
  | _ =>
    let base := strategy.rationale ++ " (Deterministic patch.)"
    match llmRationale.filter (· ≠ "") with
    | some note => base ++ " Model note: " ++ note
    | none => base

/-- The endings that `proofTestPath` takes off a file. -/
def scriptEndings : List String := [".tsx", ".ts", ".jsx", ".js"]

/-- `proofTestPath`. -/
def proofTestPath (filePath : String) : String :=
  let ending := scriptEndings.find? fun e => e.toList.isSuffixOf (filePath.toList.map Char.toLower)
  String.ofList (filePath.toList.take (filePath.toList.length - ((ending.map (·.toList.length)).getD 0))) ++
    ".proof-of-fix.test.ts"

example : proofTestPath "src/a.TSX" = "src/a.proof-of-fix.test.ts" := by decide +kernel

/-- `advisoryProofTestCode`. -/
def advisoryProofTestCode (filePath : String) (finding : ConfirmedFinding) : String :=
  let subject := s!"{finding.category.name} @ {filePath}"
  "\n".intercalate
    ["import \x7b describe \x7d from \"vitest\";", "",
      "// ADVISORY: no auto-validated fix was produced. A human must implement the",
      s!"// remediation for {finding.category.name} at {filePath} and replace this placeholder",
      "// with a real proof-of-fix test (failing before the change, passing after).",
      "describe.todo(" ++ ctx.stringify (.str ("proof-of-fix (manual): " ++ subject)) ++ ");", ""]

/-- `FixSchema` accepts. -/
def Fix.valid (fix : Fix) : Bool :=
  fix.id ≠ "" && fix.scanId ≠ "" && fix.clientId ≠ "" && fix.confirmedFindingId ≠ ""

/-- `assembleFix`, unless the schema throws. -/
def assembleFix (finding : ConfirmedFinding) (index : ℕ) (patch rationale : String) (test : ProofOfFixTest)
    (risk : RiskDecision) : Except Err Fix :=
  let fix : Fix :=
    { id := ctx.makeId finding index, scanId := finding.scanId, clientId := finding.clientId
      confirmedFindingId := finding.id, patch, rationale, proofOfFixTest := test
      riskClass := risk.riskClass, riskClassRationale := risk.rationale, createdAt := ctx.now finding }
  if fix.valid then .ok fix else .error (.other "ZodError")

/-- `AuditMeta`. -/
structure FixAuditMeta where
  validated : Bool
  via : FixVia
  changedLines : ℕ
  model : Option String
  iterations : ℕ

/-- `generateAdvisory`. -/
def generateAdvisory (finding : ConfirmedFinding) (index : ℕ) (llm : Option LlmProposal)
    (sourceAvailable : Bool) : Except Err Fix :=
  let filePath := finding.location.file
  let risk := classifyConfirmedFindingRisk finding
    { patch := "", changedFiles := [filePath], changedLines := 0, uncertain := true }
    ctx.humanRequiredCategoriesAlways
  let rationale := " ".intercalate
    ((["No auto-validated mechanical fix was produced for " ++ finding.category.name ++ " at " ++ filePath ++
        (if sourceAvailable then "" else " (source unavailable)") ++ ".",
      "This finding requires manual remediation by an engineer and is recorded as human-required."] ++
      (((llm.bind (·.rationale)).filter (· ≠ "")).map ("Model guidance: " ++ ·)).toList))
  assembleFix ctx finding index "" rationale
    { filePath := some (proofTestPath filePath), framework := some "vitest"
      code := advisoryProofTestCode ctx filePath finding, failsPrePatch := false, passesPostPatch := false }
    risk

/-- A fixed source and the way it came about. -/
structure FixCandidate where
  fixedSource : String
  via : FixVia

/-- The candidates of `generateOne`: what the model proposed, then what the strategy makes. -/
def fixCandidates (strategy : FixStrategy) (original : String) (llm : Option LlmProposal) :
    List FixCandidate :=
  let proposed := (llm.bind (·.fixedSource)).filter fun fixed => fixed ≠ "" ∧ fixed ≠ original
  (proposed.map fun fixedSource => { fixedSource, via := .llm }).toList ++
    ((strategy.apply original).map fun fixedSource => { fixedSource, via := .deterministic }).toList

/-- The validation of a candidate, in a container where that is enabled. -/
def validateCandidate (finding : ConfirmedFinding) (proofTestCode original patch : String) :
    FixProgram PatchValidation :=
  match ctx.containerProof with
  | some targetRepoDir =>
    validatePatchWithContainerReplay ctx finding targetRepoDir finding.location.file proofTestCode original
      patch
  | none => validatePatch ctx finding.location.file proofTestCode original patch

/-- The fix of a candidate that is validated. -/
def candidateFix (finding : ConfirmedFinding) (index : ℕ) (strategy : FixStrategy)
    (llm : Option LlmProposal) (via : FixVia) (proofTestCode patch : String) (validation : PatchValidation) :
    Except Err Fix :=
  let filePath := finding.location.file
  assembleFix ctx finding index patch (composeRationale strategy via (llm.bind (·.rationale)))
    { filePath := some (proofTestPath filePath), framework := some strategy.testFramework
      code := proofTestCode, failsPrePatch := validation.failsPrePatch
      passesPostPatch := validation.passesPostPatch }
    (classifyConfirmedFindingRisk finding
      { patch, changedFiles := [filePath], changedLines := validation.changedLines, uncertain := false }
      ctx.humanRequiredCategoriesAlways)

/-- The loop of `generateOne` over the candidates: the first one that is validated is the fix. -/
def tryCandidates (finding : ConfirmedFinding) (index : ℕ) (strategy : FixStrategy) (original : String)
    (llm : Option LlmProposal) (iterations : ℕ) :
    List FixCandidate → FixProgram (Option (Fix × FixAuditMeta))
  | [] => return none
  | candidate :: rest => do
    let proofTestCode := strategy.proofTestCode finding.location.file finding
    let patch := buildUnifiedDiff ctx finding.location.file original candidate.fixedSource
    let validation ← validateCandidate ctx finding proofTestCode original patch
    if validation.applies ∧ validation.failsPrePatch ∧ validation.passesPostPatch then
      let fix ← Program.ofExcept
        (candidateFix ctx finding index strategy llm candidate.via proofTestCode patch validation)
      return some
        (fix, { validated := true, via := candidate.via, changedLines := validation.changedLines
                model := llm.map (·.model), iterations })
    else tryCandidates finding index strategy original llm iterations rest

/-- The model is asked, once or in the loop. -/
def proposeFix (finding : ConfirmedFinding) (original : Option String) (strategy : Option FixStrategy) :
    FixProgram (Option LlmProposal × ℕ) :=
  match ctx.agentLoop with
  | some (maxIterations, maxToolCalls) =>
    proposeFixWithAgent ctx finding original strategy maxIterations maxToolCalls
  | none => do return (← proposeFixWithLlm ctx finding original, 1)

/-- The part of `generateOne` for a source that could be read and a strategy there is. -/
def mechanicalFix (finding : ConfirmedFinding) (index : ℕ) (original : Option String)
    (strategy : Option FixStrategy) (llm : Option LlmProposal) (iterations : ℕ) :
    FixProgram (Option (Fix × FixAuditMeta)) :=
  match original, strategy with
  | some original, some strategy =>
    tryCandidates ctx finding index strategy original llm iterations (fixCandidates strategy original llm)
  | _, _ => return none

/-- `generateOne`. -/
def generateOne (finding : ConfirmedFinding) (index : ℕ) : FixProgram (Fix × FixAuditMeta) := do
  let original ← askFix (.readSource finding.location.file)
  let strategy := ctx.pickStrategy finding.category finding.location.file
  let (llm, iterations) ← proposeFix ctx finding original strategy
  match ← mechanicalFix ctx finding index original strategy llm iterations with
  | some generated => return generated
  | none =>
    let fix ← Program.ofExcept (generateAdvisory ctx finding index llm original.isSome)
    return (fix, { validated := false, via := .advisory, changedLines := 0, model := llm.map (·.model)
                   iterations })

/-- A text in metadata, where there is one. -/
def textOrNull (text : Option String) : JsValue :=
  match text with
  | some text => .str text
  | none => .null

/-- `auditFixGenerated`. -/
def fixGeneratedInput (finding : ConfirmedFinding) (fix : Fix) (generated : FixAuditMeta) : AuditInput :=
  let riskClass := match fix.riskClass with
    | .autoEligible => "auto-eligible"
    | .humanRequired => "human-required"
  { clientId := fix.clientId, scanId := some fix.scanId, actor := { type := .agent, id := "montr-fix" }
    action := "fix.generated", targetType := some "fix", targetId := some fix.id
    summary := s!"Generated {riskClass} fix for {finding.category.name} at {finding.location.file}"
    metadata := some
      [("category", .str finding.category.name), ("riskClass", .str riskClass),
        ("filePath", .str finding.location.file), ("validated", .bool generated.validated),
        ("via", .str generated.via.name), ("changedLines", .num generated.changedLines),
        ("framework", textOrNull fix.proofOfFixTest.framework), ("model", textOrNull generated.model),
        ("iterations", .num generated.iterations)] }

/-- The loop of `generateFixes`, from the finding with an index on. -/
def generateFrom : List ConfirmedFinding → ℕ → FixProgram (List Fix)
  | [], _ => return []
  | finding :: rest, index => do
    let (fix, generated) ← generateOne ctx finding index
    if ctx.audit then
      askFix (.auditAppend (fixGeneratedInput finding fix generated))
    return fix :: (← generateFrom rest (index + 1))

/-- `generateFixes`. -/
def generateFixes (confirmed : List ConfirmedFinding) : FixProgram (List Fix) := generateFrom ctx confirmed 0

end Generate

end MontrSecure
