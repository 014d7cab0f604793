import MontrSecure.Api.Http
import MontrSecure.Async.Asking
import MontrSecure.Confirm.Heuristics

/-!
# Pull requests for fixes

`packages/report/src/auto-fix.ts` and `gate.ts`: which fixes may become pull requests, the plan of one for each
fix or of one for all of them, and the loop that opens what is planned. `buildReport` opens first and assembles
the report afterwards.
-/

namespace MontrSecure

open Async

/-! ## The gate -/

/-- `PrGateReason`. -/
inductive PrGateReason where
  | ok
  | autoApplyDisabled
  | gateNotPassed
  | notAutoEligible
  deriving DecidableEq

/-- The token of a reason. -/
def PrGateReason.name : PrGateReason → String
  | ok => "ok"
  | autoApplyDisabled => "auto-apply-disabled"
  | gateNotPassed => "gate-not-passed"
  | notAutoEligible => "not-auto-eligible"

/-- `PrGateContext`. -/
structure PrGateContext where
  autoApply : Bool
  gateState : GateState

/-- `isGatePassed`. -/
def isGatePassed (gateState : GateState) : Bool := gateState ∈ [GateState.autoApproved, .approved]

/-- `prGateDecision`; the fix is eligible when the reason is `ok`. -/
def prGateDecision (ctx : PrGateContext) (fix : Fix) : PrGateReason :=
  if !ctx.autoApply then .autoApplyDisabled
  else if fix.riskClass ≠ .autoEligible then .notAutoEligible
  else if !isGatePassed ctx.gateState then .gateNotPassed
  else .ok

/-- `assertPrGate`. -/
def assertPrGate (ctx : PrGateContext) (fix : Fix) : Except Err Unit :=
  match prGateDecision ctx fix with
  | .ok => .ok ()
  | reason =>
    .error (.montr .gateNotPassed s!"Fix {fix.id} is not permitted to open a PR: {reason.name}" false)

/-! ## Plans -/

/-- A letter, a digit, a dot, an underscore, a slash or a dash. -/
def isSlugChar (c : Char) : Bool := c.isAlphanum || c ∈ ['.', '_', '/', '-']

/-- Runs of other characters are dashes; whether such a run is under way. -/
def dashes : Bool → List Char → List Char
  | _, [] => []
  | inRun, c :: rest =>
    if isSlugChar c then c :: dashes false rest
    else if inRun then dashes true rest
    else '-' :: dashes true rest

/-- `slug`. -/
def slug (value : String) : String :=
  let trimmed := ((((dashes false value.toList).dropWhile (· = '-')).reverse).dropWhile (· = '-')).reverse
  if trimmed = [] then "fix" else String.ofList trimmed

example : slug " cf_live 1#2 " = "cf_live-1-2" := by decide +kernel

/-- `PrStrategy`. -/
inductive PrStrategy where
  | perFix
  | grouped

/-- `AutoFixPrPlan`. -/
structure AutoFixPrPlan where
  scanId : ScanId
  clientId : ClientId
  provider : VcsProvider
  branch : String
  baseBranch : String
  title : String
  bodySummary : String
  fixIds : List EntityId
  patch : String
  prId : EntityId

/-- `AutoFixFlowInput`, with the provider of its opener, if there is one. -/
structure AutoFixFlowInput where
  scan : Scan
  confirmed : List ConfirmedFinding
  fixes : List Fix
  autoApply : Bool
  opener : Option VcsProvider := none
  prStrategy : PrStrategy := .perFix
  baseBranch : Option String := none

/-- An OWASP category with its title. -/
def OwaspId.titled : OwaspId → String
  | a01 => "A01:2021 Broken Access Control"
  | a02 => "A02:2021 Cryptographic Failures"
  | a03 => "A03:2021 Injection"
  | a04 => "A04:2021 Insecure Design"
  | a05 => "A05:2021 Security Misconfiguration"
  | a06 => "A06:2021 Vulnerable and Outdated Components"
  | a07 => "A07:2021 Identification and Authentication Failures"
  | a08 => "A08:2021 Software and Data Integrity Failures"
  | a09 => "A09:2021 Security Logging and Monitoring Failures"
  | a10 => "A10:2021 Server-Side Request Forgery (SSRF)"

/-- `renderFixSection`. -/
def renderFixSection (fix : Fix) (finding : Option ConfirmedFinding) : String :=
  let tick := String.singleton (Char.ofNat 96)
  let fence := tick ++ tick ++ tick
  let heading :=
    match finding with
    | some finding =>
      let c := Confirm.categoryTaxonomy finding.category
      let cwe := ", ".intercalate (if finding.cwe ≠ [] then finding.cwe else c.cwe)
      [s!"### {finding.title}",
        s!"- **Severity:** {finding.severity.token}  •  **Exposure:** {finding.exposure.token}  •  " ++
          s!"**{c.owasp.titled}**  •  {cwe}",
        s!"- **Location:** {tick}{finding.location.file}:{finding.location.line}{tick}",
        s!"- **Impact:** {finding.impact}"]
    | none => [s!"### Fix {fix.id}"]
  let test := fix.proofOfFixTest
  let framework := test.framework.getD "test"
  "\n".intercalate
    (heading ++
      ["", fix.rationale, "",
        s!"**Proof-of-fix test** ({framework}): fails before this patch, passes after."] ++
      ((test.filePath.filter (· ≠ "")).map fun path => s!"\n{tick}{path}{tick}:").toList ++
      ["\n" ++ fence ++ (if test.framework = some "vitest" then "ts" else ""), test.code, fence])

/-- `buildPrBody`. -/
def buildPrBody (fixes : List Fix) (findingsById : EntityId → Option ConfirmedFinding) : String :=
  let one := fixes.length = 1
  let header := "\n".intercalate
    ["## Montr Secure — automated security fix", "",
      s!"This PR contains {fixes.length} **auto-eligible** fix" ++ (if one then "" else "es") ++
        " for confirmed, proven-exploitable finding" ++ (if one then "" else "s") ++
        ". Each carries a proof-of-fix test.",
      "",
      "> ⛔ Auth/session/crypto/access-control fixes are **human-required** and are NOT auto-opened — " ++
        "they appear as recommendations in the Montr report, never here.",
      "", "---", ""]
  let sections := "\n\n---\n\n".intercalate
    (fixes.map fun f => renderFixSection f (findingsById f.confirmedFindingId))
  s!"{header}{sections}\n"

section Flow

variable (input : AutoFixFlowInput)

/-- The gate of a flow. -/
def AutoFixFlowInput.gate : PrGateContext := { autoApply := input.autoApply, gateState := input.scan.gateState }

/-- `findingsById`: of findings with one id the last one counts. -/
def AutoFixFlowInput.findingsById (id : EntityId) : Option ConfirmedFinding :=
  input.confirmed.reverse.find? (·.id = id)

/-- `fixById`. -/
def AutoFixFlowInput.fixById (id : EntityId) : Option Fix := input.fixes.reverse.find? (·.id = id)

/-- The fixes that may become pull requests. -/
def AutoFixFlowInput.eligible : List Fix := input.fixes.filter fun f => prGateDecision input.gate f = .ok

/-- `resolveProvider`. -/
def resolveProvider : VcsProvider := input.opener.getD .github

/-- `resolveBaseBranch`. -/
def resolveBaseBranch : String := input.baseBranch.getD input.scan.branch

/-- The plan of one pull request for all fixes. -/
def groupedPlan (eligible : List Fix) : AutoFixPrPlan :=
  let n := eligible.length
  { scanId := input.scan.id, clientId := input.scan.clientId, provider := resolveProvider input
    branch := "montr/auto-fix/" ++ slug input.scan.id, baseBranch := resolveBaseBranch input
    title := s!"Montr Secure: fix {n} confirmed vulnerabilit" ++ (if n = 1 then "y" else "ies")
    bodySummary := buildPrBody eligible input.findingsById, fixIds := eligible.map (·.id)
    patch := "\n".intercalate (eligible.map (·.patch)), prId := s!"pr_{input.scan.id}" }

/-- The plan of a pull request for one fix. -/
def fixPlan (fix : Fix) : AutoFixPrPlan :=
  let subject := ((input.findingsById fix.confirmedFindingId).map (·.title)).getD fix.confirmedFindingId
  { scanId := input.scan.id, clientId := input.scan.clientId, provider := resolveProvider input
    branch := "montr/fix/" ++ slug input.scan.id ++ "/" ++ slug fix.confirmedFindingId
    baseBranch := resolveBaseBranch input, title := "Montr Secure: fix " ++ subject
    bodySummary := buildPrBody [fix] input.findingsById, fixIds := [fix.id], patch := fix.patch
    prId := "pr_" ++ input.scan.id ++ "_" ++ slug fix.id }

/-- `planAutoFixPullRequests`. -/
def planAutoFixPullRequests : List AutoFixPrPlan :=
  if input.eligible.isEmpty then []
  else
    match input.prStrategy with
    | .grouped => [groupedPlan input input.eligible]
    | .perFix => input.eligible.map (fixPlan input)

end Flow

/-! ## Opening -/

/-- What the last layer awaits. -/
inductive ReportOp where
  /-- What is read before the pull requests: the confirmed findings and the fixes. -/
  | prepare
  /-- `PullRequestOpener.open`. -/
  | openPr (plan : AutoFixPrPlan)
  | auditAppend (input : AuditInput)
  /-- What comes after the pull requests: the report. -/
  | assemble (prs : List PullRequest)
  /-- `sleep(ms, signal)`, the backoff before a retry. -/
  | sleep (ms : ℕ)

/-- What an operation resolves to. -/
abbrev ReportOp.Val : ReportOp → Type
  | prepare => List ConfirmedFinding × List Fix
  | openPr _ => PullRequest
  | auditAppend _ => Unit
  | assemble _ => Unit
  | sleep _ => Unit

/-- How an operation is answered: it resolves or it rejects. -/
abbrev ReportOp.Ans (op : ReportOp) : Type := Except Err op.Val

/-- What the last layer shares with its process: why its signal is aborted, if it is. -/
structure ReportMemory where
  aborted : Option Err := none

/-- An asynchronous action of the last layer. -/
abbrev ReportProgram (α : Type) : Type := Program ReportOp ReportOp.Ans ReportMemory Err α

/-- Await an operation; its rejection is thrown. -/
def askReport (op : ReportOp) : ReportProgram op.Val := Program.ask op

/-- The event of a pull request that is opened. -/
def prOpenedInput (input : AutoFixFlowInput) (plan : AutoFixPrPlan) (pr : PullRequest) : AuditInput :=
  let provider := match plan.provider with
    | .github => "github"
    | .gitlab => "gitlab"
  { clientId := input.scan.clientId, scanId := some input.scan.id
    actor := { type := .agent, id := "montr-report" }, action := "fix.pr_opened"
    targetType := some "pull_request", targetId := some pr.id
    summary :=
      s!"Opened {provider} PR for {plan.fixIds.length} auto-eligible fix(es) on {plan.branch}"
    metadata := some
      [("provider", .str provider), ("branch", .str plan.branch), ("baseBranch", .str plan.baseBranch),
        ("fixIds", .arr (plan.fixIds.map .str)),
        ("prNumber", (pr.number.map fun n => JsValue.num n).getD .undefined),
        ("prUrl", (pr.url.map JsValue.str).getD .undefined)] }

/-- What is checked before a pull request is opened: the gate, again, and that it has a branch of its own. -/
def checkPlan (input : AutoFixFlowInput) (plan : AutoFixPrPlan) : Except Err Unit := do
  (plan.fixIds.filterMap input.fixById).forM fun fix => assertPrGate input.gate fix
  if plan.branch = plan.baseBranch then
    throw (.other s!"refusing to open PR: head branch equals base branch ({plan.branch})")

/-- The loop of `openAutoFixPullRequests`, over the plans that are left. -/
def openPlans (input : AutoFixFlowInput) : List AutoFixPrPlan → ReportProgram (List PullRequest)
  | [] => return []
  | plan :: plans => do
    Program.ofExcept (checkPlan input plan)
    let pr ← askReport (.openPr plan)
    askReport (.auditAppend (prOpenedInput input plan pr))
    return pr :: (← openPlans input plans)

/-- `openAutoFixPullRequests`. -/
def openAutoFixPullRequests (input : AutoFixFlowInput) : ReportProgram (List PullRequest) :=
  match input.opener with
  | none => return []
  | some _ => openPlans input (planAutoFixPullRequests input)

/-- What the runner of the last layer is given, besides what it reads. -/
structure ReportDeps where
  scan : Scan
  autoApply : Bool
  opener : Option VcsProvider := none
  prStrategy : PrStrategy := .perFix
  baseBranch : Option String := none

/-- The flow of an attempt. -/
def ReportDeps.flow (deps : ReportDeps) (confirmed : List ConfirmedFinding) (fixes : List Fix) :
    AutoFixFlowInput :=
  { scan := deps.scan, confirmed, fixes, autoApply := deps.autoApply, opener := deps.opener
    prStrategy := deps.prStrategy, baseBranch := deps.baseBranch }

/-- One attempt of the last layer: what it reads, then `buildReport`. -/
def runReport (deps : ReportDeps) : ReportProgram (List PullRequest) := do
  let (confirmed, fixes) ← askReport .prepare
  let prs ← openAutoFixPullRequests (deps.flow confirmed fixes)
  askReport (.assemble prs)
  return prs

end MontrSecure
