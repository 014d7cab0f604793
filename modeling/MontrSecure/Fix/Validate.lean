import MontrSecure.Api.Http
import MontrSecure.Async.Asking
import MontrSecure.Correlation.Scoring
import MontrSecure.Fix.Risk

/-!
# The validation of patches

`packages/fix/src/patch.ts` and `container-validate.ts`: a patch counts when the proof-of-fix check of its
finding fails on the source and passes on the patched one. The check is a test, or the exploit itself, replayed
in a container. The library of diffs and the strategies are parameters.
-/

namespace MontrSecure

open Async

/-! ## What is asked -/

/-- `LLMToolCall`. -/
structure FixToolCall where
  id : String
  name : String
  input : Json

/-- A message of a conversation. -/
structure FixMessage where
  role : String
  content : String
  toolCalls : List FixToolCall := []
  toolCallId : Option String := none
  name : Option String := none

/-- `LLMRequest`, of `buildFixRequest`; with tools the reply need not be JSON. -/
structure FixRequest where
  system : String
  messages : List FixMessage
  withTools : Bool

/-- `LLMResponse`, without its cost. -/
structure FixResponse where
  content : String
  model : String
  stopReason : String
  toolCalls : List FixToolCall := []

/-- `ProofRunResult`. -/
structure ProofRunResult where
  passed : Bool
  executionError : Option String := none

/-- What the generation of fixes asks. -/
inductive FixOp where
  | readSource (path : String)
  | resolvePrompt (name : String)
  | complete (request : FixRequest)
  /-- `runVitestOnce`: a proof-of-fix test, run on a source of a file. -/
  | proofRun (filePath proofTestCode source : String)
  /-- `runContainerPhase`: an exploit, replayed with a source of a file; whether it succeeded. -/
  | containerPhase (filePath source : String) (exchange : Json)
  | auditAppend (input : AuditInput)

/-- What an operation resolves to. -/
abbrev FixOp.Val : FixOp → Type
  | readSource _ => Option String
  | resolvePrompt _ => Option String
  | complete _ => FixResponse
  | proofRun .. => ProofRunResult
  | containerPhase .. => Bool
  | auditAppend _ => Unit

/-- How an operation is answered: it resolves or it rejects. -/
abbrev FixOp.Ans (op : FixOp) : Type := Except Err op.Val

/-- An asynchronous action of the generation; it keeps nothing between two awaits but its own state. -/
abbrev FixProgram (α : Type) : Type := Program FixOp FixOp.Ans Unit Err α

/-- Await an operation; its rejection is thrown. -/
def askFix (op : FixOp) : FixProgram op.Val := Program.ask op

/-! ## Parameters -/

/-- The library of diffs. A patch that is read is given by the lines of its hunks, file by file. -/
structure DiffLib where
  createTwoFilesPatch : (oldFile newFile oldText newText : String) → String
  applyPatch : (source patch : String) → Except Err (Option String)
  parsePatch : (patch : String) → Except Err (List (List (List String)))

/-- `FixStrategy`. -/
structure FixStrategy where
  vulnerable : String → Bool
  apply : String → Option String
  rationale : String
  testFramework : String
  proofTestCode : String → ConfirmedFinding → String

/-- `FixGenerationContext`, with what it is run with. -/
structure FixGenerationContext where
  clientId : ClientId
  scanId : ScanId
  diff : DiffLib
  pickStrategy : Category → String → Option FixStrategy
  parseJson : String → Option Json
  stringify : Json → String
  audit : Bool := true
  humanRequiredCategoriesAlways : List Category := []
  now : ConfirmedFinding → IsoDateTime
  makeId : ConfirmedFinding → ℕ → EntityId := fun finding _ => s!"fix_{finding.id}"
  /-- `containerProof`, where it is enabled: its directory. -/
  containerProof : Option (Option String) := none
  /-- `agentLoop`, where it is enabled: its iterations and tool calls. -/
  agentLoop : Option (ℕ × ℕ) := none

section Generate

variable (ctx : FixGenerationContext)

/-! ## Patches -/

/-- `buildUnifiedDiff`. -/
def buildUnifiedDiff (filePath original fixed : String) : String :=
  ctx.diff.createTwoFilesPatch ("a/" ++ filePath) ("b/" ++ filePath) original fixed

/-- A line of a hunk that is added or removed. -/
def isChangedLine (line : String) : Bool := line.toList.head? = some '+' || line.toList.head? = some '-'

/-- `countChangedLines`. -/
def countChangedLines (patch : String) : Except Err ℕ :=
  if patch = "" then .ok 0
  else (ctx.diff.parsePatch patch).map fun files => (files.flatten.flatten.filter isChangedLine).length

/-- `PatchValidation`. -/
structure PatchValidation where
  applies : Bool
  appliedSource : Option String
  failsPrePatch : Bool
  passesPostPatch : Bool
  changedLines : ℕ
  executionError : Option String := none

/-- What the runs before and after the patch say. -/
def proofVerdict (pre : ProofRunResult) (post : Option ProofRunResult) : Bool × Bool × Option String :=
  let errors := pre.executionError.toList ++ (post.bind (·.executionError)).toList
  if errors ≠ [] then (false, false, some (" | ".intercalate errors))
  else (!pre.passed, post.any (·.passed), none)

/-- `runProofOfFixTest`. -/
def runProofOfFixTest (filePath proofTestCode original : String) (appliedSource : Option String) :
    FixProgram (Bool × Bool × Option String) :=
  match appliedSource with
  | none => do
    let pre ← askFix (.proofRun filePath proofTestCode original)
    return proofVerdict pre none
  | some applied => do
    let pre ← askFix (.proofRun filePath proofTestCode original)
    let post ← askFix (.proofRun filePath proofTestCode applied)
    return proofVerdict pre (some post)

/-- The message of an error. -/
def Err.message : Err → String
  | .montr _ message _ => message
  | .other message => message

/-- `validatePatch`. -/
def validatePatch (filePath proofTestCode original patch : String) : FixProgram PatchValidation := do
  let appliedSource ← Program.ofExcept (ctx.diff.applyPatch original patch)
  let changedLines ← Program.ofExcept (countChangedLines ctx patch)
  match ← Program.attempt (runProofOfFixTest filePath proofTestCode original appliedSource) with
  | .ok (failsPrePatch, passesPostPatch, executionError) =>
    return { applies := appliedSource.isSome, appliedSource, failsPrePatch, passesPostPatch, changedLines,
             executionError }
  | .error (e : Err) =>
    return { applies := appliedSource.isSome, appliedSource, failsPrePatch := false, passesPostPatch := false,
             changedLines, executionError := some e.message }

/-- The exchange that is replayed: the last one of a live proof, when there is a checkout to build from. -/
def replayExchange (finding : ConfirmedFinding) (targetRepoDir : Option String) : Option Json :=
  match finding.proofArtifact.property "kind", finding.proofArtifact.property "transcript",
      targetRepoDir.filter (· ≠ "") with
  | some (.str "live"), some (.arr transcript), some _ => transcript.getLast?
  | _, _, _ => none

/-- `validatePatchWithContainerReplay`: what goes wrong with a container leaves the test. -/
def validatePatchWithContainerReplay (finding : ConfirmedFinding) (targetRepoDir : Option String)
    (filePath proofTestCode original patch : String) : FixProgram PatchValidation :=
  match replayExchange finding targetRepoDir with
  | none => validatePatch ctx filePath proofTestCode original patch
  | some exchange => do
    let appliedSource ← Program.ofExcept (ctx.diff.applyPatch original patch)
    let changedLines ← Program.ofExcept (countChangedLines ctx patch)
    match ← Program.attempt (askFix (.containerPhase filePath original exchange)) with
    | .error (_ : Err) => validatePatch ctx filePath proofTestCode original patch
    | .ok pre =>
      match appliedSource with
      | none =>
        return { applies := false, appliedSource := none, failsPrePatch := pre, passesPostPatch := false,
                 changedLines }
      | some applied =>
        match ← Program.attempt (askFix (.containerPhase filePath applied exchange)) with
        | .error (_ : Err) => validatePatch ctx filePath proofTestCode original patch
        | .ok post =>
          return { applies := true, appliedSource := some applied, failsPrePatch := pre,
                   passesPostPatch := !post, changedLines }

end Generate

end MontrSecure
