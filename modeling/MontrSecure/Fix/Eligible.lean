import MontrSecure.Async.Running
import MontrSecure.Fix.Generate

/-!
# Only validated fixes become eligible

Whatever the model replies and whatever a run of the generation is answered, a fix of the class that may be
applied automatically has passed every rule of the classifier, and its proof-of-fix check has failed before the
patch and passed after it.
-/

namespace MontrSecure

open Async Outcome

/-- What the generation has awaited. -/
abbrev FixTrace := Trace FixOp FixOp.Ans Unit

/-- The protocol that allows everything. -/
def anyFixRun : Protocol FixOp FixOp.Ans Unit where
  answers _ _ := True
  awaits _ _ _ _ := True
  ends _ _ _ := True

/-- An operation was resolved to a value. -/
def Answered (tr : FixTrace) (op : FixOp) (v : op.Val) : Prop :=
  (⟨(), op, .ok v⟩ : Await FixOp FixOp.Ans Unit) ∈ tr

theorem Answered.mono {tr tr' : FixTrace} {op : FixOp} {v : op.Val} (h : Answered tr op v)
    (hsuffix : tr <:+ tr') : Answered tr' op v :=
  hsuffix.subset h

/-- The proof-of-fix check has failed on one source of a file and passed on another: the test has, without an
error of its own, or the exploit has worked on the one and not on the other. -/
inductive ProvenFix (tr : FixTrace) (filePath code original applied : String) : Prop where
  | test (pre post : ProofRunResult) (hpre : Answered tr (.proofRun filePath code original) pre)
      (hpost : Answered tr (.proofRun filePath code applied) post) (hfails : pre.passed = false)
      (hpasses : post.passed = true) (hclean : pre.executionError = none ∧ post.executionError = none)
  | exploit (exchange : Json) (hpre : Answered tr (.containerPhase filePath original exchange) true)
      (hpost : Answered tr (.containerPhase filePath applied exchange) false)

theorem ProvenFix.mono {tr tr' : FixTrace} {filePath code original applied : String}
    (h : ProvenFix tr filePath code original applied) (hsuffix : tr <:+ tr') :
    ProvenFix tr' filePath code original applied := by
  cases h with
  | test pre post hpre hpost hfails hpasses hclean =>
    exact .test pre post (hpre.mono hsuffix) (hpost.mono hsuffix) hfails hpasses hclean
  | exploit exchange hpre hpost => exact .exploit exchange (hpre.mono hsuffix) (hpost.mono hsuffix)

section Eligible

variable (ctx : FixGenerationContext)

/-- A patch that was validated: it applies, and the check is proven on what it is applied to. -/
structure ValidatedPatch (tr : FixTrace) (filePath code original patch : String) (changedLines : ℕ) : Prop where
  counted : countChangedLines ctx patch = .ok changedLines
  proven : ∃ applied, ctx.diff.applyPatch original patch = .ok (some applied) ∧
    ProvenFix tr filePath code original applied

variable {ctx} {tr : FixTrace} {m₀ m : Unit} {filePath code original patch : String}

/-- What a validation says, when it says that a patch is valid. -/
def Sound (ctx : FixGenerationContext) (filePath code original patch : String) (tr : FixTrace)
    (v : PatchValidation) : Prop :=
  v.applies = true → v.failsPrePatch = true → v.passesPostPatch = true →
    ValidatedPatch ctx tr filePath code original patch v.changedLines

/-- A verdict of two runs that is good means that the first one failed and the second one passed. -/
theorem proofVerdict_good {pre : ProofRunResult} {post : Option ProofRunResult}
    (hfails : (proofVerdict pre post).1 = true) (hpasses : (proofVerdict pre post).2.1 = true) :
    pre.passed = false ∧ pre.executionError = none ∧
      ∃ p, post = some p ∧ p.passed = true ∧ p.executionError = none := by
  unfold proofVerdict at hfails hpasses
  dsimp only at hfails hpasses
  split at hfails
  · cases hfails
  · rename_i hnone
    rw [if_neg hnone] at hpasses
    obtain ⟨hpre, hpost⟩ := List.append_eq_nil_iff.mp (not_not.mp hnone)
    refine ⟨by simpa using hfails, Option.toList_eq_nil_iff.mp hpre, ?_⟩
    cases post with
    | none => cases hpasses
    | some p => exact ⟨p, rfl, hpasses, Option.toList_eq_nil_iff.mp hpost⟩

/-- The test is run on both sources; when the verdict is good, it is proven. -/
theorem follows_runProofOfFixTest (appliedSource : Option String) :
    (runProofOfFixTest filePath code original appliedSource m).Follows anyFixRun
      (fun tr' _ _ v => v.1 = true → v.2.1 = true →
        ∃ applied, appliedSource = some applied ∧ ProvenFix tr' filePath code original applied)
      (fun _ _ _ _ => True) tr m₀ := by
  cases appliedSource with
  | none =>
    refine follows_ask_bind _ trivial (fun pre m₁ _ => ?_) fun _ _ _ => trivial
    rw [Program.pure_apply, follows_ret]
    intro hfails hpasses
    obtain ⟨-, -, p, hp, -⟩ := proofVerdict_good hfails hpasses
    cases hp
  | some applied =>
    refine follows_ask_bind _ trivial (fun pre m₁ _ => ?_) fun _ _ _ => trivial
    refine follows_ask_bind _ trivial (fun post m₂ _ => ?_) fun _ _ _ => trivial
    rw [Program.pure_apply, follows_ret]
    intro hfails hpasses
    obtain ⟨hfailed, hcleanPre, p, hp, hpassed, hcleanPost⟩ := proofVerdict_good hfails hpasses
    rw [← Option.some.inj hp] at hpassed hcleanPost
    refine ⟨applied, rfl, .test pre post ?_ ?_ hfailed hpassed ⟨hcleanPre, hcleanPost⟩⟩
    · exact List.mem_cons_of_mem _ List.mem_cons_self
    · exact List.mem_cons_self

/-- A patch that the test validates is valid. -/
theorem follows_validatePatch :
    (validatePatch ctx filePath code original patch m).Follows anyFixRun
      (fun tr' _ _ v => Sound ctx filePath code original patch tr' v) (fun _ _ _ _ => True) tr m₀ := by
  unfold validatePatch
  refine follows_ofExcept_bind (fun appliedSource happlied => ?_) fun _ _ => trivial
  refine follows_ofExcept_bind (fun changedLines hcount => ?_) fun _ _ => trivial
  refine follows_attempt_bind ?_
  apply (follows_runProofOfFixTest appliedSource).mono
  · rintro tr' m₀' m' ⟨failsPrePatch, passesPostPatch, executionError⟩ hproven
    intro _ hfails hpasses
    obtain ⟨applied, rfl, hproof⟩ := hproven hfails hpasses
    exact ⟨hcount, applied, happlied, hproof⟩
  · -- An environment that fails proves nothing.
    intro tr' m₀' m' e _ _ hfails
    cases hfails

/-- A patch that the replay in a container validates is valid. -/
theorem follows_validatePatchWithContainerReplay (finding : ConfirmedFinding)
    (targetRepoDir : Option String) :
    (validatePatchWithContainerReplay ctx finding targetRepoDir filePath code original patch m).Follows
      anyFixRun (fun tr' _ _ v => Sound ctx filePath code original patch tr' v) (fun _ _ _ _ => True)
      tr m₀ := by
  unfold validatePatchWithContainerReplay
  cases replayExchange finding targetRepoDir with
  | none => exact follows_validatePatch
  | some exchange =>
    refine follows_ofExcept_bind (fun appliedSource happlied => ?_) fun _ _ => trivial
    refine follows_ofExcept_bind (fun changedLines hcount => ?_) fun _ _ => trivial
    refine follows_attempt_bind (follows_ask _ trivial (fun pre m₁ _ => ?_) fun _ _ _ => follows_validatePatch)
    cases appliedSource with
    | none =>
      intro happlies
      cases happlies
    | some applied =>
      refine follows_attempt_bind
        (follows_ask _ trivial (fun post m₂ _ => ?_) fun _ _ _ => follows_validatePatch)
      intro _ hpre hpost
      -- The exploit has worked before the patch and no longer works after it.
      have hworked : pre = true := hpre
      have hstopped : post = false := by simpa using hpost
      rw [hworked, hstopped]
      refine ⟨hcount, applied, happlied, .exploit exchange ?_ ?_⟩
      · exact List.mem_cons_of_mem _ List.mem_cons_self
      · exact List.mem_cons_self

theorem follows_validateCandidate (finding : ConfirmedFinding) :
    (validateCandidate ctx finding code original patch m).Follows anyFixRun
      (fun tr' _ _ v => Sound ctx finding.location.file code original patch tr' v) (fun _ _ _ _ => True)
      tr m₀ := by
  unfold validateCandidate
  cases ctx.containerProof with
  | some targetRepoDir => exact follows_validatePatchWithContainerReplay finding targetRepoDir
  | none => exact follows_validatePatch

/-! ## Fixes -/

/-- What a fix that may be applied automatically has behind it: a category that allows it, a patch of the source
that was read, small and away from auth, and the proof that it works. -/
structure AutoEligible (ctx : FixGenerationContext) (tr : FixTrace) (finding : ConfirmedFinding) (fix : Fix) :
    Prop where
  category : finding.category ∈ autoEligibleCategories ∧
    finding.category ∉ alwaysHumanRequiredCategories ∧ finding.category ∉ ctx.humanRequiredCategoriesAlways
  patch : ∃ original fixed changedLines, Answered tr (.readSource finding.location.file) (some original) ∧
    fix.patch = buildUnifiedDiff ctx finding.location.file original fixed ∧
    changedLines ≤ maxAutoChangedLines ∧
    ValidatedPatch ctx tr finding.location.file fix.proofOfFixTest.code original fix.patch changedLines
  verdict : fix.proofOfFixTest.failsPrePatch = true ∧ fix.proofOfFixTest.passesPostPatch = true
  noAuthPath : ¬isAuthPath finding.location.file
  noSharedModule : ¬isSharedModule finding.location.file
  noAuthApi : fix.patch ≠ "" → usesAuthCryptoApi fix.patch = false

/-- A fix is of a finding, and eligible only with all that. -/
def Guarded (ctx : FixGenerationContext) (tr : FixTrace) (finding : ConfirmedFinding) (fix : Fix) : Prop :=
  fix.confirmedFindingId = finding.id ∧ (fix.riskClass = .autoEligible → AutoEligible ctx tr finding fix)

variable {finding : ConfirmedFinding} {fix : Fix} {index : ℕ}

theorem Guarded.mono {tr' : FixTrace} (h : Guarded ctx tr finding fix) (hsuffix : tr <:+ tr') :
    Guarded ctx tr' finding fix := by
  refine ⟨h.1, fun hclass => ?_⟩
  obtain ⟨hcategory, ⟨original, fixed, changedLines, hread, hpatch, hfew, hcounted, applied, happlied, hproof⟩,
    hverdict, hpath, hshared, hapi⟩ := h.2 hclass
  exact ⟨hcategory, ⟨original, fixed, changedLines, hread.mono hsuffix, hpatch, hfew, hcounted, applied, happlied,
    hproof.mono hsuffix⟩, hverdict, hpath, hshared, hapi⟩

/-- What is assembled has the parts it was assembled of. -/
theorem assembleFix_eq {rationale : String} {test : ProofOfFixTest} {risk : RiskDecision}
    (h : assembleFix ctx finding index patch rationale test risk = .ok fix) :
    fix.confirmedFindingId = finding.id ∧ fix.patch = patch ∧ fix.proofOfFixTest = test ∧
      fix.riskClass = risk.riskClass := by
  unfold assembleFix at h
  dsimp only at h
  split at h
  · rw [← Except.ok.inj h]
    exact ⟨rfl, rfl, rfl, rfl⟩
  · cases h

/-- An advice is never eligible: the classifier is told that it is uncertain. -/
theorem guarded_of_generateAdvisory {llm : Option LlmProposal} {sourceAvailable : Bool}
    (h : generateAdvisory ctx finding index llm sourceAvailable = .ok fix) : Guarded ctx tr finding fix := by
  obtain ⟨hfinding, -, -, hclass⟩ := assembleFix_eq h
  refine ⟨hfinding, fun heligible => ?_⟩
  rw [hclass] at heligible
  have hmay := (classifyConfirmedFindingRisk_iff _ _ _).mp heligible
  exact absurd hmay.certain (by simp)

/-- The fix of a valid candidate is guarded. -/
theorem guarded_of_candidateFix {strategy : FixStrategy} {llm : Option LlmProposal} {via : FixVia}
    {fixed : String} {v : PatchValidation}
    (h : candidateFix ctx finding index strategy llm via code
      (buildUnifiedDiff ctx finding.location.file original fixed) v = .ok fix)
    (hread : Answered tr (.readSource finding.location.file) (some original))
    (hverdict : v.failsPrePatch = true ∧ v.passesPostPatch = true)
    (hvalid : ValidatedPatch ctx tr finding.location.file code original
      (buildUnifiedDiff ctx finding.location.file original fixed) v.changedLines) :
    Guarded ctx tr finding fix := by
  obtain ⟨hfinding, hpatch, htest, hclass⟩ := assembleFix_eq h
  refine ⟨hfinding, fun heligible => ?_⟩
  rw [hclass] at heligible
  have hmay := (classifyConfirmedFindingRisk_iff _ _ _).mp heligible
  have hfile : finding.location.file ∈ [finding.location.file] := List.mem_singleton_self _
  constructor
  · exact ⟨hmay.eligible, hmay.notHuman, hmay.notForced⟩
  · refine ⟨original, fixed, v.changedLines, hread, hpatch, hmay.fewLines, ?_⟩
    rw [hpatch, htest]
    exact hvalid
  · rw [htest]
    exact hverdict
  · exact hmay.noAuthPath _ hfile
  · exact hmay.noSharedModule _ hfile
  · rw [hpatch]
    exact hmay.noAuthApi

/-- The fix of the first candidate that is validated is guarded. -/
theorem follows_tryCandidates {strategy : FixStrategy} {llm : Option LlmProposal} {iterations : ℕ}
    (candidates : List FixCandidate)
    (hread : Answered tr (.readSource finding.location.file) (some original)) :
    (tryCandidates ctx finding index strategy original llm iterations candidates m).Follows anyFixRun
      (fun tr' _ _ generated => ∀ g, generated = some g → Guarded ctx tr' finding g.1) (fun _ _ _ _ => True)
      tr m₀ := by
  induction candidates generalizing tr m₀ m with
  | nil =>
    intro g hg
    cases hg
  | cons candidate rest ih =>
    rw [tryCandidates, Program.bind_apply, follows_bind]
    apply (follows_validateCandidate finding).suffix.mono
    · rintro tr' m₀' m' v ⟨hsound, hsuffix⟩
      rw [Program.ite_apply]
      split
      · rename_i hvalid
        refine follows_ofExcept_bind (fun f hf => ?_) fun _ _ => trivial
        intro g hg
        rw [← Option.some.inj hg]
        exact guarded_of_candidateFix hf (hread.mono hsuffix) hvalid.2 (hsound hvalid.1 hvalid.2.1 hvalid.2.2)
      · exact ih (hread.mono hsuffix)
    · exact fun _ _ _ _ _ => trivial

theorem follows_mechanicalFix {strategy : Option FixStrategy} {llm : Option LlmProposal} {iterations : ℕ}
    {source : Option String} (hread : Answered tr (.readSource finding.location.file) source) :
    (mechanicalFix ctx finding index source strategy llm iterations m).Follows anyFixRun
      (fun tr' _ _ generated => ∀ g, generated = some g → Guarded ctx tr' finding g.1) (fun _ _ _ _ => True)
      tr m₀ := by
  cases source with
  | none =>
    intro g hg
    cases hg
  | some original =>
    cases strategy with
    | none =>
      intro g hg
      cases hg
    | some strategy => exact follows_tryCandidates _ hread

/-- What one finding is given is guarded. -/
theorem follows_generateOne :
    (generateOne ctx finding index m).Follows anyFixRun (fun tr' _ _ g => Guarded ctx tr' finding g.1)
      (fun _ _ _ _ => True) tr m₀ := by
  refine follows_ask_bind _ trivial (fun source m₁ _ => ?_) fun _ _ _ => trivial
  rw [Program.bind_apply, follows_bind]
  -- Of the proposal nothing is needed: it is data, and is validated like anything else.
  apply (follows_of_allowed (fun _ _ _ _ => trivial) (fun _ _ _ _ => trivial) (fun _ _ _ _ => trivial) _).suffix.mono
  · rintro tr' m₀' m' ⟨llm, iterations⟩ ⟨-, hsuffix⟩
    have hread : Answered tr' (.readSource finding.location.file) source :=
      hsuffix.subset List.mem_cons_self
    dsimp only
    rw [Program.bind_apply, follows_bind]
    apply (follows_mechanicalFix hread).mono
    · intro tr'' m₀'' m'' generated hgenerated
      cases generated with
      | some g => exact hgenerated g rfl
      | none =>
        refine follows_ofExcept_bind (fun f hf => ?_) fun _ _ => trivial
        exact guarded_of_generateAdvisory hf
    · exact fun _ _ _ _ _ => trivial
  · exact fun _ _ _ _ _ => trivial

/-- Each finding is given a fix, which is guarded. -/
theorem follows_generateFrom (confirmed : List ConfirmedFinding) :
    (generateFrom ctx confirmed index m).Follows anyFixRun
      (fun tr' _ _ fixes => List.Forall₂ (Guarded ctx tr') confirmed fixes) (fun _ _ _ _ => True) tr m₀ := by
  induction confirmed generalizing tr m₀ m index with
  | nil => exact .nil
  | cons finding rest ih =>
    rw [generateFrom, Program.bind_apply, follows_bind]
    apply follows_generateOne.mono
    · rintro tr' m₀' m' ⟨fix, generated⟩ hguarded
      -- The other findings do not take away what stands behind this fix.
      have hrest : ∀ (tr'' : FixTrace) (m₀'' m'' : Unit), tr' <:+ tr'' →
          ((do return fix :: (← generateFrom ctx rest (index + 1)) : FixProgram (List Fix)) m'').Follows
            anyFixRun (fun tr' _ _ fixes => List.Forall₂ (Guarded ctx tr') (finding :: rest) fixes)
            (fun _ _ _ _ => True) tr'' m₀'' := by
        intro tr'' m₀'' m'' hsuffix
        rw [Program.bind_apply, follows_bind]
        apply Follows.mono (Follows.suffix ih)
        · rintro _ _ _ fixes ⟨hfixes, hafter⟩
          exact .cons (hguarded.mono (hsuffix.trans hafter)) hfixes
        · exact fun _ _ _ _ _ => trivial
      dsimp only
      rw [Program.ite_apply]
      split
      · exact follows_ask_bind _ trivial (fun _ m₁ _ => hrest _ _ m₁ (List.suffix_cons _ _)) fun _ _ _ => trivial
      · exact hrest tr' m₀' m' List.suffix_rfl
    · exact fun _ _ _ _ _ => trivial

end Eligible

/-- Of the fixes a run returns, each is of its finding, and each that may be applied automatically has been
validated and keeps to every rule. -/
theorem guarded_of_generateFixes {ctx : FixGenerationContext} {confirmed : List ConfirmedFinding} {tr : FixTrace}
    {m₀ m : Unit} {fixes : List Fix} (h : (generateFixes ctx confirmed).Ran tr m₀ (.ret m fixes)) :
    List.Forall₂ (Guarded ctx tr) confirmed fixes :=
  h.returned (P := anyFixRun) (fun _ => follows_generateFrom confirmed) fun _ _ => trivial

/-- A header that lets every origin read. -/
private def openHeader : String := "\"Access-Control-Allow-Origin\": \"*\",\n"

private def closedHeader : String :=
  "\"Access-Control-Allow-Origin\": process.env.CORS_ALLOWED_ORIGIN ?? \"\",\n"

/-- The library on a file of one line. -/
private def lineDiff : DiffLib where
  createTwoFilesPatch oldFile newFile oldText newText :=
    "--- " ++ oldFile ++ "\n+++ " ++ newFile ++ "\n@@ -1,1 +1,1 @@\n-" ++ oldText ++ "+" ++ newText
  applyPatch source _ := .ok (if source = openHeader then some closedHeader else none)
  parsePatch _ := .ok [[["-" ++ openHeader, "+" ++ closedHeader]]]

private def corsStrategy : FixStrategy where
  vulnerable source := Text.includes source openHeader
  apply source := if source = openHeader then some closedHeader else none
  rationale := "Replaced the wildcard CORS origin."
  testFramework := "vitest"
  proofTestCode _ _ := "expect(source).not.toMatch(vulnerable);"

private def corsContext : FixGenerationContext where
  clientId := "c"
  scanId := "s"
  diff := lineDiff
  pickStrategy _ _ := some corsStrategy
  parseJson _ := none
  stringify _ := ""
  now _ := 0

private def corsFinding : ConfirmedFinding :=
  { id := "cf", scanId := "s", clientId := "c", title := "Permissive CORS", category := .permissiveCors
    severity := .medium, exposure := .public_, location := { file := "web/headers.ts", line := 1 }
    impact := "", proofType := .static, proofArtifact := .null, createdAt := 0 }

/-- The file has the header, the model has no answer, and the test fails on that header only. -/
private def corsAnswer : (op : FixOp) → Unit → FixOp.Ans op × Unit
  | .readSource _, _ => (.ok (some openHeader), ())
  | .resolvePrompt _, _ => (.ok none, ())
  | .complete _, _ => (.error (.other "offline"), ())
  | .proofRun _ _ source, _ => (.ok { passed := source ≠ openHeader }, ())
  | .containerPhase .., _ => (.error (.other "no docker"), ())
  | .auditAppend _, _ => (.ok (), ())

/-- A permissive header is fixed by its strategy; the fix is eligible and guarded. -/
theorem guarded_of_generateFixes_cors : ∃ (tr : FixTrace) (fixes : List Fix),
    fixes.map (·.riskClass) = [.autoEligible] ∧ List.Forall₂ (Guarded corsContext tr) [corsFinding] fixes := by
  let run := Outcome.replay corsAnswer 8 [] () (generateFixes corsContext [corsFinding] ())
  have hran : (generateFixes corsContext [corsFinding]).Ran run.1 run.2.1 run.2.2 :=
    (Program.Ran.start ()).replay
  generalize hend : run.2.2 = o at hran
  have hclasses : (o.ended?.bind fun r => r.2.toOption).map (·.map (·.riskClass)) = some [.autoEligible] := by
    rw [← hend]
    decide +kernel
  cases o with
  | ret m fixes => exact ⟨_, fixes, Option.some.inj hclasses, guarded_of_generateFixes hran⟩
  | throw m e => cases hclasses
  | await m op k => cases hclasses

end MontrSecure
