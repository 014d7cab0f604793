import MontrSecure.Correlation.Conservation
import Mathlib.Data.Prod.Lex
import Mathlib.Data.List.Lex

/-!
# The order of the report

`comparePending` is the order of a key (`precedes_iff`): the ranked list is sorted by it, and two
findings change places only when their keys are the same. The scores of the report are rounded; for
findings of one category and severity the rounding loses nothing (`scoreGrounding_of_round3`).
-/

namespace MontrSecure

open Text

/-! ## The key -/

/-- What `comparePending` compares. -/
structure RankKey where
  combined : ℚ
  impact : ℚ
  reach : ℚ
  severity : ℚ
  priorShapeMatched : Bool
  category : Category
  rootCauseId : EntityId

/-- The key of a pending finding. -/
def PendingProbable.rankKey (p : PendingProbable) : RankKey :=
  { combined := p.combined
    impact := p.impact
    reach := p.reach
    severity := p.severity
    priorShapeMatched := p.priorShapeMatched
    category := p.category
    rootCauseId := p.rootCauseId }

namespace RankKey

/-- The place of a key: numbers descend, strings ascend by their code units. -/
def place (k : RankKey) : ℚᵒᵈ ×ₗ ℚᵒᵈ ×ₗ ℚᵒᵈ ×ₗ ℚᵒᵈ ×ₗ Bool ×ₗ List ℕ ×ₗ List ℕ :=
  toLex (OrderDual.toDual k.combined, toLex (OrderDual.toDual k.impact,
    toLex (OrderDual.toDual k.reach, toLex (OrderDual.toDual k.severity,
      toLex (!k.priorShapeMatched, toLex (units k.category.name, units k.rootCauseId))))))

/-- Keys at one place are the same. -/
theorem place_injective : Function.Injective place := by
  intro a b h
  obtain ⟨⟩ := a
  obtain ⟨⟩ := b
  simp only [place, EmbeddingLike.apply_eq_iff_eq, Prod.mk.injEq, Bool.not_inj_iff] at h
  obtain ⟨rfl, rfl, rfl, rfl, rfl, hcategory, hrootCause⟩ := h
  rw [Category.name_injective (units_injective hcategory), units_injective hrootCause]

end RankKey

/-- One comparison of `comparePending`: the larger number comes first. -/
theorem step_ne_gt {a b : ℚ} {rest : Ordering} :
    (if b ≠ a then compare b a else rest) ≠ .gt ↔ b < a ∨ a = b ∧ rest ≠ .gt := by
  by_cases h : b = a
  · subst h
    simp
  · have hne : a ≠ b := fun hab => h hab.symm
    rw [if_pos h, Ne, compare_gt_iff_gt, not_lt, le_iff_lt_or_eq]
    simp [h, hne]

/-- The last comparisons of `comparePending`: the smaller strings come first. -/
theorem names_ne_gt {c d : Category} {x y : List ℕ} :
    (if c ≠ d then if units c.name < units d.name then Ordering.lt else .gt
      else if x < y then .lt
      else if y < x then .gt
      else .eq) ≠ .gt ↔ units c.name < units d.name ∨ units c.name = units d.name ∧ x ≤ y := by
  by_cases h : c = d
  · subst h
    rw [if_neg (not_not.mpr rfl)]
    rcases lt_trichotomy x y with hxy | hxy | hxy
    · simp [hxy, hxy.le]
    · simp [hxy]
    · simp [hxy, hxy.not_gt, hxy.not_ge]
  · have hne : units c.name ≠ units d.name := fun hcd => h (Category.name_injective (units_injective hcd))
    rw [if_pos h]
    by_cases hlt : units c.name < units d.name <;> simp [hlt, hne]

/-- `comparePending` is the order of the places. -/
theorem precedes_iff {a b : PendingProbable} :
    Precedes a b ↔ a.rankKey.place ≤ b.rankKey.place := by
  simp only [Precedes, comparePending, step_ne_gt, PendingProbable.rankKey, RankKey.place,
    Prod.Lex.toLex_le_toLex, OrderDual.toDual_lt_toDual, EmbeddingLike.apply_eq_iff_eq]
  refine or_congr_right (and_congr_right fun _ => or_congr_right (and_congr_right fun _ =>
    or_congr_right (and_congr_right fun _ => or_congr_right (and_congr_right fun _ => ?_))))
  rcases hprior : a.priorShapeMatched <;> rcases hprior' : b.priorShapeMatched
  · simpa using names_ne_gt
  · simp
  · simp
  · simpa using names_ne_gt

/-- Neither of two findings has to stand before the other only when their keys are the same. -/
theorem rankKey_eq_of_precedes {a b : PendingProbable} (hab : Precedes a b) (hba : Precedes b a) :
    a.rankKey = b.rankKey :=
  RankKey.place_injective (le_antisymm (precedes_iff.mp hab) (precedes_iff.mp hba))

instance : Std.Total Precedes :=
  ⟨fun a b => (le_total a.rankKey.place b.rankKey.place).imp precedes_iff.mpr precedes_iff.mpr⟩

instance : IsTrans PendingProbable Precedes :=
  ⟨fun _ _ _ hab hbc => precedes_iff.mpr ((precedes_iff.mp hab).trans (precedes_iff.mp hbc))⟩

/-- The ranked list is sorted. -/
theorem pairwise_precedes (ps : List PendingProbable) :
    (ps.insertionSort Precedes).Pairwise Precedes :=
  List.pairwise_insertionSort Precedes ps

/-! ## Rounding -/

/-- The scores a grounding may give for reachability. -/
def reachabilityScores : List ℚ := [19 / 20, 9 / 10, 7 / 20, 2 / 5, 1 / 2, 1 / 4, 3 / 5, 9 / 20, 3 / 10]

theorem reachabilityScoreFor_mem_scores (g : Grounding) :
    reachabilityScoreFor g ∈ reachabilityScores := by
  simp only [reachabilityScoreFor]
  repeat' split
  all_goals simp [reachabilityScores]

/-- The scores of a route for exposure. -/
def exposureScores : List ℚ := [1, 1 / 2, 2 / 5, 7 / 20]

theorem exposureScoreFor_mem_scores (authState : AuthState) (hasRoute : Bool) :
    exposureScoreFor authState hasRoute ∈ exposureScores := by
  cases hasRoute <;> cases authState <;> simp [exposureScoreFor, exposureScores]

theorem round3_scores : ∀ q ∈ reachabilityScores ++ exposureScores, round3 q = q := by
  decide +kernel

/-- `impactScoreFor` by what it asks of a grounding: is the exposure public, is there a secret surface,
is an injection not traced? -/
def impactOf (category : Category) (severity : Severity) (isPublic onSurface untraced : Bool) : ℚ :=
  let impact := 3 / 5 * categoryImpactBase category + 2 / 5 * severityWeight severity
  let impact := if category = .permissiveCors ∧ isPublic then impact * (1 / 2) else impact
  let impact := if category = .hardcodedSecret ∧ onSurface then max impact (4 / 5) else impact
  let impact := if untraced then impact * (17 / 20) else impact
  clamp01 impact

theorem impactScoreFor_eq (cand : CandidateFinding) (g : Grounding) :
    impactScoreFor cand g =
      impactOf cand.category cand.rawSeverity (g.exposure = .public_) g.matchedSecretSurface.isSome
        (g.klass = .injection ∧ g.taintReaches = false) := by
  simp only [impactScoreFor, impactOf, decide_eq_true_eq]

/-- The categories. -/
def categories : List Category :=
  [.sqlInjection, .nosqlInjection, .commandInjection, .xss, .ssrf, .pathTraversal,
    .insecureDeserialization, .hardcodedSecret, .vulnerableDependency, .permissiveCors,
    .missingSecurityHeaders, .insecureCookie, .weakCrypto, .brokenAccessControl,
    .brokenAuthentication, .openRedirect, .xxe, .csrf, .sensitiveDataExposure, .insufficientLogging,
    .idor, .massAssignment, .rateLimitMissing, .promptInjection, .insecureConfiguration, .other]

theorem mem_categories (c : Category) : c ∈ categories := by
  cases c <;> decide

/-- The severities. -/
def severities : List Severity := [.info, .low, .medium, .high, .critical]

theorem mem_severities (s : Severity) : s ∈ severities := by
  cases s <;> decide

/-- The impacts that one category and severity may have are more than a rounding apart. -/
theorem impactOf_of_round3 : ∀ c ∈ categories, ∀ s ∈ severities, ∀ p p' q q' r r' : Bool,
    round3 (impactOf c s p q r) = round3 (impactOf c s p' q' r') →
      impactOf c s p q r = impactOf c s p' q' r' := by
  decide +kernel

/-- Findings of one category and severity with the same rounded scores have the same scores. -/
theorem scoreGrounding_of_round3 {c c' : CandidateFinding} {g g' : Grounding}
    (hcategory : c.category = c'.category) (hseverity : c.rawSeverity = c'.rawSeverity)
    (hreach : round3 (scoreGrounding c g).reachabilityScore =
      round3 (scoreGrounding c' g').reachabilityScore)
    (hexposure : round3 (scoreGrounding c g).exposureScore =
      round3 (scoreGrounding c' g').exposureScore)
    (himpact : round3 (scoreGrounding c g).impactScore = round3 (scoreGrounding c' g').impactScore) :
    scoreGrounding c g = scoreGrounding c' g' := by
  have hscores : ∀ q ∈ reachabilityScores ++ exposureScores,
      ∀ q' ∈ reachabilityScores ++ exposureScores, round3 q = round3 q' → q = q' := by
    intro q hq q' hq' h
    rwa [round3_scores q hq, round3_scores q' hq'] at h
  simp only [scoreGrounding, ScoreTriple.mk.injEq] at *
  refine ⟨hscores _ (List.mem_append_left _ (reachabilityScoreFor_mem_scores g)) _
    (List.mem_append_left _ (reachabilityScoreFor_mem_scores g')) hreach,
    hscores _ (List.mem_append_right _ (exposureScoreFor_mem_scores _ _)) _
      (List.mem_append_right _ (exposureScoreFor_mem_scores _ _)) hexposure, ?_⟩
  rw [impactScoreFor_eq, impactScoreFor_eq, hcategory, hseverity] at himpact ⊢
  exact impactOf_of_round3 _ (mem_categories _) _ (mem_severities _) _ _ _ _ _ _ himpact

end MontrSecure
