import Mathlib.Data.Rat.Floor
import MontrSecure.Correlation.Grounding

/-!
# Scores

`packages/correlation/src/scoring.ts`: reachability, exposure and impact of a grounded finding, each
between 0 and 1. Scores are rationals; the rounding of floating-point arithmetic is not modelled.
-/

namespace MontrSecure

/-- A number as a caller may pass one. -/
inductive Number where
  | nan
  | infinite (negative : Bool)
  | finite (q : ℚ)

/-- `clamp01` of a finite number. -/
def clamp01 (q : ℚ) : ℚ := min 1 (max 0 q)

/-- `clampUnit`. -/
def clampUnit : Number → ℚ
  | .nan => 0
  | .infinite negative => if negative then 0 else 1
  | .finite q => clamp01 q

/-- `round3`: to three decimals, halves up. -/
def round3 (q : ℚ) : ℚ := (⌊clamp01 q * 1000 + 1 / 2⌋ : ℚ) / 1000

/-- `ScoreTriple`. -/
structure ScoreTriple where
  reachabilityScore : ℚ
  exposureScore : ℚ
  impactScore : ℚ

/-- `exposureScoreFor`. -/
def exposureScoreFor (authState : AuthState) (hasRoute : Bool) : ℚ :=
  if !hasRoute then 2 / 5
  else
    match authState with
    | .public_ => 1
    | .authenticated => 1 / 2
    | .roleGated => 7 / 20
    | .unknown => 1 / 2

/-- `reachabilityScoreFor`. -/
def reachabilityScoreFor (g : Grounding) : ℚ :=
  match g.klass with
  | .injection =>
    if g.taintReaches then
      let source := g.matchedSource.bind (·.routeId)
      if source.isSome ∧ source = g.routeId then 19 / 20 else 9 / 10
    else if g.matchedSink.isSome then 7 / 20
    else 2 / 5
  | .config => if g.route.isSome then 1 / 2 else 1 / 4
  | .secret => if g.matchedSecretSurface.isSome then 3 / 5 else 9 / 20
  | .dependency => 3 / 5
  | .access => if g.route.isSome then 3 / 5 else 2 / 5
  | .other => if g.route.isSome || g.matchedSink.isSome then 1 / 2 else 3 / 10

/-- `impactScoreFor`. -/
def impactScoreFor (cand : CandidateFinding) (g : Grounding) : ℚ :=
  let base := categoryImpactBase cand.category
  let sev := severityWeight cand.rawSeverity
  let impact := 3 / 5 * base + 2 / 5 * sev
  -- Without credentials there is nothing to steal across origins.
  let impact :=
    if cand.category = .permissiveCors ∧ g.exposure = .public_ then impact * (1 / 2) else impact
  let impact :=
    if cand.category = .hardcodedSecret ∧ g.matchedSecretSurface.isSome then max impact (4 / 5)
    else impact
  let impact := if g.klass = .injection ∧ g.taintReaches = false then impact * (17 / 20) else impact
  clamp01 impact

/-- `scoreGrounding`. -/
def scoreGrounding (cand : CandidateFinding) (g : Grounding) : ScoreTriple :=
  { reachabilityScore := reachabilityScoreFor g
    exposureScore := exposureScoreFor g.authState g.route.isSome
    impactScore := impactScoreFor cand g }

/-! ## Bounds -/

theorem clamp01_mem (q : ℚ) : 0 ≤ clamp01 q ∧ clamp01 q ≤ 1 :=
  ⟨le_min zero_le_one (le_max_left _ _), min_le_left _ _⟩

theorem clamp01_of_mem {q : ℚ} (h : 0 ≤ q ∧ q ≤ 1) : clamp01 q = q := by
  rw [clamp01, max_eq_right h.1, min_eq_right h.2]

/-- Clamping brings a number no further from one that is between 0 and 1. -/
theorem abs_clamp01_sub_le {base : ℚ} (h : 0 ≤ base ∧ base ≤ 1) (q : ℚ) :
    |clamp01 q - base| ≤ |q - base| := by
  unfold clamp01
  rw [abs_le]
  have hle := neg_abs_le (q - base)
  have hge := le_abs_self (q - base)
  have hnonneg := abs_nonneg (q - base)
  constructor
  · rcases le_total 0 q with hq | hq
    · rw [max_eq_right hq]
      rcases le_total 1 q with hq' | hq'
      · rw [min_eq_left hq']
        linarith [h.2]
      · rw [min_eq_right hq']
        exact hle
    · rw [max_eq_left hq, min_eq_right zero_le_one]
      linarith
  · rcases le_total 0 q with hq | hq
    · rw [max_eq_right hq]
      exact (sub_le_sub_right (min_le_right _ _) _).trans hge
    · rw [max_eq_left hq, min_eq_right zero_le_one]
      linarith [h.1]

theorem clampUnit_mem (n : Number) : 0 ≤ clampUnit n ∧ clampUnit n ≤ 1 := by
  cases n with
  | nan => exact ⟨le_refl 0, zero_le_one⟩
  | infinite negative => cases negative <;> norm_num [clampUnit]
  | finite q => exact clamp01_mem q

theorem round3_mem (q : ℚ) : 0 ≤ round3 q ∧ round3 q ≤ 1 := by
  obtain ⟨hnonneg, hle⟩ := clamp01_mem q
  have hfloor : 0 ≤ ⌊clamp01 q * 1000 + 1 / 2⌋ := by
    rw [Int.floor_nonneg]
    linarith
  have hfloor' : ⌊clamp01 q * 1000 + 1 / 2⌋ ≤ 1000 := by
    rw [Int.floor_le_iff]
    push_cast
    linarith
  have hcast : (0 : ℚ) ≤ ⌊clamp01 q * 1000 + 1 / 2⌋ := by exact_mod_cast hfloor
  have hcast' : (⌊clamp01 q * 1000 + 1 / 2⌋ : ℚ) ≤ 1000 := by exact_mod_cast hfloor'
  exact ⟨div_nonneg hcast (by norm_num), (div_le_one (by norm_num)).mpr hcast'⟩

theorem reachabilityScoreFor_mem (g : Grounding) :
    0 ≤ reachabilityScoreFor g ∧ reachabilityScoreFor g ≤ 1 := by
  simp only [reachabilityScoreFor]
  repeat' split
  all_goals norm_num

theorem exposureScoreFor_mem (authState : AuthState) (hasRoute : Bool) :
    0 ≤ exposureScoreFor authState hasRoute ∧ exposureScoreFor authState hasRoute ≤ 1 := by
  cases hasRoute <;> cases authState <;> norm_num [exposureScoreFor]

theorem impactScoreFor_mem (cand : CandidateFinding) (g : Grounding) :
    0 ≤ impactScoreFor cand g ∧ impactScoreFor cand g ≤ 1 :=
  clamp01_mem _

end MontrSecure

/-!
## What the model may add

`packages/correlation/src/llm.ts` and `runLlmEnrichment` of `correlate.ts`: the reply of the model is
parsed, its scores move the deterministic ones by a bounded amount, and whatever goes wrong leaves
the deterministic result.
-/

namespace MontrSecure

open Text

/-- A gateway, by what the enrichment of the `n`-th group gets of it: the content of the reply, or
nothing when one of the calls is rejected. -/
abbrev Gateway := ℕ → Option String

/-- `ParsedCorrelation`. -/
structure ParsedCorrelation where
  reachabilityScore : Option ℚ
  impactScore : Option ℚ
  reachabilityHypothesis : Option String
  exploitHypothesis : Option String

/-- A property of an object; other values have none that is asked for. -/
def Json.property (key : String) : Json → Option Json
  | .obj fields => (fields.find? (·.1 = key)).map (·.2)
  | _ => none

/-- `num`. A number that overflows is not a JSON value and does not get here. -/
def Json.num? : Json → Option ℚ
  | .num q => some q
  | _ => none

/-- `str`: not blank. -/
def Json.str? : Json → Option String
  | .str s => if (units s).all Pattern.isSpace then none else some s
  | _ => none

/-- `parseCorrelationResponse`, over `JSON.parse`. -/
def parseCorrelationResponse (parseJson : String → Option Json) (content : String) :
    Option ParsedCorrelation :=
  match parseJson content with
  | none => none
  | some raw =>
    let parsed : ParsedCorrelation :=
      { reachabilityScore := (raw.property "reachabilityScore").bind Json.num?
        impactScore := (raw.property "impactScore").bind Json.num?
        reachabilityHypothesis :=
          ((raw.property "reachabilityHypothesis").bind Json.str?).or
            ((raw.property "hypothesis").bind Json.str?)
        exploitHypothesis := (raw.property "exploitHypothesis").bind Json.str? }
    let hasSignal :=
      parsed.reachabilityScore.isSome || parsed.impactScore.isSome ||
        parsed.reachabilityHypothesis.isSome || parsed.exploitHypothesis.isSome
    if hasSignal then some parsed else none

/-- `blendScore`. -/
def blendScore (base : ℚ) (llm : Option ℚ) (trust maxDelta : ℚ) : ℚ :=
  match llm with
  | none => base
  | some llm =>
    let bounded := min maxDelta (max (-maxDelta) (llm - base))
    clamp01 (base + bounded * trust)

/-- `LlmEnrichmentResult`. -/
structure LlmEnrichmentResult where
  reach : ℚ
  impact : ℚ
  reachHypothesis : String
  exploitHypothesis : String

/-- `runLlmEnrichment`, on what the gateway gives. -/
def runLlmEnrichment (parseJson : String → Option Json) (reply : Option String)
    (base : ScoreTriple) (reachHypothesis exploitHypothesis : String) (trust maxDelta : ℚ) :
    LlmEnrichmentResult :=
  let fallback : LlmEnrichmentResult :=
    { reach := base.reachabilityScore, impact := base.impactScore, reachHypothesis,
      exploitHypothesis }
  match reply.bind (parseCorrelationResponse parseJson) with
  | none => fallback
  | some parsed =>
    { reach := blendScore base.reachabilityScore parsed.reachabilityScore trust maxDelta
      impact := blendScore base.impactScore parsed.impactScore trust maxDelta
      reachHypothesis := parsed.reachabilityHypothesis.getD reachHypothesis
      exploitHypothesis := parsed.exploitHypothesis.getD exploitHypothesis }

/-! ## A bounded nudge -/

variable {base trust maxDelta : ℚ}

/-- A blended score is within the bound of the deterministic one, and between 0 and 1. -/
theorem blendScore_bounds (hbase : 0 ≤ base ∧ base ≤ 1) (htrust : 0 ≤ trust) (hdelta : 0 ≤ maxDelta)
    (llm : Option ℚ) :
    (0 ≤ blendScore base llm trust maxDelta ∧ blendScore base llm trust maxDelta ≤ 1) ∧
      |blendScore base llm trust maxDelta - base| ≤ trust * maxDelta := by
  cases llm with
  | none =>
    refine ⟨hbase, ?_⟩
    show |base - base| ≤ trust * maxDelta
    rw [sub_self, abs_zero]
    exact mul_nonneg htrust hdelta
  | some llm =>
    refine ⟨clamp01_mem _, (abs_clamp01_sub_le hbase _).trans ?_⟩
    -- What is left is the bounded difference, times the trust.
    have hbounded : |min maxDelta (max (-maxDelta) (llm - base))| ≤ maxDelta :=
      abs_le.mpr ⟨le_min (by linarith) (le_max_left _ _), min_le_left _ _⟩
    rw [add_sub_cancel_left, abs_mul, abs_of_nonneg htrust, mul_comm]
    exact mul_le_mul_of_nonneg_left hbounded htrust

end MontrSecure
