import Mathlib.Algebra.BigOperators.Group.List.Basic
import MontrSecure.CostMeter.Pricing

/-!
# Cost meter

`packages/cost-meter/src/meter.ts` and `registry.ts`: the accumulator of a scan's spend, the check
against its budget ceiling, and the registry that lets the gateway find both. The totals of a meter
are exact: `LiveCostMeter.totalUsd_record` and `totalTokens_record`.
-/

namespace MontrSecure

/-- `MeterEntry`: one metered call. -/
structure MeterEntry where
  modelId : String
  usage : TokenUsage
  layer : Option LayerId := none
  batch : Bool := false

namespace MeterEntry

/-- The price of an entry. -/
def usd (entry : MeterEntry) : ℚ := priceUsageUsd entry.usage entry.modelId entry.batch

/-- The price of an entry is a whole number of micro-dollars. -/
theorem isMicroUsd_usd (entry : MeterEntry) : IsMicroUsd entry.usd := isMicroUsd_priceUsageUsd _ _ _

/-- No entry has a negative price. -/
theorem usd_nonneg (entry : MeterEntry) : 0 ≤ entry.usd := priceUsageUsd_nonneg _ _ _

end MeterEntry

/-- Usage and price accumulated under one key. -/
structure Bucket where
  usage : TokenUsage
  usd : ℚ

/-- `merge`: add to the bucket of `key`, or open it at the end. -/
def mergeBucket (key : String) (usage : TokenUsage) (usd : ℚ) :
    List (String × Bucket) → List (String × Bucket)
  | [] => [(key, { usage, usd })]
  | (k, prev) :: rest =>
    if k = key then
      (k, { usage := addUsage prev.usage usage, usd := roundUsd (prev.usd + usd) }) :: rest
    else (k, prev) :: mergeBucket key usage usd rest

/-- `toLineItems`. -/
def toLineItems (buckets : List (String × Bucket)) : List CostLineItem :=
  buckets.map fun (key, b) => { key, usage := b.usage, usd := roundUsd b.usd }

/-- `LiveCostMeter`. Its total is a whole number of micro-dollars, as it starts from nothing and
is rounded on every record. -/
structure LiveCostMeter where
  scanId : ScanId
  startedAt : IsoDateTime
  byLayer : List (String × Bucket) := []
  byModel : List (String × Bucket) := []
  total : TokenUsage := zeroUsage
  totalUsd : ℚ := 0
  isMicroUsd_totalUsd : IsMicroUsd totalUsd := by exact isMicroUsd_zero

/-- `BudgetCheck`. -/
structure BudgetCheck where
  withinBudget : Bool
  exceeded : Bool
  warn : Bool
  spentUsd : ℚ
  spentTokens : ℕ

namespace LiveCostMeter

/-- `record`. -/
def record (meter : LiveCostMeter) (entry : MeterEntry) : LiveCostMeter where
  scanId := meter.scanId
  startedAt := meter.startedAt
  byLayer :=
    mergeBucket ((entry.layer.map LayerId.name).getD "unattributed") entry.usage entry.usd
      meter.byLayer
  byModel := mergeBucket entry.modelId entry.usage entry.usd meter.byModel
  total := addUsage meter.total entry.usage
  totalUsd := roundUsd (meter.totalUsd + entry.usd)
  isMicroUsd_totalUsd := isMicroUsd_roundUsd _

/-- `actual`, at time `now`. -/
def actual (meter : LiveCostMeter) (now : IsoDateTime) : CostActual where
  scanId := meter.scanId
  usage := meter.total
  actualUsd := roundUsd meter.totalUsd
  wallClockSeconds := max 0 (((now : ℚ) - meter.startedAt) / 1000)
  byLayer := toLineItems meter.byLayer
  byModel := toLineItems meter.byModel
  updatedAt := now

/-- `checkBudget`. -/
def checkBudget (meter : LiveCostMeter) (policy : BudgetPolicy) : BudgetCheck :=
  let spentUsd := roundUsd meter.totalUsd
  let spentTokens := meter.total.totalTokens
  let usdExceeded := policy.maxUsd.any fun maxUsd => decide (spentUsd > maxUsd)
  let usdWarn := policy.maxUsd.any fun maxUsd =>
    decide (spentUsd ≤ maxUsd) && decide (spentUsd ≥ maxUsd * policy.warnThresholdPct)
  let tokensExceeded := policy.maxTotalTokens.any fun maxTokens => decide (spentTokens > maxTokens)
  let tokensWarn := policy.maxTotalTokens.any fun maxTokens =>
    decide (spentTokens ≤ maxTokens) &&
      decide ((spentTokens : ℚ) ≥ maxTokens * policy.warnThresholdPct)
  let exceeded := usdExceeded || tokensExceeded
  { withinBudget := !exceeded
    exceeded
    warn := (usdWarn || tokensWarn) && !exceeded
    spentUsd
    spentTokens }

/-- The dollars of a meter grow by exactly the price of the entry. -/
@[simp]
theorem totalUsd_record (meter : LiveCostMeter) (entry : MeterEntry) :
    (meter.record entry).totalUsd = meter.totalUsd + entry.usd :=
  (meter.isMicroUsd_totalUsd.add entry.isMicroUsd_usd).roundUsd_eq

/-- The tokens of a meter grow by exactly the tokens of the entry. -/
@[simp]
theorem totalTokens_record (meter : LiveCostMeter) (entry : MeterEntry) :
    (meter.record entry).total.totalTokens =
      meter.total.totalTokens + entry.usage.totalTokens := rfl

/-- What `checkBudget` reports as spent is the total itself. -/
@[simp]
theorem roundUsd_totalUsd (meter : LiveCostMeter) : roundUsd meter.totalUsd = meter.totalUsd :=
  meter.isMicroUsd_totalUsd.roundUsd_eq

end LiveCostMeter

/-- A spend is above the ceiling of a policy. -/
def BudgetPolicy.Exceeded (policy : BudgetPolicy) (usd : ℚ) (tokens : ℕ) : Prop :=
  (∃ maxUsd, policy.maxUsd = some maxUsd ∧ maxUsd < usd) ∨
    ∃ maxTokens, policy.maxTotalTokens = some maxTokens ∧ maxTokens < tokens

/-- `BudgetPolicySchema`: a ceiling is positive. -/
def BudgetPolicy.Valid (policy : BudgetPolicy) : Prop :=
  (∀ maxUsd, policy.maxUsd = some maxUsd → 0 < maxUsd) ∧
    ∀ maxTokens, policy.maxTotalTokens = some maxTokens → 0 < maxTokens

/-- `checkBudget` reports an exceeded ceiling exactly when the totals are above it. -/
theorem LiveCostMeter.checkBudget_exceeded_iff (meter : LiveCostMeter) (policy : BudgetPolicy) :
    (meter.checkBudget policy).exceeded = true ↔
      policy.Exceeded meter.totalUsd meter.total.totalTokens := by
  simp [checkBudget, BudgetPolicy.Exceeded, Option.any_eq_true]

/-- A check that warns does not report an exceeded ceiling. -/
theorem LiveCostMeter.exceeded_of_warn (meter : LiveCostMeter) (policy : BudgetPolicy)
    (h : (meter.checkBudget policy).warn = true) : (meter.checkBudget policy).exceeded = false := by
  simp only [checkBudget, Bool.and_eq_true, Bool.not_eq_eq_eq_not, Bool.not_true] at h ⊢
  exact h.2

/-- `createCostMeter`, at time `now`. -/
def createCostMeter (scanId : ScanId) (now : IsoDateTime) : LiveCostMeter :=
  { scanId, startedAt := now }

end MontrSecure

/-!
## The meter conserves spend

`LiveCostMeter` keeps three accounts of what it is given: a total, one by layer and one by model. Each of them is
the sum of the entries, whatever is rounded on the way: every price is a whole number of micro-dollars, so that
`roundUsd` never changes a sum.
-/

namespace MontrSecure

attribute [ext] TokenUsage

/-! ## Spend -/

/-- Dollars, and the tokens of each kind. -/
abbrev Spend := ℚ × ℕ × ℕ × ℕ × ℕ × ℕ

/-- A usage and its price; a cache field that is absent counts for nothing. -/
def spend (usage : TokenUsage) (usd : ℚ) : Spend :=
  (usd, usage.inputTokens, usage.outputTokens, usage.totalTokens, usage.cacheReadTokens.getD 0,
    usage.cacheWriteTokens.getD 0)

/-- What a line of a breakdown says was spent. -/
def CostLineItem.spend (item : CostLineItem) : Spend := MontrSecure.spend item.usage item.usd

/-- What an entry adds. -/
def MeterEntry.spend (entry : MeterEntry) : Spend := MontrSecure.spend entry.usage entry.usd

@[simp]
theorem spend_zero : spend zeroUsage 0 = 0 := rfl

/-- A cache field that is left out when it is not positive. -/
theorem getD_ite_pos (n : ℕ) : (if n > 0 then some n else none).getD 0 = n := by
  by_cases h : n > 0
  · rw [if_pos h, Option.getD_some]
  · rw [if_neg h, Option.getD_none]
    omega

/-- Adding usages adds every kind of token. -/
@[simp]
theorem spend_addUsage (a b : TokenUsage) (u v : ℚ) :
    spend (addUsage a b) (u + v) = spend a u + spend b v := by
  simp only [spend, addUsage, getD_ite_pos, Prod.mk_add_mk]

/-! ## Buckets -/

/-- The account that a list of buckets keeps. -/
def bucketsSpend (buckets : List (String × Bucket)) : Spend :=
  (buckets.map fun p => spend p.2.usage p.2.usd).sum

/-- Every bucket holds a whole number of micro-dollars. -/
def MicroBuckets (buckets : List (String × Bucket)) : Prop := ∀ p ∈ buckets, IsMicroUsd p.2.usd

section Buckets

variable {key : String} {usage : TokenUsage} {usd : ℚ} {buckets : List (String × Bucket)}

theorem MicroBuckets.merge (h : MicroBuckets buckets) (husd : IsMicroUsd usd) :
    MicroBuckets (mergeBucket key usage usd buckets) := by
  induction buckets with
  | nil => simpa [MicroBuckets, mergeBucket] using husd
  | cons p buckets ih =>
    obtain ⟨hp, hrest⟩ := List.forall_mem_cons.mp h
    unfold mergeBucket
    split
    · exact List.forall_mem_cons.mpr ⟨isMicroUsd_roundUsd _, hrest⟩
    · exact List.forall_mem_cons.mpr ⟨hp, ih hrest⟩

/-- A merge adds what is merged, to whichever bucket. -/
theorem bucketsSpend_merge (h : MicroBuckets buckets) (husd : IsMicroUsd usd) :
    bucketsSpend (mergeBucket key usage usd buckets) = bucketsSpend buckets + spend usage usd := by
  induction buckets with
  | nil => simp [bucketsSpend, mergeBucket]
  | cons p buckets ih =>
    obtain ⟨hp, hrest⟩ := List.forall_mem_cons.mp h
    have hcons : ∀ p : String × Bucket, ∀ l, bucketsSpend (p :: l) = spend p.2.usage p.2.usd + bucketsSpend l :=
      fun p l => List.sum_cons
    unfold mergeBucket
    by_cases hkey : p.1 = key
    · -- the bucket of the key
      rw [if_pos hkey, hcons, hcons, (hp.add husd).roundUsd_eq, spend_addUsage]
      exact add_right_comm _ _ _
    · rw [if_neg hkey, hcons, hcons, ih hrest, add_assoc]

/-- The lines of a breakdown say what the buckets hold. -/
theorem sum_toLineItems (h : MicroBuckets buckets) :
    ((toLineItems buckets).map CostLineItem.spend).sum = bucketsSpend buckets := by
  unfold toLineItems bucketsSpend
  rw [List.map_map]
  refine congrArg List.sum (List.map_congr_left fun p hp => ?_)
  show spend p.2.usage (roundUsd p.2.usd) = spend p.2.usage p.2.usd
  rw [(h p hp).roundUsd_eq]

end Buckets

/-! ## Runs -/

namespace LiveCostMeter

/-- `record`, once for each entry. -/
def recordAll (meter : LiveCostMeter) (entries : List MeterEntry) : LiveCostMeter :=
  entries.foldl record meter

/-- The three accounts agree, and no cache field of the total is given when it is zero. -/
structure Balanced (meter : LiveCostMeter) : Prop where
  microLayers : MicroBuckets meter.byLayer
  microModels : MicroBuckets meter.byModel
  byLayer : bucketsSpend meter.byLayer = spend meter.total meter.totalUsd
  byModel : bucketsSpend meter.byModel = spend meter.total meter.totalUsd
  cacheRead : meter.total.cacheReadTokens ≠ some 0
  cacheWrite : meter.total.cacheWriteTokens ≠ some 0

variable {meter : LiveCostMeter}

theorem balanced_create (scanId : ScanId) (now : IsoDateTime) : (createCostMeter scanId now).Balanced := by
  refine ⟨?_, ?_, rfl, rfl, ?_, ?_⟩
  · exact fun p hp => absurd hp List.not_mem_nil
  · exact fun p hp => absurd hp List.not_mem_nil
  · exact nofun
  · exact nofun

/-- An entry adds its spend to the total. -/
theorem spend_record (meter : LiveCostMeter) (entry : MeterEntry) :
    spend (meter.record entry).total (meter.record entry).totalUsd =
      spend meter.total meter.totalUsd + entry.spend := by
  rw [totalUsd_record]
  exact spend_addUsage _ _ _ _

theorem Balanced.record (h : meter.Balanced) (entry : MeterEntry) : (meter.record entry).Balanced := by
  have husd := entry.isMicroUsd_usd
  have hpositive : ∀ n : ℕ, (if n > 0 then some n else none) ≠ some 0 := by
    intro n
    by_cases hn : n > 0
    · rw [if_pos hn]
      simpa using hn.ne'
    · rw [if_neg hn]
      exact nofun
  refine ⟨h.microLayers.merge husd, h.microModels.merge husd, ?_, ?_, hpositive _, hpositive _⟩
  · rw [spend_record, ← h.byLayer]
    exact bucketsSpend_merge h.microLayers husd
  · rw [spend_record, ← h.byModel]
    exact bucketsSpend_merge h.microModels husd

/-- The accounts agree after any entries. -/
theorem Balanced.recordAll (h : meter.Balanced) (entries : List MeterEntry) :
    (meter.recordAll entries).Balanced := by
  induction entries generalizing meter with
  | nil => exact h
  | cons entry entries ih => exact ih (h.record entry)

/-- The total is what it was and the sum of the entries. -/
theorem spend_recordAll (meter : LiveCostMeter) (entries : List MeterEntry) :
    spend (meter.recordAll entries).total (meter.recordAll entries).totalUsd =
      spend meter.total meter.totalUsd + (entries.map MeterEntry.spend).sum := by
  induction entries generalizing meter with
  | nil => exact (add_zero _).symm
  | cons entry entries ih =>
    show spend ((meter.record entry).recordAll entries).total ((meter.record entry).recordAll entries).totalUsd = _
    rw [ih, spend_record, List.map_cons, List.sum_cons, add_assoc]

/-- A cache field that is never zero is determined by what it counts for. -/
theorem eq_of_getD_eq {m n : Option ℕ} (hm : m ≠ some 0) (hn : n ≠ some 0) (h : m.getD 0 = n.getD 0) : m = n := by
  cases m <;> cases n <;> simp_all

/-- The totals of meters in balance are determined by what was spent. -/
theorem Balanced.total_eq {other : LiveCostMeter} (h : meter.Balanced) (hother : other.Balanced)
    (heq : spend meter.total meter.totalUsd = spend other.total other.totalUsd) :
    meter.total = other.total ∧ meter.totalUsd = other.totalUsd := by
  simp only [spend, Prod.mk.injEq] at heq
  obtain ⟨husd, hin, hout, htotal, hread, hwrite⟩ := heq
  refine ⟨?_, husd⟩
  ext1
  · exact hin
  · exact hout
  · exact htotal
  · exact eq_of_getD_eq h.cacheRead hother.cacheRead hread
  · exact eq_of_getD_eq h.cacheWrite hother.cacheWrite hwrite

end LiveCostMeter

open LiveCostMeter

/-- What a meter reports by layer and by model is, in each, what it reports in total: the sum of the entries; and
the totals do not depend on the order of the entries. -/
theorem spend_conserved (scanId : ScanId) (started now : IsoDateTime) (entries : List MeterEntry) :
    let actual := ((createCostMeter scanId started).recordAll entries).actual now
    (actual.byLayer.map CostLineItem.spend).sum = (actual.byModel.map CostLineItem.spend).sum ∧
      (actual.byModel.map CostLineItem.spend).sum = spend actual.usage actual.actualUsd ∧
      spend actual.usage actual.actualUsd = (entries.map MeterEntry.spend).sum ∧
      ∀ reordered : List MeterEntry, reordered.Perm entries →
        let again := ((createCostMeter scanId started).recordAll reordered).actual now
        again.usage = actual.usage ∧ again.actualUsd = actual.actualUsd := by
  intro actual
  have hbalanced := (balanced_create scanId started).recordAll entries
  have hactual : spend actual.usage actual.actualUsd =
      spend ((createCostMeter scanId started).recordAll entries).total
        ((createCostMeter scanId started).recordAll entries).totalUsd := by
    show spend _ (roundUsd _) = _
    rw [roundUsd_totalUsd]
    rfl
  have hlayers : (actual.byLayer.map CostLineItem.spend).sum = spend actual.usage actual.actualUsd := by
    rw [hactual, ← hbalanced.byLayer]
    exact sum_toLineItems hbalanced.microLayers
  have hmodels : (actual.byModel.map CostLineItem.spend).sum = spend actual.usage actual.actualUsd := by
    rw [hactual, ← hbalanced.byModel]
    exact sum_toLineItems hbalanced.microModels
  have htotal : ∀ entries : List MeterEntry,
      spend ((createCostMeter scanId started).recordAll entries).total
        ((createCostMeter scanId started).recordAll entries).totalUsd = (entries.map MeterEntry.spend).sum := by
    intro entries
    rw [spend_recordAll]
    exact zero_add _
  refine ⟨hlayers.trans hmodels.symm, hmodels, ?_, fun reordered hperm => ?_⟩
  · rw [hactual]
    exact htotal entries
  · have hspent : (reordered.map MeterEntry.spend).sum = (entries.map MeterEntry.spend).sum :=
      (hperm.map _).sum_eq
    rw [← htotal, ← htotal] at hspent
    obtain ⟨husage, husd⟩ := ((balanced_create scanId started).recordAll reordered).total_eq hbalanced hspent
    exact ⟨husage, congrArg roundUsd husd⟩

end MontrSecure
