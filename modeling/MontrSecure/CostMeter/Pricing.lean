import Mathlib.Data.Rat.Floor
import Mathlib.Tactic.Linarith
import Mathlib.Tactic.Positivity
import Mathlib.Tactic.FieldSimp
import MontrSecure.Contracts.Basic

/-!
# Pricing

`packages/cost-meter/src/pricing.ts`: the reference rate card, the price of a token usage, and
rounding to micro-dollars. Amounts are exact rationals, so `roundUsd` is the only rounding there is.
Every price is a whole number of micro-dollars, and such numbers are closed under addition and fixed
by `roundUsd`: this is why totals kept by a meter are exact sums.
-/

namespace MontrSecure

/-! ## Rounding -/

/-- `roundUsd`: round to micro-dollars, halves up, as `Math.round` does. -/
def roundUsd (usd : ℚ) : ℚ := (⌊usd * 1000000 + 1 / 2⌋ : ℚ) / 1000000

/-- A whole number of micro-dollars. -/
def IsMicroUsd (usd : ℚ) : Prop := ∃ z : ℤ, usd = z / 1000000

/-- Nothing is a whole number of micro-dollars. -/
theorem isMicroUsd_zero : IsMicroUsd 0 := ⟨0, by norm_num⟩

/-- Sums of micro-dollars are micro-dollars. -/
theorem IsMicroUsd.add {a b : ℚ} (ha : IsMicroUsd a) (hb : IsMicroUsd b) : IsMicroUsd (a + b) := by
  obtain ⟨y, rfl⟩ := ha
  obtain ⟨z, rfl⟩ := hb
  exact ⟨y + z, by push_cast; ring⟩

/-- Rounding gives micro-dollars. -/
theorem isMicroUsd_roundUsd (usd : ℚ) : IsMicroUsd (roundUsd usd) := ⟨_, rfl⟩

/-- Rounding changes no whole number of micro-dollars. -/
theorem IsMicroUsd.roundUsd_eq {usd : ℚ} (h : IsMicroUsd usd) : roundUsd usd = usd := by
  obtain ⟨z, rfl⟩ := h
  have hz : (z : ℚ) / 1000000 * 1000000 + 1 / 2 = z + 1 / 2 := by ring
  have hfloor : ⌊(z : ℚ) + 1 / 2⌋ = z := by
    rw [Int.floor_eq_iff]
    constructor <;> linarith
  rw [roundUsd, hz, hfloor]

/-- Rounding keeps the order. -/
theorem roundUsd_mono {a b : ℚ} (h : a ≤ b) : roundUsd a ≤ roundUsd b := by
  have hfloor : ⌊a * 1000000 + 1 / 2⌋ ≤ ⌊b * 1000000 + 1 / 2⌋ := Int.floor_mono (by linarith)
  have hcast : (⌊a * 1000000 + 1 / 2⌋ : ℚ) ≤ ⌊b * 1000000 + 1 / 2⌋ := by exact_mod_cast hfloor
  unfold roundUsd
  linarith

/-- What is not negative is not rounded below zero. -/
theorem roundUsd_nonneg {usd : ℚ} (h : 0 ≤ usd) : 0 ≤ roundUsd usd := by
  simpa [isMicroUsd_zero.roundUsd_eq] using roundUsd_mono h

/-! ## Token usage -/

/-- `zeroUsage`. -/
def zeroUsage : TokenUsage := { inputTokens := 0, outputTokens := 0, totalTokens := 0 }

/-- `addUsage`: cache fields are kept when they are positive. -/
def addUsage (a b : TokenUsage) : TokenUsage :=
  let cacheRead := a.cacheReadTokens.getD 0 + b.cacheReadTokens.getD 0
  let cacheWrite := a.cacheWriteTokens.getD 0 + b.cacheWriteTokens.getD 0
  { inputTokens := a.inputTokens + b.inputTokens
    outputTokens := a.outputTokens + b.outputTokens
    totalTokens := a.totalTokens + b.totalTokens
    cacheReadTokens := if cacheRead > 0 then some cacheRead else none
    cacheWriteTokens := if cacheWrite > 0 then some cacheWrite else none }

@[simp]
theorem addUsage_totalTokens (a b : TokenUsage) :
    (addUsage a b).totalTokens = a.totalTokens + b.totalTokens := rfl

example : (addUsage zeroUsage zeroUsage).totalTokens = 0 := by decide +kernel

@[simp]
theorem zeroUsage_totalTokens : zeroUsage.totalTokens = 0 := rfl

/-! ## Rate card -/

/-- `ModelCostRate`: dollars for a million tokens. -/
structure ModelCostRate where
  modelId : String
  inputPerMillionUsd : ℚ
  outputPerMillionUsd : ℚ

/-- `MODEL_COST_RATES`. -/
def modelCostRates : List ModelCostRate :=
  [{ modelId := "claude-opus-5", inputPerMillionUsd := 5, outputPerMillionUsd := 25 },
    { modelId := "claude-opus-4-8", inputPerMillionUsd := 5, outputPerMillionUsd := 25 },
    { modelId := "claude-fable-5", inputPerMillionUsd := 10, outputPerMillionUsd := 50 },
    { modelId := "claude-sonnet-5", inputPerMillionUsd := 3, outputPerMillionUsd := 15 },
    { modelId := "claude-haiku-4-5-20251001", inputPerMillionUsd := 1, outputPerMillionUsd := 5 }]

/-- `UNKNOWN_MODEL_FALLBACK_RATE`. -/
def unknownModelFallbackRate : ModelCostRate :=
  { modelId := "__unknown_model_fallback__", inputPerMillionUsd := 10, outputPerMillionUsd := 50 }

/-- The white space `String.prototype.trim` removes. -/
def isTrimmed (c : Char) : Bool :=
  c.val ∈ [0x9, 0xA, 0xB, 0xC, 0xD, 0x20, 0xA0, 0x1680, 0x2028, 0x2029, 0x202F, 0x205F, 0x3000,
    0xFEFF] || (0x2000 ≤ c.val && c.val ≤ 0x200A)

/-- Cut `suffix` off the end, where it is there. -/
def dropSuffix (suffix id : List Char) : List Char :=
  if suffix.isSuffixOf id then id.take (id.length - suffix.length) else id

/-- Cut a dated snapshot off the end: `-20` and six digits. -/
def dropSnapshotDate (id : List Char) : List Char :=
  let tail := id.drop (id.length - 9)
  if tail.length = 9 && ['-', '2', '0'].isPrefixOf tail && (tail.drop 3).all Char.isDigit then
    id.take (id.length - 9)
  else id

/-- `normalizeModelId`: strip a path, the Bedrock prefix, a Vertex snapshot, `-fast` and a date. -/
def normalizeModelId (modelId : String) : String :=
  let id := ((modelId.toList.dropWhile isTrimmed).reverse.dropWhile isTrimmed).reverse
  let id := (id.reverse.takeWhile (· ≠ '/')).reverse
  let id := if "anthropic.".toList.isPrefixOf id then id.drop "anthropic.".toList.length else id
  let id := id.takeWhile (· ≠ '@')
  let id := dropSuffix "-fast".toList id
  String.ofList (dropSnapshotDate id)

/-- `findModelRate`. -/
def findModelRate (modelId : String) : Option ModelCostRate :=
  let norm := normalizeModelId modelId
  (modelCostRates.find? (·.modelId = modelId)).or
    ((modelCostRates.find? (·.modelId = norm)).or
      (modelCostRates.find? (normalizeModelId ·.modelId = norm)))

/-- The rate a model is billed at: an unlisted model pays the ceiling of the card. -/
def effectiveRate (modelId : String) : ModelCostRate :=
  (findModelRate modelId).getD unknownModelFallbackRate

/-- `BATCH_DISCOUNT_MULTIPLIER`. -/
def batchDiscountMultiplier : ℚ := 1 / 2

/-- `priceUsageUsd`. -/
def priceUsageUsd (usage : TokenUsage) (modelId : String) (batch : Bool := false) : ℚ :=
  let rate := effectiveRate modelId
  let cacheRead : ℚ := usage.cacheReadTokens.getD 0
  let cacheWrite : ℚ := usage.cacheWriteTokens.getD 0
  let usd :=
    (usage.inputTokens : ℚ) / 1000000 * rate.inputPerMillionUsd +
      cacheRead / 1000000 * rate.inputPerMillionUsd * (1 / 10) +
      cacheWrite / 1000000 * rate.inputPerMillionUsd * (5 / 4) +
      (usage.outputTokens : ℚ) / 1000000 * rate.outputPerMillionUsd
  roundUsd (if batch then usd * batchDiscountMultiplier else usd)

/-- No rate of the card, and not the fallback either, is negative. -/
theorem effectiveRate_nonneg (modelId : String) :
    0 ≤ (effectiveRate modelId).inputPerMillionUsd ∧
      0 ≤ (effectiveRate modelId).outputPerMillionUsd := by
  have hcard : ∀ rate ∈ modelCostRates, 0 ≤ rate.inputPerMillionUsd ∧ 0 ≤ rate.outputPerMillionUsd := by
    simp [modelCostRates]
  unfold effectiveRate
  cases hrate : findModelRate modelId with
  | none => constructor <;> norm_num [unknownModelFallbackRate]
  | some rate =>
    refine hcard rate ?_
    simp only [findModelRate, Option.or_eq_some_iff] at hrate
    obtain h | ⟨-, h | ⟨-, h⟩⟩ := hrate <;> exact List.mem_of_find?_eq_some h

/-- Every price is a whole number of micro-dollars. -/
theorem isMicroUsd_priceUsageUsd (usage : TokenUsage) (modelId : String) (batch : Bool) :
    IsMicroUsd (priceUsageUsd usage modelId batch) := isMicroUsd_roundUsd _

/-- No price is negative. -/
theorem priceUsageUsd_nonneg (usage : TokenUsage) (modelId : String) (batch : Bool) :
    0 ≤ priceUsageUsd usage modelId batch := by
  obtain ⟨hin, hout⟩ := effectiveRate_nonneg modelId
  refine roundUsd_nonneg ?_
  split
  · unfold batchDiscountMultiplier
    positivity
  · positivity

/-- A usage without cache tokens costs no more than a larger one of the same model. -/
theorem priceUsageUsd_mono {u v : TokenUsage} {modelId : String} (hin : u.inputTokens ≤ v.inputTokens)
    (hout : u.outputTokens ≤ v.outputTokens) (hread : u.cacheReadTokens.getD 0 = 0)
    (hwrite : u.cacheWriteTokens.getD 0 = 0) : priceUsageUsd u modelId ≤ priceUsageUsd v modelId := by
  obtain ⟨hinRate, houtRate⟩ := effectiveRate_nonneg modelId
  have hin' : (u.inputTokens : ℚ) ≤ v.inputTokens := by exact_mod_cast hin
  have hout' : (u.outputTokens : ℚ) ≤ v.outputTokens := by exact_mod_cast hout
  unfold priceUsageUsd
  rw [hread, hwrite]
  refine roundUsd_mono ?_
  simp only [Bool.false_eq_true, if_false, Nat.cast_zero, zero_div, zero_mul, add_zero]
  have hinputs := mul_le_mul_of_nonneg_right (div_le_div_of_nonneg_right hin' (by norm_num : (0 : ℚ) ≤ 1000000)) hinRate
  have houtputs := mul_le_mul_of_nonneg_right (div_le_div_of_nonneg_right hout' (by norm_num : (0 : ℚ) ≤ 1000000)) houtRate
  have hcacheRead : 0 ≤ ((v.cacheReadTokens.getD 0 : ℕ) : ℚ) / 1000000 * (effectiveRate modelId).inputPerMillionUsd * (1 / 10) := by
    positivity
  have hcacheWrite : 0 ≤ ((v.cacheWriteTokens.getD 0 : ℕ) : ℚ) / 1000000 * (effectiveRate modelId).inputPerMillionUsd * (5 / 4) := by
    positivity
  linarith

end MontrSecure
