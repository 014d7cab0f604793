import Mathlib.Tactic.Linarith
import MontrSecure.Js.Number

/-!
# Decimal numerals

What `Number` makes of a run of decimal digits: the number it denotes, rounded. A number below 2^53 is not
rounded, and none above is rounded below that.
-/

namespace MontrSecure

open Text

/-- The text is a run of decimal digits. -/
def IsNumeral (text : List ℕ) : Prop := text ≠ [] ∧ ∀ c ∈ text, isDecimal c = true

instance (text : List ℕ) : Decidable (IsNumeral text) := inferInstanceAs (Decidable (_ ∧ _))

/-- The number that the digits denote. -/
def decimalValue (text : List ℕ) : ℕ := text.foldl (fun n c => n * 10 + (c - unit '0')) 0

variable {text : List ℕ}

/-! ## Reading -/

theorem digitValue_of_isDecimal {c : ℕ} (h : isDecimal c = true) :
    digitValue c = some (c - unit '0') ∧ c - unit '0' < 10 := by
  have hunits : unit '0' = 48 ∧ unit '9' = 57 := by decide
  refine ⟨by rw [digitValue, if_pos h], ?_⟩
  simp only [isDecimal, Bool.and_eq_true, decide_eq_true_eq] at h
  omega

theorem readDigits_of_isNumeral (h : IsNumeral text) : readDigits 10 text = some (decimalValue text) := by
  rw [readDigits, if_neg h.1, decimalValue]
  generalize 0 = n
  have hdigits := h.2
  clear h
  induction text generalizing n with
  | nil => rfl
  | cons c text ih =>
    obtain ⟨hc, hdigits⟩ := List.forall_mem_cons.mp hdigits
    obtain ⟨hvalue, hlt⟩ := digitValue_of_isDecimal hc
    rw [List.foldlM_cons, hvalue, Option.bind_some, if_pos hlt, List.foldl_cons]
    exact ih _ hdigits

theorem readUnsigned_of_isNumeral (h : IsNumeral text) : readUnsigned text = some (decimalValue text : ℚ) := by
  have htake : text.takeWhile isDecimal = text := List.takeWhile_eq_self_iff.mpr h.2
  have hdrop : text.dropWhile isDecimal = [] := List.dropWhile_eq_nil_iff.mpr h.2
  simp [readUnsigned, htake, hdrop, readDigits_of_isNumeral h, readExponent]

theorem readNumeral_of_isNumeral (h : IsNumeral text) : readNumeral text = some (decimalValue text : ℚ) := by
  rcases text with _ | ⟨c, _ | ⟨d, text⟩⟩
  · exact absurd rfl h.1
  · exact readUnsigned_of_isNumeral h
  · -- Two digits are no prefix of a base, and a digit is no sign.
    have hunits : unit '0' = 48 ∧ unit '9' = 57 ∧ unit 'x' = 120 ∧ unit 'X' = 88 ∧ unit 'o' = 111 ∧ unit 'O' = 79 ∧
        unit 'b' = 98 ∧ unit 'B' = 66 ∧ unit '-' = 45 ∧ unit '+' = 43 := by decide
    have hc := h.2 c (by simp)
    have hd := h.2 d (by simp)
    simp only [isDecimal, Bool.and_eq_true, decide_eq_true_eq] at hc hd
    rw [readNumeral, if_neg (by omega), if_neg (by omega), if_neg (by omega), if_neg (by omega), if_neg (by omega)]
    exact readUnsigned_of_isNumeral h

theorem isSpace_of_isDecimal {c : ℕ} (h : isDecimal c = true) : isSpace c = false := by
  have hunits : unit '0' = 48 ∧ unit '9' = 57 := by decide
  simp only [isDecimal, Bool.and_eq_true, decide_eq_true_eq] at h
  simp only [isSpace, Bool.or_eq_false_iff, Bool.and_eq_false_iff, decide_eq_false_iff_not]
  omega

/-- White space around a text without any is none. -/
theorem trim_eq_self (h : ∀ c ∈ text, isSpace c = false) : (text.dropWhile isSpace).rdropWhile isSpace = text := by
  have hleft : text.dropWhile isSpace = text := by
    rcases text with _ | ⟨c, text⟩
    · rfl
    · simp [h c (by simp)]
  rw [hleft, List.rdropWhile_eq_self_iff]
  intro hne
  simp [h _ (List.getLast_mem hne)]

/-- `text.trim()`. -/
def trimUnits (text : List ℕ) : List ℕ := (text.dropWhile isSpace).rdropWhile isSpace

theorem trimUnits_eq_self (h : ∀ c ∈ text, isSpace c = false) : trimUnits text = text := trim_eq_self h

theorem numberOf_of_isNumeral (h : IsNumeral text) : numberOf text = toDouble (decimalValue text) := by
  rw [numberOf, trim_eq_self fun c hc => isSpace_of_isDecimal (h.2 c hc), readNumeral_of_isNumeral h, Option.bind_some]

/-! ## Writing -/

theorem units_toString (n : ℕ) : units (toString n) = (Nat.toDigits 10 n).map unit := by
  rw [units_of_ascii fun c hc => ascii_of_isDigit (isDigit_of_mem_toString hc), Nat.toString_eq_ofList_toDigits,
    String.toList_ofList]

theorem isNumeral_toString (n : ℕ) : IsNumeral (units (toString n)) := by
  rw [units_toString]
  refine ⟨by simp [Nat.toDigits_ne_nil], fun c hc => ?_⟩
  obtain ⟨d, hd, rfl⟩ := List.mem_map.mp hc
  have hdigit := Nat.isDigit_of_mem_toDigits (by decide) (by decide) hd
  rw [Char.isDigit, Bool.and_eq_true, decide_eq_true_eq, decide_eq_true_eq] at hdigit
  simp only [isDecimal, Bool.and_eq_true, decide_eq_true_eq]
  exact hdigit

/-- The digits of a number denote it. -/
theorem decimalValue_toString (n : ℕ) : decimalValue (units (toString n)) = n := by
  rw [units_toString, decimalValue, List.foldl_map]
  calc (Nat.toDigits 10 n).foldl (fun m c => m * 10 + (unit c - unit '0')) 0
      = Nat.ofDigitChars 10 (Nat.toDigits 10 n) 0 := by simp only [Nat.ofDigitChars, Nat.mul_comm]
    _ = n := Nat.ofDigitChars_ten_toDigits

/-! ## Rounding -/

/-- An integer multiple of the distance between doubles is not rounded. -/
theorem nearestDouble_of_dvd {q : ℚ} {k : ℤ} (h : q / 2 ^ max (Int.log 2 q - 52) (-1074) = k) :
    nearestDouble q = q := by
  have hpos : (2 : ℚ) ^ max (Int.log 2 q - 52) (-1074) ≠ 0 := zpow_ne_zero _ two_ne_zero
  have hround : ((k : ℚ) - (k : ℤ) < 1 / 2 ∨ (k : ℚ) - (k : ℤ) = 1 / 2 ∧ k % 2 = 0) := .inl (by norm_num)
  unfold nearestDouble
  simp only [h, Int.floor_intCast, if_pos hround]
  rw [← h, div_mul_cancel₀ _ hpos]

/-- A number is rounded down or up to a multiple of the distance between doubles. -/
theorem nearestDouble_cases (q : ℚ) :
    ∃ k : ℤ, nearestDouble q = k * 2 ^ max (Int.log 2 q - 52) (-1074) ∧
      ⌊q / 2 ^ max (Int.log 2 q - 52) (-1074)⌋ ≤ k := by
  unfold nearestDouble
  dsimp only
  split
  · exact ⟨_, rfl, le_refl _⟩
  · exact ⟨⌊q / 2 ^ max (Int.log 2 q - 52) (-1074)⌋ + 1, by push_cast; rfl, by omega⟩

theorem max_log (n : ℕ) (hn : 0 < n) : max (Int.log 2 (n : ℚ) - 52) (-1074) = Int.log 2 (n : ℚ) - 52 := by
  have : 0 ≤ Int.log 2 (n : ℚ) := by
    rw [← Int.zpow_le_iff_le_log (by norm_num) (by exact_mod_cast hn)]
    exact_mod_cast hn
  omega

theorem nearestDouble_of_lt {n : ℕ} (hpos : 0 < n) (h : n < 2 ^ 53) : nearestDouble n = n := by
  have hq : (0 : ℚ) < n := by exact_mod_cast hpos
  have hlog : Int.log 2 (n : ℚ) < 53 := by
    rw [← Int.lt_zpow_iff_log_lt (by norm_num) hq]
    exact_mod_cast h
  obtain ⟨e, he⟩ : ∃ e : ℕ, 52 - Int.log 2 (n : ℚ) = e := ⟨(52 - Int.log 2 (n : ℚ)).toNat, by omega⟩
  have hstep : (n : ℚ) / 2 ^ max (Int.log 2 (n : ℚ) - 52) (-1074) = ((n * 2 ^ e : ℤ) : ℚ) := by
    rw [max_log n hpos, show Int.log 2 (n : ℚ) - 52 = -(e : ℤ) by omega, zpow_neg, div_inv_eq_mul, zpow_natCast]
    push_cast
    rfl
  exact nearestDouble_of_dvd hstep

theorem nearestDouble_of_ge {n : ℕ} (h : 2 ^ 53 ≤ n) : ∃ m : ℕ, nearestDouble n = m ∧ 2 ^ 53 ≤ m := by
  have hpos : 0 < n := by omega
  have hq : (0 : ℚ) < n := by exact_mod_cast hpos
  have hlog : 53 ≤ Int.log 2 (n : ℚ) := by
    rw [← Int.zpow_le_iff_le_log (by norm_num) hq]
    exact_mod_cast h
  obtain ⟨e, he⟩ : ∃ e : ℕ, Int.log 2 (n : ℚ) - 52 = e := ⟨(Int.log 2 (n : ℚ) - 52).toNat, by omega⟩
  obtain ⟨k, hk, hle⟩ := nearestDouble_cases (n : ℚ)
  rw [max_log n hpos, he, zpow_natCast] at hk hle
  -- The number is at least 2^52 such distances.
  have hlow : (2 ^ 52 : ℤ) ≤ k := by
    refine le_trans ?_ hle
    rw [Int.le_floor, le_div_iff₀ (by positivity)]
    have := Int.zpow_log_le_self (b := 2) (by norm_num) hq
    rw [show Int.log 2 (n : ℚ) = ((52 + e : ℕ) : ℤ) by push_cast; omega, zpow_natCast, pow_add] at this
    exact_mod_cast this
  have he1 : 1 ≤ e := by omega
  refine ⟨k.toNat * 2 ^ e, ?_, ?_⟩
  · rw [hk]
    push_cast
    congr 1
    exact_mod_cast (Int.toNat_of_nonneg (show 0 ≤ k by omega)).symm
  · have hk52 : 2 ^ 52 ≤ k.toNat := by omega
    calc 2 ^ 53 = 2 ^ 52 * 2 ^ 1 := by norm_num
      _ ≤ k.toNat * 2 ^ e := Nat.mul_le_mul hk52 (Nat.pow_le_pow_right (by norm_num) he1)

theorem toDouble_of_lt {n : ℕ} (h : n < 2 ^ 53) : toDouble n = some (n : ℚ) := by
  rcases Nat.eq_zero_or_pos n with rfl | hpos
  · simp [toDouble]
  · have hq : (0 : ℚ) < n := by exact_mod_cast hpos
    have hsmall : ¬(2 : ℚ) ^ 1024 ≤ n := by
      have hlt : (n : ℚ) < 2 ^ 53 := by exact_mod_cast h
      exact not_le.mpr (hlt.trans_le (pow_le_pow_right₀ one_le_two (by decide)))
    simp only [toDouble, abs_of_pos hq, nearestDouble_of_lt hpos h]
    rw [if_neg hq.ne', if_neg hsmall, if_neg (not_lt.mpr hq.le)]

theorem toDouble_of_le {n : ℕ} (h : n ≤ 2 ^ 53) : toDouble n = some (n : ℚ) := by
  rcases h.lt_or_eq with hlt | rfl
  · exact toDouble_of_lt hlt
  · exact (by decide +kernel : toDouble ((2 ^ 53 : ℕ) : ℚ) = some ((2 ^ 53 : ℕ) : ℚ))

/-- A large number overflows or is rounded to a large integer. -/
theorem toDouble_of_ge {n : ℕ} (h : 2 ^ 53 ≤ n) {q : ℚ} (hq : toDouble n = some q) :
    ∃ m : ℕ, q = m ∧ 2 ^ 53 ≤ m := by
  have hpos : (0 : ℚ) < n := by exact_mod_cast (show 0 < n by omega)
  obtain ⟨m, hm, hle⟩ := nearestDouble_of_ge h
  simp only [toDouble, abs_of_pos hpos, hm] at hq
  rw [if_neg hpos.ne', if_neg (not_lt.mpr hpos.le)] at hq
  split_ifs at hq
  exact ⟨m, (Option.some.inj hq).symm, hle⟩

end MontrSecure
