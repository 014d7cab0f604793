import Mathlib.Data.Int.Log
import Mathlib.Data.List.DropRight
import Mathlib.Data.Rat.Floor
import MontrSecure.Security.SecretFormats

/-!
# Numbers in texts

`Number(s)` for a string: the numeric literal it consists of, rounded to a double. Only the finite
results are kept; `NaN` and the infinities are no value.
-/

namespace MontrSecure

open Text

/-! ## Literals -/

/-- The value of a digit of a base up to 36. -/
def digitValue (c : ℕ) : Option ℕ :=
  if isDecimal c then some (c - unit '0')
  else if isLower c then some (c - unit 'a' + 10)
  else if isUpper c then some (c - unit 'A' + 10) else none

/-- The digits of a base, at least one. -/
def readDigits (base : ℕ) (ds : List ℕ) : Option ℕ :=
  if ds = [] then none
  else
    ds.foldlM (fun n c => (digitValue c).bind fun d => if d < base then some (n * base + d) else none) 0

/-- The part of a decimal literal from `e` on. -/
def readExponent : List ℕ → Option ℤ
  | [] => some 0
  | c :: ds =>
    if c = unit 'e' ∨ c = unit 'E' then
      match ds with
      | [] => none
      | sign :: ds =>
        if sign = unit '-' then (readDigits 10 ds).map fun (n : ℕ) => -(n : ℤ)
        else if sign = unit '+' then (readDigits 10 ds).map Nat.cast
        else (readDigits 10 (sign :: ds)).map Nat.cast
    else none

/-- A decimal literal without a sign. -/
def readUnsigned (text : List ℕ) : Option ℚ :=
  let whole := text.takeWhile isDecimal
  let rest := text.dropWhile isDecimal
  let fraction := if rest.head? = some (unit '.') then rest.tail.takeWhile isDecimal else []
  let exponent := if rest.head? = some (unit '.') then rest.tail.dropWhile isDecimal else rest
  (readDigits 10 (whole ++ fraction)).bind fun n =>
    (readExponent exponent).map fun (e : ℤ) => (n : ℚ) * 10 ^ (e - fraction.length)

/-- A decimal literal, or one of base 16, 8 or 2, without white space around it. -/
def readNumeral : List ℕ → Option ℚ
  | [] => some 0
  | [c] => readUnsigned [c]
  | c :: d :: ds =>
    if c = unit '0' ∧ (d = unit 'x' ∨ d = unit 'X') then (readDigits 16 ds).map Nat.cast
    else if c = unit '0' ∧ (d = unit 'o' ∨ d = unit 'O') then (readDigits 8 ds).map Nat.cast
    else if c = unit '0' ∧ (d = unit 'b' ∨ d = unit 'B') then (readDigits 2 ds).map Nat.cast
    else if c = unit '-' then (readUnsigned (d :: ds)).map fun q => -q
    else if c = unit '+' then readUnsigned (d :: ds)
    else readUnsigned (c :: d :: ds)

/-! ## Doubles -/

/-- The double next to a positive number, the even one of two that are as close. -/
def nearestDouble (q : ℚ) : ℚ :=
  let step : ℚ := 2 ^ max (Int.log 2 q - 52) (-1074)
  let low := ⌊q / step⌋
  let excess := q / step - low
  (if excess < 1 / 2 ∨ excess = 1 / 2 ∧ low % 2 = 0 then low else low + 1) * step

/-- A number as a double, if that is finite. -/
def toDouble (q : ℚ) : Option ℚ :=
  if q = 0 then some 0
  else
    let size := nearestDouble |q|
    if 2 ^ 1024 ≤ size then none else some (if q < 0 then -size else size)

/-- `Number(s)`, if it is finite. -/
def numberOf (text : List ℕ) : Option ℚ :=
  (readNumeral ((text.dropWhile isSpace).rdropWhile isSpace)).bind toDouble

example : numberOf (units " -12.5e1") = some (-125) := by decide +kernel

example : numberOf (units "0x1F") = some 31 := by decide +kernel

example : numberOf (units "5m") = none := by decide +kernel

/-! ## The characters of a literal -/

/-- A character that some numeric literal has. -/
def isNumeralUnit (c : ℕ) : Bool :=
  (digitValue c).any (· < 16) || isOneOf ['.', '+', '-', 'x', 'X', 'o', 'O'] c

variable {base n : ℕ} {ds text : List ℕ} {e : ℤ} {q : ℚ}

theorem numeral_of_readDigits (hbase : base ≤ 16) (h : readDigits base ds = some n) :
    ∀ c ∈ ds, isNumeralUnit c = true := by
  unfold readDigits at h
  split_ifs at h
  -- every digit is read from some number on, whatever was read before it
  generalize 0 = m at h
  clear * - hbase h
  induction ds generalizing m with
  | nil => exact fun c hc => nomatch hc
  | cons d ds ih =>
    rw [List.foldlM_cons] at h
    obtain ⟨m', hm', hrest⟩ := Option.bind_eq_some_iff.mp h
    obtain ⟨v, hv, hlt⟩ := Option.bind_eq_some_iff.mp hm'
    intro c hc
    obtain rfl | hc := List.mem_cons.mp hc
    · split_ifs at hlt with hsmall
      have hv16 : v < 16 := by omega
      simp [isNumeralUnit, hv, hv16]
    · exact ih _ hrest c hc

theorem numeral_of_readExponent (h : readExponent text = some e) : ∀ c ∈ text, isNumeralUnit c = true := by
  have hsigns : ∀ c ∈ [unit 'e', unit 'E', unit '-', unit '+'], isNumeralUnit c = true := by decide
  cases text with
  | nil => exact fun c hc => nomatch hc
  | cons c ds =>
    unfold readExponent at h
    dsimp only at h
    split_ifs at h with hc
    have hfirst : isNumeralUnit c = true := hsigns c (by rcases hc with rfl | rfl <;> simp)
    cases ds with
    | nil => simpa using hfirst
    | cons sign ds =>
      rw [List.forall_mem_cons]
      refine ⟨hfirst, ?_⟩
      dsimp only at h
      split_ifs at h with hminus hplus
      · obtain ⟨n, hn, -⟩ := Option.map_eq_some_iff.mp h
        rw [List.forall_mem_cons, hminus]
        exact ⟨hsigns _ (by simp), numeral_of_readDigits (by decide) hn⟩
      · obtain ⟨n, hn, -⟩ := Option.map_eq_some_iff.mp h
        rw [List.forall_mem_cons, hplus]
        exact ⟨hsigns _ (by simp), numeral_of_readDigits (by decide) hn⟩
      · obtain ⟨n, hn, -⟩ := Option.map_eq_some_iff.mp h
        exact numeral_of_readDigits (by decide) hn

theorem numeral_of_readUnsigned (h : readUnsigned text = some q) : ∀ c ∈ text, isNumeralUnit c = true := by
  unfold readUnsigned at h
  dsimp only at h
  obtain ⟨n, hdigits, h⟩ := Option.bind_eq_some_iff.mp h
  obtain ⟨e, hexponent, -⟩ := Option.map_eq_some_iff.mp h
  have hdigits := numeral_of_readDigits (by decide) hdigits
  have hexponent := numeral_of_readExponent hexponent
  intro c hc
  rw [← List.takeWhile_append_dropWhile (p := isDecimal) (l := text), List.mem_append] at hc
  obtain hwhole | hrest := hc
  · exact hdigits c (List.mem_append_left _ hwhole)
  · split_ifs at hdigits hexponent with hdot
    · -- the point, the digits after it, and the exponent
      obtain ⟨rest, heq⟩ : ∃ rest, text.dropWhile isDecimal = unit '.' :: rest := by
        cases hcases : text.dropWhile isDecimal with
        | nil => rw [hcases] at hdot; cases hdot
        | cons d rest =>
          rw [hcases] at hdot
          cases hdot
          exact ⟨rest, rfl⟩
      rw [heq] at hrest hdigits hexponent
      obtain rfl | hrest := List.mem_cons.mp hrest
      · decide
      · rw [← List.takeWhile_append_dropWhile (p := isDecimal) (l := rest), List.mem_append] at hrest
        obtain hfraction | hafter := hrest
        · exact hdigits c (List.mem_append_right _ hfraction)
        · exact hexponent c hafter
    · exact hexponent c hrest

theorem numeral_of_readNumeral (h : readNumeral text = some q) : ∀ c ∈ text, isNumeralUnit c = true := by
  have hmarks : ∀ c ∈ [unit '0', unit 'x', unit 'X', unit 'o', unit 'O', unit 'b', unit 'B', unit '-',
      unit '+'], isNumeralUnit c = true := by decide
  match text with
  | [] => exact fun c hc => nomatch hc
  | [c] => exact numeral_of_readUnsigned h
  | c :: d :: ds =>
    unfold readNumeral at h
    dsimp only at h
    split_ifs at h with hhex hoct hbin hminus hplus
    · obtain ⟨n, hn, -⟩ := Option.map_eq_some_iff.mp h
      simp only [List.forall_mem_cons]
      exact ⟨hmarks c (by simp [hhex.1]), hmarks d (by rcases hhex.2 with rfl | rfl <;> simp),
        numeral_of_readDigits (by decide) hn⟩
    · obtain ⟨n, hn, -⟩ := Option.map_eq_some_iff.mp h
      simp only [List.forall_mem_cons]
      exact ⟨hmarks c (by simp [hoct.1]), hmarks d (by rcases hoct.2 with rfl | rfl <;> simp),
        numeral_of_readDigits (by decide) hn⟩
    · obtain ⟨n, hn, -⟩ := Option.map_eq_some_iff.mp h
      simp only [List.forall_mem_cons]
      exact ⟨hmarks c (by simp [hbin.1]), hmarks d (by rcases hbin.2 with rfl | rfl <;> simp),
        numeral_of_readDigits (by decide) hn⟩
    · obtain ⟨q, hq, -⟩ := Option.map_eq_some_iff.mp h
      exact List.forall_mem_cons.mpr ⟨hmarks c (by simp [hminus]), numeral_of_readUnsigned hq⟩
    · exact List.forall_mem_cons.mpr ⟨hmarks c (by simp [hplus]), numeral_of_readUnsigned h⟩
    · exact numeral_of_readUnsigned h

/-- A text that is a number has only white space and characters of numeric literals in it. -/
theorem numeral_of_numberOf (h : numberOf text = some q) :
    ∀ c ∈ text, isSpace c = true ∨ isNumeralUnit c = true := by
  obtain ⟨r, hr, -⟩ := Option.bind_eq_some_iff.mp h
  have hmiddle := numeral_of_readNumeral hr
  intro c hc
  rw [← List.takeWhile_append_dropWhile (p := isSpace) (l := text), List.mem_append] at hc
  obtain hbefore | hrest := hc
  · exact .inl (List.mem_takeWhile_imp hbefore)
  · rw [← List.rdropWhile_append_rtakeWhile (p := isSpace) (l := text.dropWhile isSpace),
      List.mem_append] at hrest
    obtain hinside | hafter := hrest
    · exact .inr (hmiddle c hinside)
    · exact .inl (List.mem_rtakeWhile_imp hafter)

end MontrSecure
