import MontrSecure.Api.CronGrammar

/-!
# Where the two readings of a cron expression agree

The documented reading takes decimal numerals and names, the code what `Number` makes an integer of. An
expression means the same in both when its operands and steps are numerals and names and no step overflows.
-/

namespace MontrSecure

open Text

/-- A decimal numeral or a name. -/
def PlainOperand (names : List (String × ℕ)) (a : List ℕ) : Prop := IsNumeral a ∨ (nameValue? names a).isSome

/-- The operands of a range: none of `*`, else what stands between the dashes. -/
def rangeOperands (range : List ℕ) : List (List ℕ) := if range = [unit '*'] then [] else range.splitOn (unit '-')

/-- What stands before the first slash of a term is its range, and what follows are steps. -/
def termOperands (term : List ℕ) : List (List ℕ) := ((term.splitOn (unit '/')).take 1).flatMap rangeOperands

example : termOperands (units "1-5/2") = [units "1", units "5"] := by decide +kernel

def termSteps (term : List ℕ) : List (List ℕ) := (term.splitOn (unit '/')).tail

/-- The operands are numerals or names, and the steps numerals. -/
def PlainTerm (names : List (String × ℕ)) (term : List ℕ) : Prop :=
  (∀ a ∈ termOperands term, PlainOperand names a) ∧ ∀ s ∈ termSteps term, IsNumeral s

/-- No step overflows. -/
def FiniteSteps (_names : List (String × ℕ)) (term : List ℕ) : Prop := ∀ s ∈ termSteps term, (numberOf s).isSome

/-- Every term of every field has the property, which may depend on the names that the field knows. -/
structure CronTokens.Forall (P : List (String × ℕ) → List ℕ → Prop) (tokens : CronTokens) : Prop where
  second : ∀ term ∈ tokens.second.splitOn (unit ','), P [] term
  minute : ∀ term ∈ tokens.minute.splitOn (unit ','), P [] term
  hour : ∀ term ∈ tokens.hour.splitOn (unit ','), P [] term
  dom : ∀ term ∈ tokens.dom.splitOn (unit ','), P [] term
  month : ∀ term ∈ tokens.month.splitOn (unit ','), P monthNames term
  dow : ∀ term ∈ tokens.dow.splitOn (unit ','), P dowNames term

variable {min max : ℕ} {names : List (String × ℕ)} {field part text a s : List ℕ} {values set : Finset ℕ} {n k : ℕ}

/-! ## Operands and steps -/

theorem integerOf_of_numberOf (h : numberOf s = some (k : ℚ)) : integerOf s = some (k : ℤ) := by
  rw [integerOf, h, Option.bind_some, if_pos (Rat.den_natCast k), Rat.num_natCast]

/-- What `Number` makes of a numeral: the number itself, or a large one of a large one. -/
theorem integerOf_of_isNumeral (h : IsNumeral s) (hfinite : (numberOf s).isSome) :
    ∃ k : ℕ, integerOf s = some (k : ℤ) ∧
      (k = decimalValue s ∧ k < 2 ^ 53 ∨ 2 ^ 53 ≤ k ∧ 2 ^ 53 ≤ decimalValue s) := by
  rcases lt_or_ge (decimalValue s) (2 ^ 53) with hlt | hge
  · have hnumber : numberOf s = some ((decimalValue s : ℕ) : ℚ) := by rw [numberOf_of_isNumeral h, toDouble_of_lt hlt]
    exact ⟨_, integerOf_of_numberOf hnumber, .inl ⟨rfl, hlt⟩⟩
  · obtain ⟨q, hq⟩ := Option.isSome_iff_exists.mp hfinite
    have hdouble := hq
    rw [numberOf_of_isNumeral h] at hdouble
    obtain ⟨m, rfl, hm⟩ := toDouble_of_ge hge hdouble
    exact ⟨m, integerOf_of_numberOf hq, .inr ⟨hm, hge⟩⟩

theorem isSome_numberOf {i : ℤ} (h : integerOf s = some i) : (numberOf s).isSome := by
  obtain ⟨q, hq, -⟩ := Option.bind_eq_some_iff.mp h
  rw [hq]
  rfl

/-- Small multiples of two large numbers are 0. -/
theorem dvd_iff_dvd {j k d : ℕ} (h : k = j ∧ k < 2 ^ 53 ∨ 2 ^ 53 ≤ k ∧ 2 ^ 53 ≤ j) (hd : d < 2 ^ 53) : k ∣ d ↔ j ∣ d := by
  rcases h with ⟨rfl, -⟩ | ⟨hk, hj⟩
  · rfl
  · rcases Nat.eq_zero_or_pos d with rfl | hpos
    · simp
    · refine iff_of_false (fun hdvd => ?_) fun hdvd => ?_
      · exact absurd (Nat.le_of_dvd hpos hdvd) (by omega)
      · exact absurd (Nat.le_of_dvd hpos hdvd) (by omega)

theorem resolveNames_of_nameValue? (hnames : ReadableNames names) (h : nameValue? names a = some n) :
    integerOf (resolveNames names a) = some (n : ℤ) := by
  obtain ⟨name, hfind, rfl⟩ := Option.map_eq_some_iff.mp h
  rw [resolveNames, h]
  exact hnames.value name (List.mem_of_find?_eq_some hfind)

theorem nameValue?_of_isNumeral (hnames : ReadableNames names) (h : IsNumeral a) : nameValue? names a = none := by
  have hunits : unit '0' = 48 ∧ unit '9' = 57 ∧ unit 'a' = 97 ∧ unit 'z' = 122 ∧ unit 'A' = 65 ∧ unit 'Z' = 90 := by
    decide
  obtain ⟨c, hc⟩ := List.exists_mem_of_ne_nil a h.1
  refine nameValue?_eq_none hnames hc ?_
  have hdigit := h.2 c hc
  simp only [isDecimal, Bool.and_eq_true, decide_eq_true_eq] at hdigit
  simp only [isLower, isUpper, Bool.and_eq_false_iff, decide_eq_false_iff_not]
  omega

/-- For the numbers that a field can have, the documented operands are those of the code that are plain. -/
theorem documented_operand_iff (hnames : ReadableNames names) (hn : n < 2 ^ 53) :
    documented.operand names a n ↔ byNumber.operand names a n ∧ PlainOperand names a := by
  constructor
  · intro h
    refine ⟨⟨(documented_clean hnames).operand a n h, ?_⟩, h.imp And.left fun h => by rw [h]; rfl⟩
    rcases h with ⟨hnumeral, rfl⟩ | hname
    · rw [resolveNames_of_eq_none (nameValue?_of_isNumeral hnames hnumeral)]
      exact integerOf_of_numberOf (by rw [numberOf_of_isNumeral hnumeral, toDouble_of_lt hn])
    · exact resolveNames_of_nameValue? hnames hname
  · rintro ⟨⟨-, hint⟩, hnumeral | hname⟩
    · rw [resolveNames_of_eq_none (nameValue?_of_isNumeral hnames hnumeral)] at hint
      obtain ⟨k, hk, hvalue⟩ := integerOf_of_isNumeral hnumeral (isSome_numberOf hint)
      have hkn : k = n := by
        rw [hk] at hint
        exact_mod_cast Option.some.inj hint
      refine .inl ⟨hnumeral, ?_⟩
      omega
    · obtain ⟨m, hm⟩ := Option.isSome_iff_exists.mp hname
      rw [resolveNames_of_nameValue? hnames hm] at hint
      have hmn : m = n := by exact_mod_cast Option.some.inj hint
      exact .inr (hmn ▸ hm)

/-! ## Terms -/

theorem documented_range_iff (hnames : ReadableNames names) (hmax : max < 2 ^ 53) {stepped : Bool} {lo hi : ℕ} :
    RangeDenotes documented min max names stepped text lo hi ↔
      RangeDenotes byNumber min max names stepped text lo hi ∧ ∀ a ∈ rangeOperands text, PlainOperand names a := by
  have hsingle {a : List ℕ} {n : ℕ} (h : byNumber.operand names a n) : rangeOperands a = [a] := by
    rw [rangeOperands, if_neg (ne_star_of_operand hnames h)]
    exact List.splitOn_eq_singleton (not_dash_of_operand h)
  have hpair {a b : List ℕ} {m n : ℕ} (ha : byNumber.operand names a m) (hb : byNumber.operand names b n) :
      rangeOperands (a ++ unit '-' :: b) = [a, b] := by
    have hstar : a ++ unit '-' :: b ≠ [unit '*'] := by
      intro heq
      have hmem : unit '-' ∈ [unit '*'] := heq ▸ by simp
      revert hmem
      decide
    rw [rangeOperands, if_neg hstar]
    exact splitOn_eq_pair_iff.mpr ⟨rfl, not_dash_of_operand ha, not_dash_of_operand hb⟩
  constructor
  · rintro (_ | ⟨ha, hlow, hhigh⟩ | ⟨ha, hb, hlow, hle, hhigh⟩)
    · exact ⟨.every, by simp [rangeOperands]⟩
    · obtain ⟨ha, hplain⟩ := (documented_operand_iff hnames (by omega)).mp ha
      exact ⟨.one ha hlow hhigh, by simpa [hsingle ha] using hplain⟩
    · obtain ⟨ha, hplain⟩ := (documented_operand_iff hnames (by omega)).mp ha
      obtain ⟨hb, hplain'⟩ := (documented_operand_iff hnames (by omega)).mp hb
      exact ⟨.range ha hb hlow hle hhigh, by simpa [hpair ha hb] using ⟨hplain, hplain'⟩⟩
  · rintro ⟨_ | ⟨ha, hlow, hhigh⟩ | ⟨ha, hb, hlow, hle, hhigh⟩, hplain⟩
    · exact .every
    · rw [hsingle ha] at hplain
      exact .one ((documented_operand_iff hnames (by omega)).mpr ⟨ha, hplain _ (by simp)⟩) hlow hhigh
    · rw [hpair ha hb] at hplain
      exact .range ((documented_operand_iff hnames (by omega)).mpr ⟨ha, hplain _ (by simp)⟩)
        ((documented_operand_iff hnames (by omega)).mpr ⟨hb, hplain _ (by simp)⟩) hlow hle hhigh

theorem RangeDenotes.le_max {r : CronReading} {stepped : Bool} {lo hi : ℕ}
    (h : RangeDenotes r min max names stepped text lo hi) : hi ≤ max := by
  rcases h with _ | ⟨-, -, hmax⟩ | ⟨-, -, -, -, hmax⟩
  · exact le_refl max
  · rcases stepped with _ | _
    · exact hmax
    · exact le_refl max
  · exact hmax

theorem termParts_of_not_slash (h : unit '/' ∉ text) : termOperands text = rangeOperands text ∧ termSteps text = [] := by
  rw [termOperands, termSteps, splitOn_eq_singleton_iff.mpr ⟨rfl, h⟩]
  simp

theorem termParts_of_slash (h : unit '/' ∉ text) (hs : unit '/' ∉ s) :
    termOperands (text ++ unit '/' :: s) = rangeOperands text ∧ termSteps (text ++ unit '/' :: s) = [s] := by
  rw [termOperands, termSteps, splitOn_eq_pair_iff.mpr ⟨rfl, h, hs⟩]
  simp

/-- The multiples of two steps in a range, which are the same small numbers. -/
theorem filter_dvd_congr {lo hi j : ℕ} (hhi : hi < 2 ^ 53) (h : k = j ∧ k < 2 ^ 53 ∨ 2 ^ 53 ≤ k ∧ 2 ^ 53 ≤ j) :
    ((Finset.Icc lo hi).filter fun v => k ∣ v - lo) = (Finset.Icc lo hi).filter fun v => j ∣ v - lo := by
  apply Finset.filter_congr
  intro v hv
  rw [Finset.mem_Icc] at hv
  exact dvd_iff_dvd h (by omega)

theorem TermDenotes.finiteSteps (h : TermDenotes byNumber min max names text set) : FiniteSteps names text := by
  rcases h with hrange | ⟨hrange, hs, -⟩
  · rw [FiniteSteps, (termParts_of_not_slash (not_slash_of_noCut (hrange.noCut byNumber_clean))).2]
    simp
  · rw [FiniteSteps,
      (termParts_of_slash (not_slash_of_noCut (hrange.noCut byNumber_clean)) (not_slash_of_noCut hs.1)).2]
    simpa using isSome_numberOf hs.2

theorem TermDenotes.plain (hnames : ReadableNames names) (hmax : max < 2 ^ 53)
    (h : TermDenotes documented min max names text set) : PlainTerm names text := by
  have hclean := documented_clean hnames
  rcases h with hrange | ⟨hrange, hs, -⟩
  · obtain ⟨hoperands, hsteps⟩ := termParts_of_not_slash (not_slash_of_noCut (hrange.noCut hclean))
    rw [PlainTerm, hoperands, hsteps]
    exact ⟨((documented_range_iff hnames hmax).mp hrange).2, by simp⟩
  · obtain ⟨hoperands, hsteps⟩ :=
      termParts_of_slash (not_slash_of_noCut (hrange.noCut hclean)) (not_slash_of_noCut (hclean.step _ _ hs))
    rw [PlainTerm, hoperands, hsteps]
    exact ⟨((documented_range_iff hnames hmax).mp hrange).2, by simpa using hs.1⟩

/-- A plain term that the code accepts means what is documented. -/
theorem TermDenotes.documented (hnames : ReadableNames names) (hmax : max < 2 ^ 53)
    (h : TermDenotes byNumber min max names text set) (hplain : PlainTerm names text) :
    TermDenotes MontrSecure.documented min max names text set := by
  rcases h with hrange | ⟨hrange, hs, hpos⟩
  · obtain ⟨hoperands, -⟩ := termParts_of_not_slash (not_slash_of_noCut (hrange.noCut byNumber_clean))
    rw [PlainTerm, hoperands] at hplain
    exact .bare ((documented_range_iff hnames hmax).mpr ⟨hrange, hplain.1⟩)
  · obtain ⟨hoperands, hsteps⟩ :=
      termParts_of_slash (not_slash_of_noCut (hrange.noCut byNumber_clean)) (not_slash_of_noCut hs.1)
    rw [PlainTerm, hoperands, hsteps] at hplain
    have hnumeral := List.forall_mem_singleton.mp hplain.2
    obtain ⟨k, hk, hvalue⟩ := integerOf_of_isNumeral hnumeral (isSome_numberOf hs.2)
    rw [hs.2] at hk
    obtain rfl : _ = k := by exact_mod_cast Option.some.inj hk
    rw [filter_dvd_congr (hrange.le_max.trans_lt hmax) hvalue]
    exact .step ((documented_range_iff hnames hmax).mpr ⟨hrange, hplain.1⟩) ⟨hnumeral, rfl⟩ (by omega)

/-- A documented term without a step that overflows is accepted with its meaning. -/
theorem TermDenotes.byNumber (hnames : ReadableNames names) (hmax : max < 2 ^ 53)
    (h : TermDenotes MontrSecure.documented min max names text set) (hfinite : FiniteSteps names text) :
    TermDenotes MontrSecure.byNumber min max names text set := by
  have hclean := documented_clean hnames
  rcases h with hrange | ⟨hrange, hs, hpos⟩
  · exact .bare ((documented_range_iff hnames hmax).mp hrange).1
  · obtain ⟨-, hsteps⟩ :=
      termParts_of_slash (not_slash_of_noCut (hrange.noCut hclean)) (not_slash_of_noCut (hclean.step _ _ hs))
    rw [FiniteSteps, hsteps] at hfinite
    obtain ⟨k, hk, hvalue⟩ := integerOf_of_isNumeral hs.1 (hfinite _ (List.mem_singleton_self _))
    rw [hs.2] at hvalue
    rw [← filter_dvd_congr (hrange.le_max.trans_lt hmax) hvalue]
    exact .step ((documented_range_iff hnames hmax).mp hrange).1 ⟨hclean.step _ _ hs, hk⟩ (by omega)

/-! ## Fields and expressions -/

variable {r r' : CronReading} {tokens : CronTokens} {f : CronFields} {expr : String}

/-- What a reading makes of a term with some property, another reading makes of it as well. -/
structure CronReading.Carries (r r' : CronReading) (P Q : List (String × ℕ) → List ℕ → Prop) : Prop where
  clean : ∀ names, ReadableNames names → r.Clean names
  clean' : ∀ names, ReadableNames names → r'.Clean names
  term : ∀ {min max : ℕ} {names : List (String × ℕ)} {text : List ℕ} {set : Finset ℕ}, ReadableNames names →
    max < 2 ^ 53 → TermDenotes r min max names text set → P names text →
      TermDenotes r' min max names text set ∧ Q names text

variable {P Q : List (String × ℕ) → List ℕ → Prop}

theorem CronReading.Carries.fieldDenotes (h : r.Carries r' P Q) (hnames : ReadableNames names) (hmax : max < 2 ^ 53)
    (hfield : FieldDenotes r min max names field values) (hterms : ∀ term ∈ field.splitOn (unit ','), P names term) :
    FieldDenotes r' min max names field values ∧ ∀ term ∈ field.splitOn (unit ','), Q names term := by
  obtain ⟨hnil, sets, hsets, hvalues⟩ := (fieldDenotes_iff (h.clean names hnames)).mp hfield
  have hboth := ((List.forall₂_and_left _ _).mpr ⟨hterms, hsets⟩).imp fun term set ht => h.term hnames hmax ht.2 ht.1
  obtain ⟨hterms', hsets'⟩ := (List.forall₂_and_left _ _).mp (hboth.imp fun term set ht => ht.symm)
  exact ⟨(fieldDenotes_iff (h.clean' names hnames)).mpr ⟨hnil, sets, hsets', hvalues⟩, hterms'⟩

theorem CronReading.Carries.cronDenotes (h : r.Carries r' P Q) (hcron : CronDenotes r tokens f)
    (hterms : tokens.Forall P) : CronDenotes r' tokens f ∧ tokens.Forall Q := by
  obtain ⟨hsecond, hsecond'⟩ := h.fieldDenotes readableNames_nil (by decide) hcron.second hterms.second
  obtain ⟨hminute, hminute'⟩ := h.fieldDenotes readableNames_nil (by decide) hcron.minute hterms.minute
  obtain ⟨hhour, hhour'⟩ := h.fieldDenotes readableNames_nil (by decide) hcron.hour hterms.hour
  obtain ⟨hdom, hdom'⟩ := h.fieldDenotes readableNames_nil (by decide) hcron.dom hterms.dom
  obtain ⟨hmonth, hmonth'⟩ := h.fieldDenotes readableNames_month (by decide) hcron.month hterms.month
  obtain ⟨days, hdow, heq⟩ := hcron.dow
  obtain ⟨hdow, hdow'⟩ := h.fieldDenotes readableNames_dow (by decide) hdow hterms.dow
  exact ⟨⟨hsecond, hminute, hhour, hdom, hmonth, days, hdow, heq⟩,
    hsecond', hminute', hhour', hdom', hmonth', hdow'⟩

theorem CronTokens.forall_true : tokens.Forall fun _ _ => True := by
  constructor <;> simp

/-- The documented reading of an expression is the code's when its operands and steps are plain and finite. -/
theorem documented_cron_iff :
    CronDenotes documented tokens f ∧ tokens.Forall FiniteSteps ↔
      CronDenotes byNumber tokens f ∧ tokens.Forall PlainTerm := by
  constructor
  · rintro ⟨h, hfinite⟩
    have hcarries : documented.Carries byNumber FiniteSteps PlainTerm :=
      ⟨fun _ h => documented_clean h, fun _ _ => byNumber_clean,
        fun hnames hmax h hfinite => ⟨h.byNumber hnames hmax hfinite, h.plain hnames hmax⟩⟩
    exact hcarries.cronDenotes h hfinite
  · rintro ⟨h, hplain⟩
    have hcarries : byNumber.Carries documented PlainTerm FiniteSteps :=
      ⟨fun _ _ => byNumber_clean, fun _ h => documented_clean h,
        fun hnames hmax h hplain => ⟨h.documented hnames hmax hplain, h.finiteSteps⟩⟩
    exact hcarries.cronDenotes h hplain

theorem CronDenotes.plain (h : CronDenotes documented tokens f) : tokens.Forall PlainTerm := by
  have hcarries : documented.Carries documented (fun _ _ => True) PlainTerm :=
    ⟨fun _ h => documented_clean h, fun _ h => documented_clean h, fun hnames hmax h _ => ⟨h, h.plain hnames hmax⟩⟩
  exact (hcarries.cronDenotes h CronTokens.forall_true).2

theorem CronDenotes.finiteSteps (h : CronDenotes byNumber tokens f) : tokens.Forall FiniteSteps := by
  have hcarries : byNumber.Carries byNumber (fun _ _ => True) FiniteSteps :=
    ⟨fun _ _ => byNumber_clean, fun _ _ => byNumber_clean, fun _ _ h _ => ⟨h, h.finiteSteps⟩⟩
  exact (hcarries.cronDenotes h CronTokens.forall_true).2

/-- The expression is accepted as documented, neither more nor less, unless an operand or a step that is neither a
numeral nor a name passes for a number, or a step overflows. -/
theorem parseCron_documented_iff (expr : String) :
    ((cronIsValid expr = true ↔ ∃ tokens f, cronTokens? expr = some tokens ∧ CronDenotes documented tokens f) ∧
        ∀ f, parseCron expr = .ok f → ∃ tokens, cronTokens? expr = some tokens ∧ CronDenotes documented tokens f) ↔
      ∀ tokens, cronTokens? expr = some tokens →
        ((∃ f, CronDenotes byNumber tokens f) → tokens.Forall PlainTerm) ∧
          ((∃ f, CronDenotes documented tokens f) → tokens.Forall FiniteSteps) := by
  constructor
  · rintro ⟨hiff, hmeaning⟩ tokens htokens
    refine ⟨?_, ?_⟩
    · rintro ⟨f, hf⟩
      obtain ⟨tokens', f', htokens', hf'⟩ := hiff.mp (cronIsValid_of_denotes htokens hf)
      obtain rfl := Option.some.inj (htokens.symm.trans htokens')
      exact hf'.plain
    · rintro ⟨f, hf⟩
      obtain ⟨g, hg⟩ := cronIsValid_iff.mp (hiff.mpr ⟨tokens, f, htokens, hf⟩)
      obtain ⟨tokens', htokens', hg'⟩ := parseCron_denotes hg
      obtain rfl := Option.some.inj (htokens.symm.trans htokens')
      exact hg'.finiteSteps
  · intro h
    have hmeaning : ∀ f, parseCron expr = .ok f → ∃ tokens, cronTokens? expr = some tokens ∧
        CronDenotes documented tokens f := by
      intro f hf
      obtain ⟨tokens, htokens, hdenotes⟩ := parseCron_denotes hf
      exact ⟨tokens, htokens, (documented_cron_iff.mpr ⟨hdenotes, (h tokens htokens).1 ⟨f, hdenotes⟩⟩).1⟩
    refine ⟨⟨fun hv => ?_, ?_⟩, hmeaning⟩
    · obtain ⟨f, hf⟩ := cronIsValid_iff.mp hv
      obtain ⟨tokens, htokens, hdenotes⟩ := hmeaning f hf
      exact ⟨tokens, f, htokens, hdenotes⟩
    · rintro ⟨tokens, f, htokens, hdenotes⟩
      exact cronIsValid_of_denotes htokens
        (documented_cron_iff.mp ⟨hdenotes, (h tokens htokens).2 ⟨f, hdenotes⟩⟩).1

/-- Minute 16 in hexadecimal is accepted. -/
theorem parseCron_hexadecimal :
    ¬((cronIsValid "0x10 * * * *" = true ↔ ∃ tokens f, cronTokens? "0x10 * * * *" = some tokens ∧
          CronDenotes documented tokens f) ∧
        ∀ f, parseCron "0x10 * * * *" = .ok f → ∃ tokens, cronTokens? "0x10 * * * *" = some tokens ∧
          CronDenotes documented tokens f) := by
  rintro ⟨hiff, -⟩
  obtain ⟨tokens, f, htokens, h⟩ := hiff.mp (by decide +kernel)
  have hminute : (cronTokens? "0x10 * * * *").map (·.minute) = some (units "0x10") := by decide +kernel
  rw [htokens] at hminute
  have hminute : tokens.minute = units "0x10" := Option.some.inj hminute
  have hplain := h.plain.minute
  rw [hminute] at hplain
  have hoperand := (hplain (units "0x10") (by decide +kernel)).1 (units "0x10") (by decide +kernel)
  have hexotic : ¬(IsNumeral (units "0x10") ∨ (nameValue? [] (units "0x10")).isSome) := by decide +kernel
  exact hexotic hoperand

end MontrSecure
