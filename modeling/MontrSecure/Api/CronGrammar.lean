import MontrSecure.Api.Cron
import MontrSecure.Api.Http
import MontrSecure.Text.Splitting

/-!
# The grammar of cron expressions

What the comment of the evaluator says an expression is, and what it denotes. The grammar leaves open how an
operand is read. Read as a decimal numeral or a name it is the documented one; read as `Number` reads it, it is
what the code accepts. The two differ at operands that are neither, and at steps that overflow.
-/

namespace MontrSecure

open Fallible Text

/-! ## Grammars -/

/-- How the operands of terms and the steps are read. -/
structure CronReading where
  operand : List (String × ℕ) → List ℕ → ℕ → Prop
  step : List ℕ → ℕ → Prop

section Grammar

variable (r : CronReading) (min max : ℕ) (names : List (String × ℕ))

/-- A text for a range, and its ends; with a step, a range that begins at a number goes up to the maximum. -/
inductive RangeDenotes (stepped : Bool) : List ℕ → ℕ → ℕ → Prop where
  | every : RangeDenotes stepped [unit '*'] min max
  | one {a : List ℕ} {n : ℕ} (ha : r.operand names a n) (hmin : min ≤ n) (hmax : n ≤ max) :
      RangeDenotes stepped a n (if stepped then max else n)
  | range {a b : List ℕ} {m n : ℕ} (ha : r.operand names a m) (hb : r.operand names b n) (hmin : min ≤ m)
      (hle : m ≤ n) (hmax : n ≤ max) : RangeDenotes stepped (a ++ unit '-' :: b) m n

/-- A text for a term, and the numbers it denotes. -/
inductive TermDenotes : List ℕ → Finset ℕ → Prop where
  | bare {text : List ℕ} {lo hi : ℕ} (h : RangeDenotes r min max names false text lo hi) :
      TermDenotes text (Finset.Icc lo hi)
  | step {text s : List ℕ} {lo hi k : ℕ} (h : RangeDenotes r min max names true text lo hi) (hs : r.step s k)
      (hk : 0 < k) : TermDenotes (text ++ unit '/' :: s) ((Finset.Icc lo hi).filter fun v => k ∣ v - lo)

/-- A text for a field is a list of terms with commas between them. -/
def FieldDenotes (field : List ℕ) (values : Finset ℕ) : Prop :=
  ∃ terms sets, terms ≠ [] ∧ [unit ','].intercalate terms = field ∧ (∀ term ∈ terms, term ≠ []) ∧
    List.Forall₂ (TermDenotes r min max names) terms sets ∧ ∀ v, v ∈ values ↔ ∃ set ∈ sets, v ∈ set

end Grammar

/-- The fields of an expression. -/
structure CronTokens where
  second : List ℕ
  minute : List ℕ
  hour : List ℕ
  dom : List ℕ
  month : List ℕ
  dow : List ℕ

/-- Five or six fields; without one for the seconds, they are zero. -/
def cronTokens? (expr : String) : Option CronTokens :=
  match cronTokens expr with
  | [minute, hour, dom, month, dow] => some { second := units "0", minute, hour, dom, month, dow }
  | [second, minute, hour, dom, month, dow] => some { second, minute, hour, dom, month, dow }
  | _ => none

/-- What an expression denotes. The days of the week go up to 7, which is Sunday as 0 is. -/
structure CronDenotes (r : CronReading) (tokens : CronTokens) (f : CronFields) : Prop where
  second : FieldDenotes r 0 59 [] tokens.second f.second
  minute : FieldDenotes r 0 59 [] tokens.minute f.minute
  hour : FieldDenotes r 0 23 [] tokens.hour f.hour
  dom : FieldDenotes r 1 31 [] tokens.dom f.dom
  month : FieldDenotes r 1 12 monthNames tokens.month f.month
  dow : ∃ days, FieldDenotes r 0 7 dowNames tokens.dow days ∧ f.dow = days.image fun v => if v = 7 then 0 else v

/-! ## Two readings -/

/-- The operand is a decimal numeral or a name, and a step a decimal numeral. -/
def documented : CronReading where
  operand names a n := IsNumeral a ∧ decimalValue a = n ∨ nameValue? names a = some n
  step s k := IsNumeral s ∧ decimalValue s = k

/-- What a text with a comma, a slash or white space is split or trimmed at. -/
def isCut (c : ℕ) : Bool := c = unit ',' || c = unit '/' || isSpace c

/-- The operand is what `Number` makes an integer of, names resolved; and so is a step. -/
def byNumber : CronReading where
  operand names a n :=
    (∀ c ∈ a, isCut c = false ∧ c ≠ unit '-') ∧ integerOf (resolveNames names a) = some (n : ℤ)
  step s k := (∀ c ∈ s, isCut c = false) ∧ integerOf s = some (k : ℤ)

/-- The names are words in lower case for numbers that `Number` reads back. -/
structure ReadableNames (names : List (String × ℕ)) : Prop where
  lower : ∀ name ∈ names, ∀ c ∈ units name.1, isLower c = true
  value : ∀ name ∈ names, integerOf (units (toString name.2)) = some (name.2 : ℤ)

theorem readableNames_nil : ReadableNames [] := ⟨by simp, by simp⟩

theorem readableNames_of_all {names : List (String × ℕ)}
    (h : names.all (fun name => (units name.1).all isLower &&
      decide (integerOf (units (toString name.2)) = some (name.2 : ℤ))) = true) : ReadableNames names := by
  have hall := List.all_eq_true.mp h
  simp only [Bool.and_eq_true, decide_eq_true_eq, List.all_eq_true] at hall
  exact ⟨fun name hname => (hall name hname).1, fun name hname => (hall name hname).2⟩

theorem readableNames_month : ReadableNames monthNames := readableNames_of_all (by decide +kernel)

theorem readableNames_dow : ReadableNames dowNames := readableNames_of_all (by decide +kernel)

/-! ## Terms -/

variable {min max : ℕ} {names : List (String × ℕ)} {field part text : List ℕ} {values : Finset ℕ}

/-- A token with a character that is no letter is no name. -/
theorem nameValue?_eq_none (hnames : ReadableNames names) {c : ℕ} (hc : c ∈ text)
    (hletter : isLower c = false ∧ isUpper c = false) : nameValue? names text = none := by
  rw [nameValue?, Option.map_eq_none_iff, List.find?_eq_none]
  intro name hname heq
  have hmem : c ∈ lowerUnits text := List.mem_map.mpr ⟨c, hc, by simp [hletter.2]⟩
  rw [← of_decide_eq_true heq] at hmem
  rw [hnames.lower name hname c hmem] at hletter
  cases hletter.1

theorem resolveNames_of_eq_none (h : nameValue? names text = none) : resolveNames names text = text := by
  rw [resolveNames, h]

theorem ne_star_of_operand (hnames : ReadableNames names) {a : List ℕ} {n : ℕ} (h : byNumber.operand names a n) :
    a ≠ [unit '*'] := by
  rintro rfl
  have hnone : integerOf [unit '*'] = none := by decide +kernel
  have hint := h.2
  rw [resolveNames_of_eq_none (nameValue?_eq_none hnames (List.mem_singleton_self (unit '*')) (by decide)), hnone] at hint
  cases hint

/-- What a reading makes sense of has none of the characters that separate operands and steps. -/
structure CronReading.Clean (r : CronReading) (names : List (String × ℕ)) : Prop where
  operand : ∀ a n, r.operand names a n → ∀ c ∈ a, isCut c = false ∧ c ≠ unit '-'
  step : ∀ s k, r.step s k → ∀ c ∈ s, isCut c = false

theorem byNumber_clean : byNumber.Clean names := ⟨fun _ _ h => h.1, fun _ _ h => h.1⟩

theorem noCut_of_isNumeral {a : List ℕ} (h : IsNumeral a) : ∀ c ∈ a, isCut c = false ∧ c ≠ unit '-' := by
  have hunits : unit '0' = 48 ∧ unit '9' = 57 ∧ unit ',' = 44 ∧ unit '/' = 47 ∧ unit '-' = 45 := by decide
  intro c hc
  have hdigit := h.2 c hc
  have hspace := isSpace_of_isDecimal hdigit
  simp only [isDecimal, Bool.and_eq_true, decide_eq_true_eq] at hdigit
  simp only [isCut, hspace, Bool.or_false, Bool.or_eq_false_iff, decide_eq_false_iff_not]
  omega

theorem noCut_of_nameValue? (hnames : ReadableNames names) {a : List ℕ} {n : ℕ} (h : nameValue? names a = some n) :
    ∀ c ∈ a, isCut c = false ∧ c ≠ unit '-' := by
  have hunits : unit 'a' = 97 ∧ unit 'z' = 122 ∧ unit 'A' = 65 ∧ unit 'Z' = 90 ∧ unit ',' = 44 ∧ unit '/' = 47 ∧
      unit '-' = 45 := by decide
  obtain ⟨name, hfind, -⟩ := Option.map_eq_some_iff.mp h
  intro c hc
  have hmem : (if isUpper c then c + 0x20 else c) ∈ lowerUnits a := List.mem_map_of_mem hc
  have hname : units name.1 = lowerUnits a := of_decide_eq_true (List.find?_some hfind :)
  rw [← hname] at hmem
  -- A letter in either case.
  have hletter : isLower c = true ∨ isUpper c = true := by
    by_cases hupper : isUpper c = true
    · exact .inr hupper
    · rw [if_neg hupper] at hmem
      exact .inl (hnames.lower name (List.mem_of_find?_eq_some hfind) c hmem)
  simp only [isLower, isUpper, Bool.and_eq_true, decide_eq_true_eq] at hletter
  simp only [isCut, isSpace, Bool.or_eq_false_iff, Bool.and_eq_false_iff, decide_eq_false_iff_not]
  omega

theorem documented_clean (hnames : ReadableNames names) : documented.Clean names where
  operand _ _ h := h.elim (fun h => noCut_of_isNumeral h.1) fun h => noCut_of_nameValue? hnames h
  step _ _ h := fun c hc => (noCut_of_isNumeral h.1 c hc).1

section Clean

variable {r : CronReading} (hr : r.Clean names) {set : Finset ℕ}
include hr

theorem RangeDenotes.noCut {stepped : Bool} {lo hi : ℕ} (h : RangeDenotes r min max names stepped text lo hi) :
    ∀ c ∈ text, isCut c = false := by
  rcases h with _ | ⟨ha, -, -⟩ | ⟨ha, hb, -, -, -⟩
  · decide
  · exact fun c hc => (hr.operand _ _ ha c hc).1
  · intro c hc
    rcases List.mem_append.mp hc with hc | hc
    · exact (hr.operand _ _ ha c hc).1
    · rcases List.mem_cons.mp hc with rfl | hc
      · decide
      · exact (hr.operand _ _ hb c hc).1

end Clean

theorem not_slash_of_noCut (h : ∀ c ∈ text, isCut c = false) : unit '/' ∉ text := by
  intro hmem
  have := h _ hmem
  revert this
  decide

theorem not_dash_of_operand {a : List ℕ} {n : ℕ} (h : byNumber.operand names a n) : unit '-' ∉ a :=
  fun hmem => (h.1 _ hmem).2 rfl

theorem operand_of_integerOf {a : List ℕ} {i : ℤ} (hcut : ∀ c ∈ a, isCut c = false) (hdash : unit '-' ∉ a)
    (hint : integerOf (resolveNames names a) = some i) (hmin : (min : ℤ) ≤ i) :
    ∃ n : ℕ, i = n ∧ min ≤ n ∧ byNumber.operand names a n := by
  lift i to ℕ using by omega
  exact ⟨i, rfl, by exact_mod_cast hmin, fun c hc => ⟨hcut c hc, fun heq => hdash (heq ▸ hc)⟩, hint⟩

/-- The ends of a range that the code accepts. -/
theorem parseRange_eq_ok (hnames : ReadableNames names) {stepped : Bool} {lo hi : ℤ}
    (hcut : ∀ c ∈ text, isCut c = false) :
    (parseRange min max names text stepped = .ok (some lo, some hi) ∧ (min : ℤ) ≤ lo ∧ hi ≤ max ∧ lo ≤ hi) ↔
      ∃ m n : ℕ, lo = m ∧ hi = n ∧ m ≤ n ∧ RangeDenotes byNumber min max names stepped text m n := by
  rw [parseRange]
  constructor
  · rintro ⟨h, hmin, hmax, hle⟩
    split at h
    · rename_i hstar
      simp only [Except.ok.injEq, Prod.mk.injEq, Option.some.injEq] at h
      obtain ⟨rfl, rfl⟩ := h
      exact ⟨min, max, rfl, rfl, by exact_mod_cast hle, hstar ▸ .every⟩
    split at h
    · -- Two operands on both sides of a dash.
      rename_i hdash
      split at h
      · rename_i a b hsplit
        simp only [Except.ok.injEq, Prod.mk.injEq] at h
        obtain ⟨rfl, ha, hb⟩ := splitOn_eq_pair_iff.mp hsplit
        obtain ⟨m, rfl, hm, hoperand⟩ :=
          operand_of_integerOf (fun c hc => hcut c (by simp [hc])) ha h.1 hmin
        obtain ⟨n, rfl, -, hoperand'⟩ :=
          operand_of_integerOf (fun c hc => hcut c (by simp [hc])) hb h.2 (hmin.trans hle)
        exact ⟨m, n, rfl, rfl, by exact_mod_cast hle,
          .range hoperand hoperand' hm (by exact_mod_cast hle) (by exact_mod_cast hmax)⟩
      · cases h
    · rename_i hdash
      simp only [Except.ok.injEq, Prod.mk.injEq] at h
      obtain ⟨hlo, hhi⟩ := h
      obtain ⟨n, rfl, hn, hoperand⟩ := operand_of_integerOf hcut hdash hlo hmin
      have hone : n ≤ max := by exact_mod_cast hle.trans hmax
      have hend : hi = ((if stepped then max else n : ℕ) : ℤ) := by
        rw [hlo] at hhi
        rcases stepped with _ | _
        · exact (Option.some.inj hhi).symm
        · exact (Option.some.inj hhi).symm
      exact ⟨n, _, rfl, hend, by rw [hend] at hle; exact_mod_cast hle, .one hoperand hn hone⟩
  · rintro ⟨m, n, rfl, rfl, hle, h⟩
    rcases h with _ | ⟨ha, hmin, hmax⟩ | ⟨ha, hb, hmin, -, hmax⟩
    · rw [if_pos rfl]
      exact ⟨rfl, le_refl _, le_refl _, by exact_mod_cast hle⟩
    · rw [if_neg (ne_star_of_operand hnames ha), if_neg (not_dash_of_operand ha), ha.2]
      refine ⟨by cases stepped <;> rfl, by exact_mod_cast hmin, ?_, by exact_mod_cast hle⟩
      rcases stepped with _ | _
      · exact_mod_cast hmax
      · exact le_refl _
    · rename_i a b
      have hstar : a ++ unit '-' :: b ≠ [unit '*'] := by
        intro heq
        have hmem : unit '-' ∈ [unit '*'] := heq ▸ by simp
        revert hmem
        decide
      have hsplit : (a ++ unit '-' :: b).splitOn (unit '-') = [a, b] :=
        splitOn_eq_pair_iff.mpr ⟨rfl, not_dash_of_operand ha, not_dash_of_operand hb⟩
      rw [if_neg hstar, if_pos (by simp), hsplit]
      simp only [ha.2, hb.2, true_and]
      exact ⟨by exact_mod_cast hmin, by exact_mod_cast hmax, by exact_mod_cast hle⟩

theorem parseStep_eq_ok {s : List ℕ} {k : ℕ} :
    parseStep (some s) = .ok k ↔ 0 < k ∧ integerOf s = some (k : ℤ) := by
  rw [parseStep]
  rcases hint : integerOf s with _ | i
  · simp
  · by_cases hpos : 0 < i
    · simp only [if_pos hpos, Except.ok.injEq, Option.some.injEq]
      omega
    · simp only [if_neg hpos, Option.some.injEq]
      constructor
      · intro h
        cases h
      · omega

/-- The loop makes the numbers of the range that lie a multiple of the step above its beginning. -/
theorem mem_valuesFrom {lo hi k v : ℕ} (hk : 0 < k) (hle : lo ≤ hi) :
    v ∈ valuesFrom lo hi k ↔ v ∈ (Finset.Icc lo hi).filter fun v => k ∣ v - lo := by
  simp only [valuesFrom, List.mem_toFinset, List.mem_map, List.mem_range, Finset.mem_filter, Finset.mem_Icc,
    Nat.lt_succ_iff, Nat.le_div_iff_mul_le hk]
  constructor
  · rintro ⟨i, hi, rfl⟩
    refine ⟨by omega, ?_⟩
    rw [Nat.add_sub_cancel_left]
    exact dvd_mul_left k i
  · rintro ⟨hrange, i, hi⟩
    refine ⟨i, ?_, ?_⟩
    · rw [Nat.mul_comm i k, ← hi]
      omega
    · rw [Nat.mul_comm i k, ← hi]
      omega

theorem valuesFrom_one {lo hi : ℕ} (hle : lo ≤ hi) : valuesFrom lo hi 1 = Finset.Icc lo hi := by
  ext v
  rw [mem_valuesFrom one_pos hle]
  simp

example : valuesFrom 1 9 4 = {1, 5, 9} := by decide +kernel

/-- The values that the code finds for a range and a step. -/
theorem parseSplitTerm_eq_ok (hnames : ReadableNames names) {stepToken : Option (List ℕ)} {set : Finset ℕ}
    (hcut : ∀ c ∈ text, isCut c = false) :
    parseSplitTerm min max names part text stepToken = .ok set ↔
      ∃ k lo hi, parseStep stepToken = .ok k ∧ lo ≤ hi ∧
        RangeDenotes byNumber min max names stepToken.isSome text lo hi ∧ set = valuesFrom lo hi k := by
  simp only [parseSplitTerm, bind_eq_ok_iff]
  constructor
  · rintro ⟨k, hk, ⟨lo, hi⟩, hrange, h⟩
    rcases lo with _ | lo
    · cases h
    rcases hi with _ | hi
    · cases h
    dsimp only at h
    split_ifs at h with hout
    · cases h
    · push Not at hout
      obtain ⟨m, n, rfl, rfl, hle, hdenotes⟩ :=
        (parseRange_eq_ok hnames hcut).mp ⟨hrange, hout.1, hout.2.1, hout.2.2⟩
      exact ⟨k, m, n, hk, hle, hdenotes, (Except.ok.inj h).symm⟩
  · rintro ⟨k, m, n, hk, hle, hdenotes, rfl⟩
    obtain ⟨hrange, hmin, hmax, hle'⟩ := (parseRange_eq_ok hnames hcut).mpr ⟨m, n, rfl, rfl, hle, hdenotes⟩
    refine ⟨k, hk, _, hrange, ?_⟩
    dsimp only
    rw [if_neg (by omega)]
    rfl

theorem RangeDenotes.le {r : CronReading} {stepped : Bool} {lo hi : ℕ} (hbounds : min ≤ max)
    (h : RangeDenotes r min max names stepped text lo hi) : lo ≤ hi := by
  rcases h with _ | ⟨-, -, hmax⟩ | ⟨-, -, -, hle, -⟩
  · exact hbounds
  · rcases stepped with _ | _
    · exact le_refl lo
    · exact hmax
  · exact hle

/-- A term is accepted when it denotes something, and then as what it denotes. -/
theorem parseTerm_eq_ok (hnames : ReadableNames names) (hbounds : min ≤ max) {set : Finset ℕ}
    (hpart : ∀ c ∈ part, c ≠ unit ',' ∧ isSpace c = false) :
    parseTerm field min max names part = .ok set ↔ part ≠ [] ∧ TermDenotes byNumber min max names part set := by
  rw [parseTerm, trimUnits_eq_self fun c hc => (hpart c hc).2]
  have hcut {text : List ℕ} (hsub : text ⊆ part) (hslash : unit '/' ∉ text) : ∀ c ∈ text, isCut c = false := by
    intro c hc
    have hne : c ≠ unit '/' := fun heq => hslash (heq ▸ hc)
    simp [isCut, hne, hpart c (hsub hc)]
  constructor
  · intro h
    split_ifs at h with hnil
    refine ⟨hnil, ?_⟩
    split at h
    · rename_i text hsplit
      obtain ⟨rfl, hslash⟩ := splitOn_eq_singleton_iff.mp hsplit
      obtain ⟨k, lo, hi, hk, hle, hrange, rfl⟩ :=
        (parseSplitTerm_eq_ok hnames (hcut (List.Subset.refl _) hslash)).mp h
      cases hk
      rw [valuesFrom_one hle]
      exact .bare hrange
    · rename_i text s hsplit
      obtain ⟨rfl, hslash, hslash'⟩ := splitOn_eq_pair_iff.mp hsplit
      obtain ⟨k, lo, hi, hk, hle, hrange, rfl⟩ :=
        (parseSplitTerm_eq_ok hnames (hcut (by simp) hslash)).mp h
      obtain ⟨hpos, hint⟩ := parseStep_eq_ok.mp hk
      have hset : valuesFrom lo hi k = (Finset.Icc lo hi).filter fun v => k ∣ v - lo :=
        Finset.ext fun v => mem_valuesFrom hpos hle
      rw [hset]
      have hs : s ⊆ text ++ unit '/' :: s := fun c hc => by simp [hc]
      exact .step hrange ⟨hcut hs hslash', hint⟩ hpos
    · cases h
  · rintro ⟨hnil, h⟩
    rw [if_neg hnil]
    rcases h with hrange | ⟨hrange, hs, hpos⟩
    · have hcut := hrange.noCut byNumber_clean
      rw [splitOn_eq_singleton_iff.mpr ⟨rfl, not_slash_of_noCut hcut⟩]
      exact (parseSplitTerm_eq_ok hnames hcut).mpr
        ⟨1, _, _, rfl, hrange.le hbounds, hrange, (valuesFrom_one (hrange.le hbounds)).symm⟩
    · have hcut := hrange.noCut byNumber_clean
      rw [splitOn_eq_pair_iff.mpr ⟨rfl, not_slash_of_noCut hcut, not_slash_of_noCut hs.1⟩]
      exact (parseSplitTerm_eq_ok hnames hcut).mpr
        ⟨_, _, _, parseStep_eq_ok.mpr ⟨hpos, hs.2⟩, hrange.le hbounds, hrange,
          (Finset.ext fun v => mem_valuesFrom hpos (hrange.le hbounds)).symm⟩

section Clean

variable {r : CronReading} (hr : r.Clean names) {set : Finset ℕ}
include hr

theorem TermDenotes.not_comma (h : TermDenotes r min max names part set) : unit ',' ∉ part := by
  intro hmem
  have hcut : isCut (unit ',') = true := by decide
  have hslash : unit ',' ≠ unit '/' := by decide
  rcases h with hrange | ⟨hrange, hs, -⟩
  · rw [hrange.noCut hr _ hmem] at hcut
    cases hcut
  · rcases List.mem_append.mp hmem with hmem | hmem
    · rw [hrange.noCut hr _ hmem] at hcut
      cases hcut
    · rw [hr.step _ _ hs _ ((List.mem_cons.mp hmem).resolve_left hslash)] at hcut
      cases hcut

/-- The terms of a field are what lies between its commas. -/
theorem fieldDenotes_iff :
    FieldDenotes r min max names field values ↔
      [] ∉ field.splitOn (unit ',') ∧ ∃ sets,
        List.Forall₂ (TermDenotes r min max names) (field.splitOn (unit ',')) sets ∧
          ∀ v, v ∈ values ↔ ∃ set ∈ sets, v ∈ set := by
  constructor
  · rintro ⟨terms, sets, hne, rfl, hterms, hsets, hvalues⟩
    have hcomma : ∀ term ∈ terms, unit ',' ∉ term :=
      ((List.forall₂_and_left _ _).mp (hsets.imp fun _ _ h => ⟨h.not_comma hr, h⟩)).1
    rw [List.splitOn_intercalate _ hcomma hne]
    exact ⟨fun hnil => hterms [] hnil rfl, sets, hsets, hvalues⟩
  · rintro ⟨hnil, sets, hsets, hvalues⟩
    exact ⟨_, sets, List.splitOn_ne_nil _ _, List.intercalate_splitOn _, fun term hterm heq => hnil (heq ▸ hterm),
      hsets, hvalues⟩

end Clean

theorem TermDenotes.nonempty {r : CronReading} {set : Finset ℕ} (hbounds : min ≤ max)
    (h : TermDenotes r min max names part set) : set.Nonempty := by
  rcases h with hrange | ⟨hrange, -, -⟩
  · exact Finset.nonempty_Icc.mpr (hrange.le hbounds)
  · rename_i lo hi k
    exact ⟨lo, by simp [hrange.le hbounds]⟩

theorem mem_foldl_union {sets : List (Finset ℕ)} {v : ℕ} :
    v ∈ sets.foldl (· ∪ ·) ∅ ↔ ∃ set ∈ sets, v ∈ set := by
  suffices ∀ out : Finset ℕ, v ∈ sets.foldl (· ∪ ·) out ↔ v ∈ out ∨ ∃ set ∈ sets, v ∈ set by simpa using this ∅
  induction sets with
  | nil => simp
  | cons set sets ih =>
    intro out
    rw [List.foldl_cons, ih]
    simp [or_assoc]

/-- A field is accepted when it denotes something, and then as what it denotes. -/
theorem parseField_eq_ok (hnames : ReadableNames names) (hbounds : min ≤ max)
    (hspace : ∀ c ∈ field, isSpace c = false) :
    parseField field min max names = .ok values ↔ FieldDenotes byNumber min max names field values := by
  have hterm : ∀ part ∈ field.splitOn (unit ','), ∀ set, parseTerm field min max names part = .ok set ↔
      part ≠ [] ∧ TermDenotes byNumber min max names part set := by
    intro part hpart set
    refine parseTerm_eq_ok hnames hbounds fun c hc => ⟨fun heq => ?_, hspace c (subset_of_mem_splitOn hpart hc)⟩
    exact not_mem_of_mem_splitOn hpart (heq ▸ hc)
  have hterms : ∀ sets, List.Forall₂ (fun part set => parseTerm field min max names part = .ok set)
        (field.splitOn (unit ',')) sets ↔
      [] ∉ field.splitOn (unit ',') ∧
        List.Forall₂ (TermDenotes byNumber min max names) (field.splitOn (unit ',')) sets := by
    intro sets
    constructor
    · intro h
      have hmem := (List.forall₂_and_left _ _).mpr ⟨fun part hpart => hpart, h⟩
      obtain ⟨hne, hsets⟩ := (List.forall₂_and_left _ _).mp (hmem.imp fun part set h => (hterm part h.1 set).mp h.2)
      exact ⟨fun hnil => hne [] hnil rfl, hsets⟩
    · rintro ⟨hnil, h⟩
      have hmem := (List.forall₂_and_left _ _).mpr ⟨fun part hpart => hpart, h⟩
      exact hmem.imp fun part set h => (hterm part h.1 set).mpr ⟨fun heq => hnil (heq ▸ h.1), h.2⟩
  simp only [parseField, bind_eq_ok_iff, mapM_eq_ok_iff, hterms, fieldDenotes_iff byNumber_clean]
  constructor
  · rintro ⟨sets, ⟨hnil, hsets⟩, h⟩
    split_ifs at h
    · cases h
    · obtain rfl := Except.ok.inj h
      exact ⟨hnil, sets, hsets, fun v => mem_foldl_union⟩
  · rintro ⟨hnil, sets, hsets, hvalues⟩
    refine ⟨sets, ⟨hnil, hsets⟩, ?_⟩
    have hunion : sets.foldl (· ∪ ·) ∅ = values := by
      ext v
      rw [mem_foldl_union, hvalues]
    have hne : values ≠ ∅ := by
      rcases hsplit : field.splitOn (unit ',') with _ | ⟨part, parts⟩
      · exact absurd hsplit (List.splitOn_ne_nil _ _)
      rw [hsplit] at hsets
      obtain ⟨set, sets', hset, -, rfl⟩ := List.forall₂_cons_left_iff.mp hsets
      obtain ⟨v, hv⟩ := hset.nonempty hbounds
      exact Finset.ne_empty_of_mem ((hvalues v).mpr ⟨set, List.mem_cons_self, hv⟩)
    rw [hunion, if_neg hne]
    rfl

/-! ## Expressions -/

variable {expr : String} {tokens : CronTokens} {f : CronFields}

theorem isSpace_of_mem_cronTokens {token : List ℕ} (h : token ∈ cronTokens expr) : ∀ c ∈ token, isSpace c = false :=
  forall_of_mem_splitOnP (List.mem_of_mem_filter h)

/-- The fields of the expression have no white space. -/
def CronTokens.NoSpace (tokens : CronTokens) : Prop :=
  ∀ token ∈ [tokens.second, tokens.minute, tokens.hour, tokens.dom, tokens.month, tokens.dow],
    ∀ c ∈ token, isSpace c = false

theorem parseTokens_eq_ok {hasSeconds : Bool} (hspace : tokens.NoSpace) :
    parseTokens hasSeconds tokens.second tokens.minute tokens.hour tokens.dom tokens.month tokens.dow = .ok f ↔
      CronDenotes byNumber tokens f ∧ f.hasSeconds = hasSeconds ∧
        f.domRestricted = decide (tokens.dom ≠ [unit '*']) ∧ f.dowRestricted = decide (tokens.dow ≠ [unit '*']) := by
  simp only [CronTokens.NoSpace, List.forall_mem_cons, List.not_mem_nil, false_implies, implies_true, and_true] at hspace
  obtain ⟨hsecond, hminute, hhour, hdom, hmonth, hdow⟩ := hspace
  simp only [parseTokens, bind_eq_ok_iff, parseField_eq_ok readableNames_nil (show 0 ≤ 59 by decide) hsecond,
    parseField_eq_ok readableNames_nil (show 0 ≤ 59 by decide) hminute,
    parseField_eq_ok readableNames_nil (show 0 ≤ 23 by decide) hhour,
    parseField_eq_ok readableNames_nil (show 1 ≤ 31 by decide) hdom,
    parseField_eq_ok readableNames_month (show 1 ≤ 12 by decide) hmonth,
    parseField_eq_ok readableNames_dow (show 0 ≤ 7 by decide) hdow]
  constructor
  · rintro ⟨dow, hdow, second, hsecond, minute, hminute, hour, hhour, dom, hdom, month, hmonth, h⟩
    obtain rfl := Except.ok.inj h
    exact ⟨⟨hsecond, hminute, hhour, hdom, hmonth, dow, hdow, rfl⟩, rfl, rfl, rfl⟩
  · rintro ⟨⟨hsecond, hminute, hhour, hdom, hmonth, dow, hdow, heq⟩, rfl, hdomRestricted, hdowRestricted⟩
    refine ⟨dow, hdow, _, hsecond, _, hminute, _, hhour, _, hdom, _, hmonth, ?_⟩
    rw [← hdomRestricted, ← hdowRestricted, ← heq]
    rfl

/-- With five or six fields the code goes on to parse these, and fails with any other number. -/
theorem parseCron_cases (expr : String) :
    (∃ tokens hasSeconds, cronTokens? expr = some tokens ∧ tokens.NoSpace ∧
      (hasSeconds = false → tokens.second = units "0") ∧ parseCron expr =
        parseTokens hasSeconds tokens.second tokens.minute tokens.hour tokens.dom tokens.month tokens.dow) ∨
      cronTokens? expr = none ∧ ∃ reason, parseCron expr = .error reason := by
  have hspace : ∀ token ∈ cronTokens expr, ∀ c ∈ token, isSpace c = false := fun token h => isSpace_of_mem_cronTokens h
  unfold parseCron cronTokens?
  generalize cronTokens expr = tokens at hspace ⊢
  rcases tokens with _ | ⟨a, _ | ⟨b, _ | ⟨c, _ | ⟨d, _ | ⟨e, _ | ⟨f, _ | ⟨g, rest⟩⟩⟩⟩⟩⟩⟩
  -- Fewer fields than five.
  · exact .inr ⟨rfl, _, rfl⟩
  · exact .inr ⟨rfl, _, rfl⟩
  · exact .inr ⟨rfl, _, rfl⟩
  · exact .inr ⟨rfl, _, rfl⟩
  · exact .inr ⟨rfl, _, rfl⟩
  · have hzero : ∀ c ∈ units "0", isSpace c = false := by decide
    exact .inl ⟨_, _, rfl, List.forall_mem_cons.mpr ⟨hzero, hspace⟩, fun _ => rfl, rfl⟩
  · exact .inl ⟨_, true, rfl, hspace, nofun, rfl⟩
  -- More fields than six.
  · exact .inr ⟨rfl, _, rfl⟩

theorem cronIsValid_iff : cronIsValid expr = true ↔ ∃ f, parseCron expr = .ok f := by
  rw [cronIsValid]
  rcases parseCron expr with reason | f
  · simp [Except.isOk, Except.toBool]
  · simp [Except.isOk, Except.toBool]

/-- An expression is accepted as what its fields denote. -/
theorem parseCron_denotes (h : parseCron expr = .ok f) :
    ∃ tokens, cronTokens? expr = some tokens ∧ CronDenotes byNumber tokens f := by
  rcases parseCron_cases expr with ⟨tokens, hasSeconds, htokens, hspace, -, heq⟩ | ⟨-, reason, heq⟩
  · rw [heq, parseTokens_eq_ok hspace] at h
    exact ⟨tokens, htokens, h.1⟩
  · rw [heq] at h
    cases h

/-- An expression is accepted when its fields denote something. -/
theorem cronIsValid_of_denotes (htokens : cronTokens? expr = some tokens) (h : CronDenotes byNumber tokens f) :
    cronIsValid expr = true := by
  rcases parseCron_cases expr with ⟨tokens', hasSeconds, htokens', hspace, -, heq⟩ | ⟨hnone, -⟩
  · obtain rfl := Option.some.inj (htokens.symm.trans htokens')
    refine cronIsValid_iff.mpr ⟨{ f with
      hasSeconds := hasSeconds
      domRestricted := decide (tokens.dom ≠ [unit '*'])
      dowRestricted := decide (tokens.dow ≠ [unit '*']) }, ?_⟩
    rw [heq, parseTokens_eq_ok hspace]
    exact ⟨⟨h.second, h.minute, h.hour, h.dom, h.month, h.dow⟩, rfl, rfl, rfl⟩
  · rw [hnone] at htokens
    cases htokens

end MontrSecure
