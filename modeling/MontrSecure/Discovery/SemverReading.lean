import MontrSecure.Discovery.SemverRanges
import MontrSecure.Text.SelfDelimiting

/-!
# Reading comparators

What the code reads of a version is its components, and a tag is dropped. A comparator that is read whole, and the
comparators that it is expanded to, hold of every release that it admits.
-/

namespace MontrSecure.Semver

open Text

/-! ## Texts -/

/-- Neither white space nor a bar. -/
def isPlain (c : ℕ) : Bool := !isSpace c && c ≠ unit '|'

theorem isPlain_of_isIdentifierUnit {c : ℕ} (h : isIdentifierUnit c = true) : isPlain c = true := by
  have hunits : unit '0' = 48 ∧ unit '9' = 57 ∧ unit 'A' = 65 ∧ unit 'Z' = 90 ∧ unit 'a' = 97 ∧ unit 'z' = 122 ∧
      unit '-' = 45 ∧ unit '|' = 124 := by decide
  simp only [isIdentifierUnit, isDecimal, Bool.or_eq_true, Bool.and_eq_true, decide_eq_true_eq] at h
  simp only [isPlain, isSpace, Bool.and_eq_true, Bool.not_eq_true', Bool.or_eq_false_iff, Bool.and_eq_false_iff,
    decide_eq_false_iff_not, decide_eq_true_eq]
  omega

/-- The text has neither white space nor bars. -/
def Plain (text : List ℕ) : Prop := ∀ c ∈ text, isPlain c = true

@[simp] theorem plain_append {s t : List ℕ} : Plain (s ++ t) ↔ Plain s ∧ Plain t := List.forall_mem_append

theorem plain_of_all {s : List ℕ} (h : s.all isPlain = true) : Plain s := List.all_eq_true.mp h

theorem Plain.noSpace {s : List ℕ} (h : Plain s) : ∀ c ∈ s, isSpace c = false := by
  intro c hc
  have := h c hc
  simp only [isPlain, Bool.and_eq_true, Bool.not_eq_true'] at this
  exact this.1

theorem plain_numeral (n : Numeral) : Plain n.1 := by
  intro c hc
  apply isPlain_of_isIdentifierUnit
  simp [isIdentifierUnit, n.2.2 c hc]

theorem plain_tagText (tag : List Identifier) : Plain (Version.tagText tag) := by
  unfold Version.tagText
  split_ifs with h
  · exact plain_of_all rfl
  · refine plain_append.mpr ⟨plain_of_all (by decide), ?_⟩
    clear h
    induction tag with
    | nil => exact plain_of_all rfl
    | cons i tag ih =>
      have hi : Plain i.1 := fun c hc => isPlain_of_isIdentifierUnit (i.2.2 c hc)
      rcases tag with _ | ⟨j, tag⟩
      · simpa [List.intercalate_singleton] using hi
      · simp only [List.map_cons, List.intercalate_cons_cons, plain_append] at ih ⊢
        exact ⟨⟨hi, plain_of_all (by decide)⟩, ih⟩

theorem plain_version (v : Version) : Plain v.text := by
  have hdot : Plain (units ".") := plain_of_all (by decide)
  simp only [Version.text, plain_append]
  exact ⟨plain_numeral _, ⟨hdot, plain_numeral _⟩, ⟨hdot, plain_numeral _⟩, plain_tagText _⟩

theorem plain_wildsText (ws : List Wild) : Plain (wildsText ws) := by
  induction ws with
  | nil => exact plain_of_all rfl
  | cons w ws ih =>
    rw [wildsText, List.flatMap_cons, plain_append]
    refine ⟨plain_of_all ?_, ih⟩
    cases w <;> decide

theorem plain_pattern (p : Pattern) : Plain p.text := by
  have hdot : Plain (units ".") := plain_of_all (by decide)
  rcases p with v | ⟨a, b, ws⟩ | ⟨a, ws⟩ | ⟨w, ws⟩
  · exact plain_version v
  · simp only [Pattern.text, plain_append]
    exact ⟨plain_numeral a, ⟨hdot, plain_numeral b⟩, plain_wildsText ws.1⟩
  · simp only [Pattern.text, plain_append]
    exact ⟨plain_numeral a, plain_wildsText ws.1⟩
  · have hw : Plain [w.unit] := plain_of_all (by cases w <;> decide)
    exact plain_append.mpr ⟨hw, plain_wildsText ws.1⟩

/-! ## Reading -/

/-- The number that is read from a component is its value. -/
def Numeral.IsExact (n : Numeral) : Prop := numberOf n.1 = some (n.value : ℚ)

theorem isExact_of_lt {n : Numeral} (h : n.value < 2 ^ 53) : n.IsExact :=
  (numberOf_of_isNumeral n.2).trans (toDouble_of_lt h)

theorem Numeral.value_ofNat (n : ℕ) : (ofNat n).value = n := decimalValue_toString n

theorem isExact_ofNat {n : ℕ} (h : n ≤ 2 ^ 53) : (Numeral.ofNat n).IsExact := by
  rw [Numeral.IsExact, numberOf_of_isNumeral (Numeral.ofNat n).2, Numeral.value_ofNat]
  exact (congrArg (fun m : ℕ => toDouble m) (decimalValue_toString n)).trans (toDouble_of_le h)

theorem takeWhile_numeral (n : Numeral) {rest : List ℕ} (hrest : NotBy isDecimal rest) :
    (n.1 ++ rest).takeWhile isDecimal = n.1 ∧ (n.1 ++ rest).dropWhile isDecimal = rest := by
  have htail : rest.takeWhile isDecimal = [] ∧ rest.dropWhile isDecimal = rest := by
    rcases rest with _ | ⟨c, rest⟩
    · exact ⟨rfl, rfl⟩
    · simp [show isDecimal c = false from hrest c rfl]
  rw [List.takeWhile_append_of_pos n.2.2, List.dropWhile_append_of_pos n.2.2, htail.1, htail.2, List.append_nil]
  exact ⟨rfl, rfl⟩

theorem dotted_numeral (n : Numeral) {rest : List ℕ} (hrest : NotBy isDecimal rest) :
    dotted (units "." ++ n.1 ++ rest) = (some n.1, rest) := by
  obtain ⟨htake, hdrop⟩ := takeWhile_numeral n hrest
  have hdot : units "." ++ n.1 ++ rest = unit '.' :: (n.1 ++ rest) := rfl
  rw [hdot, dotted, htake, hdrop, if_pos ⟨rfl, n.2.1⟩]

theorem notBy_tagText (tag : List Identifier) : NotBy isDecimal (Version.tagText tag) := by
  unfold Version.tagText
  split_ifs
  · rintro c ⟨⟩
  · rintro c ⟨⟩
    decide

theorem notBy_wildsText (ws : List Wild) : NotBy isDecimal (wildsText ws) := by
  rcases ws with _ | ⟨w, ws⟩
  · rintro c ⟨⟩
  · rintro c ⟨⟩
    decide

theorem dotted_wildsText (ws : List Wild) : dotted (wildsText ws) = (none, wildsText ws) := by
  rcases ws with _ | ⟨w, ws⟩
  · rfl
  · have hw : isDecimal w.unit = false := by cases w <;> decide
    simp [wildsText, dotted, hw]

/-- A text that begins with a numeral is read from there. -/
theorem coerce_numeral (n : Numeral) {rest : List ℕ} (hplain : Plain rest) (hrest : NotBy isDecimal rest) :
    coerce (n.1 ++ rest) = some {
      major := numberOf n.1
      minor := numberOf ((dotted rest).1.getD (units "0"))
      patch := numberOf ((dotted (dotted rest).2).1.getD (units "0")) } := by
  obtain ⟨htake, hdrop⟩ := takeWhile_numeral n hrest
  have hne : n.1 ++ rest ≠ [] := by simp [n.2.1]
  have htrim : trimUnits (n.1 ++ rest) = n.1 ++ rest :=
    trimUnits_eq_self (Plain.noSpace (plain_append.mpr ⟨plain_numeral n, hplain⟩))
  have hskip : (n.1 ++ rest).dropWhile (fun c => !isDecimal c) = n.1 ++ rest := by
    obtain ⟨c, digits, hn⟩ := List.exists_cons_of_ne_nil n.2.1
    have hc : isDecimal c = true := n.2.2 c (hn ▸ List.mem_cons_self)
    simp [hn, hc]
  simp only [coerce, htrim, hskip, if_neg hne, htake, hdrop]

/-- The components of a version. -/
def semVer (a b c : ℕ) : SemVer := ⟨some (a : ℚ), some (b : ℚ), some (c : ℚ)⟩

/-- The components of a pattern; those left open are zero. -/
def Pattern.least : Pattern → ℕ × ℕ × ℕ
  | full v => (v.major.value, v.minor.value, v.patch.value)
  | minor a b _ => (a.value, b.value, 0)
  | major a _ => (a.value, 0, 0)
  | any _ _ => (0, 0, 0)

theorem numberOf_zero : numberOf (units "0") = some ((0 : ℕ) : ℚ) := by decide +kernel

/-- The components of a pattern are read, and its tag is not. -/
theorem coerce_pattern {p : Pattern} (hne : p.numerals ≠ []) (hexact : ∀ n ∈ p.numerals, n.IsExact) :
    coerce p.text = some (semVer p.least.1 p.least.2.1 p.least.2.2) := by
  have hdot : ∀ (n : Numeral) (rest : List ℕ), NotBy isDecimal (units "." ++ n.1 ++ rest) := by
    rintro n rest c ⟨⟩
    decide
  have hplain := plain_pattern p
  rcases p with v | ⟨a, b, ws⟩ | ⟨a, ws⟩ | ⟨w, ws⟩
  · simp only [Pattern.text, Version.text, plain_append] at hplain ⊢
    rw [coerce_numeral v.major (plain_append.mpr ⟨plain_append.mpr hplain.2.1, by simpa [and_assoc] using hplain.2.2⟩) (hdot _ _),
      dotted_numeral v.minor (hdot _ _), dotted_numeral v.patch (notBy_tagText _)]
    simp only [Pattern.numerals, Version.numerals, List.forall_mem_cons] at hexact
    obtain ⟨ha, hb, hc, -⟩ := hexact
    simp only [Option.getD_some, show numberOf v.major.1 = _ from ha, show numberOf v.minor.1 = _ from hb,
      show numberOf v.patch.1 = _ from hc]
    rfl
  · simp only [Pattern.text, plain_append] at hplain ⊢
    rw [coerce_numeral a (by simpa [and_assoc] using hplain.2) (hdot _ _), dotted_numeral b (notBy_wildsText _), dotted_wildsText]
    simp only [Pattern.numerals, List.forall_mem_cons] at hexact
    obtain ⟨ha, hb, -⟩ := hexact
    simp only [Option.getD_some, Option.getD_none, numberOf_zero, show numberOf a.1 = _ from ha,
      show numberOf b.1 = _ from hb]
    rfl
  · simp only [Pattern.text, plain_append] at hplain ⊢
    rw [coerce_numeral a hplain.2 (notBy_wildsText _), dotted_wildsText, dotted_wildsText]
    simp only [Pattern.numerals, List.forall_mem_cons] at hexact
    simp only [Option.getD_none, numberOf_zero, show numberOf a.1 = _ from hexact.1]
    rfl
  · exact absurd rfl hne

/-! ## Comparators -/

theorem core_lt_iff {a b c a' b' c' : ℕ} :
    core a b c < core a' b' c' ↔ a < a' ∨ a = a' ∧ (b < b' ∨ b = b' ∧ c < c') := by
  simp [core, Prod.Lex.toLex_lt_toLex]

theorem core_le_iff {a b c a' b' c' : ℕ} :
    core a b c ≤ core a' b' c' ↔ a < a' ∨ a = a' ∧ (b < b' ∨ b = b' ∧ c ≤ c') := by
  have heq : core a b c = core a' b' c' ↔ a = a' ∧ b = b' ∧ c = c' := by simp [core]
  rw [le_iff_lt_or_eq, core_lt_iff, heq]
  omega

/-- Components are compared by precedence. -/
theorem compare_semVer (a b c a' b' c' : ℕ) :
    (compare (semVer a b c) (semVer a' b' c') = .lt ↔ core a b c < core a' b' c') ∧
      (compare (semVer a b c) (semVer a' b' c') = .gt ↔ core a' b' c' < core a b c) := by
  simp only [compare, semVer, compareNumbers, Nat.cast_lt, core_lt_iff]
  rcases lt_trichotomy a a' with ha | rfl | ha
  · simp [ha, ha.not_gt, ha.ne', Ordering.then]
  · rcases lt_trichotomy b b' with hb | rfl | hb
    · simp [hb, hb.not_gt, hb.ne', Ordering.then]
    · rcases lt_trichotomy c c' with hc | rfl | hc
      · simp [hc, hc.not_gt, Ordering.then]
      · simp [Ordering.then]
      · simp [hc, hc.not_gt, Ordering.then]
    · simp [hb, hb.not_gt, hb.ne', Ordering.then]
  · simp [ha, ha.not_gt, ha.ne', Ordering.then]

/-- A text with a component is none of the texts for any version. -/
theorem ne_wild_of_mem {text : List ℕ} {c : ℕ} (hmem : c ∈ text) (hc : isDecimal c = true) :
    ¬(text = [] ∨ text = units "*" ∨ text = units "x" ∨ text = units "X") := by
  rintro (rfl | rfl | rfl | rfl)
  · cases hmem
  all_goals
    rw [show c = _ from List.mem_singleton.mp hmem] at hc
    exact absurd hc (by decide)

theorem exists_digit {p : Pattern} (hne : p.numerals ≠ []) : ∃ c rest, p.text = c :: rest ∧ isDecimal c = true := by
  have hfirst : ∀ (n : Numeral) (rest : List ℕ), ∃ c rest', n.1 ++ rest = c :: rest' ∧ isDecimal c = true := by
    intro n rest
    obtain ⟨c, digits, hn⟩ := List.exists_cons_of_ne_nil n.2.1
    exact ⟨c, digits ++ rest, by rw [hn, List.cons_append], n.2.2 c (hn ▸ List.mem_cons_self)⟩
  rcases p with v | ⟨a, b, ws⟩ | ⟨a, ws⟩ | ⟨w, ws⟩
  · exact hfirst v.major _
  · exact hfirst a _
  · exact hfirst a _
  · exact absurd rfl hne

theorem not_operator_of_isDecimal {c : ℕ} (hc : isDecimal c = true) : c ≠ 60 ∧ c ≠ 61 ∧ c ≠ 62 := by
  have hunits : unit '0' = 48 ∧ unit '9' = 57 := by decide
  simp only [isDecimal, Bool.and_eq_true, decide_eq_true_eq] at hc
  omega

theorem units_operators :
    units ">=" = [62, 61] ∧ units "<=" = [60, 61] ∧ units ">" = [62] ∧ units "<" = [60] ∧ units "=" = [61] := by
  decide

/-- An operator directly before a digit is read. -/
theorem readOp_text (o : Op) {c : ℕ} {rest : List ℕ} (hc : isDecimal c = true) :
    readOp (o.text ++ c :: rest) = (o, c :: rest) := by
  obtain ⟨hlt, heq, hgt⟩ := not_operator_of_isDecimal hc
  obtain ⟨hge, hle, hgt', hlt', heq'⟩ := units_operators
  rcases o <;> simp [readOp, Op.text, hge, hle, hgt', hlt', heq', heq.symm]

theorem readOp_bare {c : ℕ} {rest : List ℕ} (hc : isDecimal c = true) : readOp (c :: rest) = (.eq, c :: rest) := by
  obtain ⟨hlt, heq, hgt⟩ := not_operator_of_isDecimal hc
  obtain ⟨hge, hle, hgt', hlt', heq'⟩ := units_operators
  simp [readOp, hge, hle, hgt', hlt', heq', hlt.symm, heq.symm, hgt.symm]

theorem plain_op (o : Op) : Plain o.text := plain_of_all (by cases o <;> decide)

/-- What an operator says of components, and of precedence. -/
def Op.Relates : Op → Precedence → Precedence → Prop
  | ge, v, w => w ≤ v
  | le, v, w => v ≤ w
  | gt, v, w => w < v
  | lt, v, w => v < w
  | eq, v, w => v = w

theorem holds_iff (o : Op) {a b c a' b' c' : ℕ} :
    o.holds (compare (semVer a b c) (semVer a' b' c')) = true ↔ o.Relates (core a b c) (core a' b' c') := by
  obtain ⟨hlt, hgt⟩ := compare_semVer a b c a' b' c'
  rcases o with _ | _ | _ | _ | _
  · simp [Op.holds, Op.Relates, hlt]
  · simp [Op.holds, Op.Relates, hgt]
  · simp [Op.holds, Op.Relates, hgt]
  · simp [Op.holds, Op.Relates, hlt]
  · rw [Op.holds, Op.Relates, decide_eq_true_eq]
    constructor
    · intro h
      refine le_antisymm (le_of_not_gt fun hc => ?_) (le_of_not_gt fun hc => ?_)
      · simp [hgt.mpr hc] at h
      · simp [hlt.mpr hc] at h
    · intro h
      rcases hcmp : compare (semVer a b c) (semVer a' b' c') with _ | _ | _
      · exact absurd (hlt.mp hcmp) (h ▸ lt_irrefl _)
      · rfl
      · exact absurd (hgt.mp hcmp) (h ▸ lt_irrefl _)

section Comparators

variable {p : Pattern} {a b c : ℕ}

/-- A comparator with an operator is decided by precedence. -/
theorem satisfiesComparator_op (o : Op) (hne : p.numerals ≠ []) (hexact : ∀ n ∈ p.numerals, n.IsExact) :
    satisfiesComparator (semVer a b c) (o.text ++ p.text) = true ↔
      o.Relates (core a b c) (core p.least.1 p.least.2.1 p.least.2.2) := by
  obtain ⟨d, rest, hp, hd⟩ := exists_digit hne
  have hcoerce := coerce_pattern hne hexact
  have htrim : trimUnits (o.text ++ p.text) = o.text ++ p.text :=
    trimUnits_eq_self (Plain.noSpace (plain_append.mpr ⟨plain_op o, plain_pattern p⟩))
  have hmem : d ∈ o.text ++ p.text := by simp [hp]
  rw [satisfiesComparator, htrim, if_neg (ne_wild_of_mem hmem hd), hp, readOp_text o hd, ← hp, hcoerce]
  exact holds_iff o

theorem satisfiesComparator_bare (hne : p.numerals ≠ []) (hexact : ∀ n ∈ p.numerals, n.IsExact) :
    satisfiesComparator (semVer a b c) p.text = true ↔ core a b c = core p.least.1 p.least.2.1 p.least.2.2 := by
  obtain ⟨d, rest, hp, hd⟩ := exists_digit hne
  have hcoerce := coerce_pattern hne hexact
  have htrim : trimUnits p.text = p.text := trimUnits_eq_self (plain_pattern p).noSpace
  have hmem : d ∈ p.text := by simp [hp]
  rw [satisfiesComparator, htrim, if_neg (ne_wild_of_mem hmem hd), hp, readOp_bare hd, ← hp, hcoerce]
  exact holds_iff .eq

end Comparators

/-! ## Expansion -/

section Expansion

variable (large : LargeText) {p : Pattern} {a b c a' b' c' : ℕ}

/-- A release, with components written by their values. -/
def release (a b c : ℕ) : Version := ⟨.ofNat a, .ofNat b, .ofNat c, []⟩

theorem numberText_of_le {n : ℕ} (h : n ≤ 2 ^ 53) : numberText large (some (n : ℚ)) = (Numeral.ofNat n).1 := by
  have hlt : n < 10 ^ 21 := lt_of_le_of_lt h (by norm_num)
  rw [numberText, Rat.num_natCast, Int.toNat_natCast, if_pos hlt, Numeral.ofNat]

theorem addOne_of_lt {n : ℕ} (h : n < 2 ^ 53) : addOne (some (n : ℚ)) = some ((n + 1 : ℕ) : ℚ) := by
  rw [← toDouble_of_le (show n + 1 ≤ 2 ^ 53 from h)]
  simp [addOne]

theorem comparatorText_eq (op : String) (ha : a ≤ 2 ^ 53) (hb : b ≤ 2 ^ 53) (hc : c ≤ 2 ^ 53) :
    comparatorText large op (some (a : ℚ)) (some (b : ℚ)) (some (c : ℚ)) =
      units op ++ (Pattern.full (release a b c)).text := by
  rw [comparatorText, numberText_of_le large ha, numberText_of_le large hb, numberText_of_le large hc]
  simp [Pattern.text, Version.text, Version.tagText, release]

/-- A comparator that was written by an expansion is decided by precedence. -/
theorem satisfiesComparator_release (o : Op) (ha : a' ≤ 2 ^ 53) (hb : b' ≤ 2 ^ 53) (hc : c' ≤ 2 ^ 53) :
    satisfiesComparator (semVer a b c) (o.text ++ (Pattern.full (release a' b' c')).text) = true ↔
      o.Relates (core a b c) (core a' b' c') := by
  have hexact : ∀ n ∈ (Pattern.full (release a' b' c')).numerals, n.IsExact := by
    simp only [Pattern.numerals, Version.numerals, release, List.forall_mem_cons]
    exact ⟨isExact_ofNat ha, isExact_ofNat hb, isExact_ofNat hc, by simp⟩
  rw [satisfiesComparator_op o (by simp [Pattern.numerals, Version.numerals]) hexact]
  simp only [Pattern.least, release, Numeral.value_ofNat]

theorem words_eq_singleton {text : List ℕ} (hne : text ≠ []) (h : Plain text) : words text = [text] :=
  runs_eq_singleton hne h.noSpace

/-- Two comparators, as an expansion writes them. -/
theorem words_pair {s t : List ℕ} (hs : s ≠ []) (ht : t ≠ []) (hsplain : Plain s) (htplain : Plain t) :
    words (s ++ units " " ++ t) = [s, t] := by
  rw [words, runs_append_gap_append (by decide) (by decide), ← words, ← words, words_eq_singleton hs hsplain,
    words_eq_singleton ht htplain, List.singleton_append]

/-- An expansion to a lower and an upper bound holds between them. -/
theorem satisfies_bounds {l u : ℕ × ℕ × ℕ} (hl : l.1 ≤ 2 ^ 53 ∧ l.2.1 ≤ 2 ^ 53 ∧ l.2.2 ≤ 2 ^ 53)
    (hu : u.1 ≤ 2 ^ 53 ∧ u.2.1 ≤ 2 ^ 53 ∧ u.2.2 ≤ 2 ^ 53) (hlow : core l.1 l.2.1 l.2.2 ≤ core a b c)
    (hhigh : core a b c < core u.1 u.2.1 u.2.2) :
    ∀ w ∈ words (comparatorText large ">=" (some (l.1 : ℚ)) (some (l.2.1 : ℚ)) (some (l.2.2 : ℚ)) ++ units " " ++
      comparatorText large "<" (some (u.1 : ℚ)) (some (u.2.1 : ℚ)) (some (u.2.2 : ℚ))),
      satisfiesComparator (semVer a b c) w = true := by
  have hplain : ∀ (o : Op) (v : Version), Plain (o.text ++ (Pattern.full v).text) := fun o v =>
    plain_append.mpr ⟨plain_op o, plain_pattern _⟩
  have hne : ∀ (o : Op) (v : Version), o.text ++ (Pattern.full v).text ≠ [] := by
    intro o v h
    cases o <;> exact absurd (List.append_eq_nil_iff.mp h).1 (by decide)
  have hwords := words_pair (hne .ge (release l.1 l.2.1 l.2.2)) (hne .lt (release u.1 u.2.1 u.2.2)) (hplain .ge _)
    (hplain .lt _)
  rw [comparatorText_eq large _ hl.1 hl.2.1 hl.2.2, comparatorText_eq large _ hu.1 hu.2.1 hu.2.2]
  intro w hw
  rcases List.mem_pair.mp (hwords ▸ hw) with rfl | rfl
  · exact (satisfiesComparator_release .ge hl.1 hl.2.1 hl.2.2).mpr hlow
  · exact (satisfiesComparator_release .lt hu.1 hu.2.1 hu.2.2).mpr hhigh

/-- Where a caret range ends. -/
def caretEnd (a b c : ℕ) : ℕ × ℕ × ℕ :=
  if 0 < a then (a + 1, 0, 0) else if 0 < b then (0, b + 1, 0) else (0, 0, c + 1)

theorem caretEnd_of_major (ha : 0 < a) : caretEnd a b c = (a + 1, 0, 0) := if_pos ha

theorem caretEnd_of_minor (ha : ¬0 < a) (hb : 0 < b) : caretEnd a b c = (0, b + 1, 0) := by
  rw [caretEnd, if_neg ha, if_pos hb]

theorem caretEnd_of_patch (ha : ¬0 < a) (hb : ¬0 < b) : caretEnd a b c = (0, 0, c + 1) := by
  rw [caretEnd, if_neg ha, if_neg hb]

theorem caretEnd_le (ha : a < 2 ^ 53) (hb : b < 2 ^ 53) (hc : c < 2 ^ 53) :
    (caretEnd a b c).1 ≤ 2 ^ 53 ∧ (caretEnd a b c).2.1 ≤ 2 ^ 53 ∧ (caretEnd a b c).2.2 ≤ 2 ^ 53 := by
  unfold caretEnd
  split_ifs
  · exact ⟨ha, Nat.zero_le _, Nat.zero_le _⟩
  · exact ⟨Nat.zero_le _, hb, Nat.zero_le _⟩
  · exact ⟨Nat.zero_le _, Nat.zero_le _, hc⟩

theorem expandToken_caret (hne : p.numerals ≠ []) (hexact : ∀ n ∈ p.numerals, n.IsExact)
    (hleast : p.least.1 < 2 ^ 53 ∧ p.least.2.1 < 2 ^ 53 ∧ p.least.2.2 < 2 ^ 53) :
    let l := p.least
    let u := caretEnd l.1 l.2.1 l.2.2
    expandToken large (units "^" ++ p.text) =
      comparatorText large ">=" (some (l.1 : ℚ)) (some (l.2.1 : ℚ)) (some (l.2.2 : ℚ)) ++ units " " ++
        comparatorText large "<" (some (u.1 : ℚ)) (some (u.2.1 : ℚ)) (some (u.2.2 : ℚ)) := by
  have hhead : (units "^" ++ p.text).head? = some (unit '^') := rfl
  have htail : (units "^" ++ p.text).tail = p.text := rfl
  have hpositive : ∀ n : ℕ, isPositive (some (n : ℚ)) = decide (0 < n) := by simp [isPositive]
  dsimp only
  rw [expandToken, if_pos hhead, htail, coerce_pattern hne hexact]
  simp only [semVer, hpositive, addOne_of_lt hleast.1, addOne_of_lt hleast.2.1, addOne_of_lt hleast.2.2,
    decide_eq_true_eq, caretEnd]
  split_ifs <;> simp

theorem expandToken_tilde (hne : p.numerals ≠ []) (hexact : ∀ n ∈ p.numerals, n.IsExact)
    (hleast : p.least.2.1 < 2 ^ 53) :
    let l := p.least
    expandToken large (units "~" ++ p.text) =
      comparatorText large ">=" (some (l.1 : ℚ)) (some (l.2.1 : ℚ)) (some (l.2.2 : ℚ)) ++ units " " ++
        comparatorText large "<" (some (l.1 : ℚ)) (some ((l.2.1 + 1 : ℕ) : ℚ)) (some ((0 : ℕ) : ℚ)) := by
  have hhead : (units "~" ++ p.text).head? = some (unit '~') := rfl
  have hcaret : (units "~" ++ p.text).head? ≠ some (unit '^') := by rw [hhead]; decide
  have htail : (units "~" ++ p.text).tail = p.text := rfl
  dsimp only
  rw [expandToken, if_neg hcaret, if_pos hhead, htail, coerce_pattern hne hexact]
  simp only [semVer, addOne_of_lt hleast]
  simp

end Expansion

/-! ## Tokens -/

section Tokens

variable {p : Pattern} {a b c : ℕ}

theorem Pattern.IsSafe.isExact (h : p.IsSafe) : ∀ n ∈ p.numerals, n.IsExact := fun n hn => isExact_of_lt (h n hn)

theorem Pattern.IsSafe.least_lt (h : p.IsSafe) :
    p.least.1 < 2 ^ 53 ∧ p.least.2.1 < 2 ^ 53 ∧ p.least.2.2 < 2 ^ 53 := by
  rcases p with v | ⟨a, b, ws⟩ | ⟨a, ws⟩ | ⟨w, ws⟩
  · exact ⟨h v.major (by simp [numerals, Version.numerals]), h v.minor (by simp [numerals, Version.numerals]),
      h v.patch (by simp [numerals, Version.numerals])⟩
  · exact ⟨h a (by simp [numerals]), h b (by simp [numerals]), by simp [least]⟩
  · exact ⟨h a (by simp [numerals]), by simp [least], by simp [least]⟩
  · simp [least]

/-- The least version of a pattern is one that it stands for, and none of them lies below. -/
theorem isLeast_versions (hne : p.numerals ≠ []) :
    IsLeast p.dropTag.versions (core p.least.1 p.least.2.1 p.least.2.2) := by
  rcases p with v | ⟨a, b, ws⟩ | ⟨a, ws⟩ | ⟨w, ws⟩
  · exact isLeast_singleton
  · exact isLeast_Ico (core_lt_iff.mpr (by simp))
  · exact isLeast_Ico (core_lt_iff.mpr (by simp))
  · exact absurd rfl hne

theorem mem_caretEnd (hread : (Comparator.caret p).IsRead) (hv : core a b c ∈ p.dropTag.caret) :
    let l := p.least
    let u := caretEnd l.1 l.2.1 l.2.2
    core l.1 l.2.1 l.2.2 ≤ core a b c ∧ core a b c < core u.1 u.2.1 u.2.2 := by
  rcases p with v | ⟨a', b', ws⟩ | ⟨a', ws⟩ | ⟨w, ws⟩
  · simp only [Pattern.dropTag, Pattern.caret, Version.dropTag] at hv
    simp only [Pattern.least]
    by_cases ha : 0 < v.major.value
    · rw [if_pos ha] at hv
      rw [caretEnd_of_major ha]
      exact hv
    · rw [if_neg ha] at hv
      by_cases hb : 0 < v.minor.value
      · rw [if_pos hb] at hv
        rw [caretEnd_of_minor ha hb]
        exact hv
      · rw [if_neg hb] at hv
        rw [caretEnd_of_patch ha hb]
        exact hv
  · simp only [Pattern.dropTag, Pattern.caret] at hv
    simp only [Pattern.least]
    by_cases ha : 0 < a'.value
    · rw [if_pos ha] at hv
      rw [caretEnd_of_major ha]
      exact hv
    · -- A pattern without a component that is not zero is not read whole.
      have hb : 0 < b'.value := hread.resolve_left ha
      rw [if_neg ha] at hv
      rw [caretEnd_of_minor ha hb, Nat.eq_zero_of_not_pos ha]
      exact hv
  · have ha : 0 < a'.value := hread
    simp only [Pattern.least]
    rw [caretEnd_of_major ha]
    exact hv
  · exact absurd hread id

theorem mem_tildeEnd (hread : (Comparator.tilde p).IsRead) (hv : core a b c ∈ p.dropTag.tilde) :
    core p.least.1 p.least.2.1 p.least.2.2 ≤ core a b c ∧ core a b c < core p.least.1 (p.least.2.1 + 1) 0 := by
  rcases p with v | ⟨a', b', ws⟩ | ⟨a', ws⟩ | ⟨w, ws⟩
  · exact hv
  · exact hv
  · exact absurd hread id
  · exact absurd hread id

/-- A comparator that does not begin with `^` or `~` is left as it is. -/
theorem expandToken_eq_self (large : LargeText) {tok : List ℕ} (hcaret : tok.head? ≠ some (unit '^'))
    (htilde : tok.head? ≠ some (unit '~')) : expandToken large tok = tok := by
  rw [expandToken, if_neg hcaret, if_neg htilde]

theorem head_op_ne (o : Op) (text : List ℕ) {c : ℕ} (hlt : c ≠ 60) (heq : c ≠ 61) (hgt : c ≠ 62) :
    (o.text ++ text).head? ≠ some c := by
  obtain ⟨hge, hle, hgt', hlt', heq'⟩ := units_operators
  rcases o <;> simp [Op.text, hge, hle, hgt', hlt', heq', hlt.symm, heq.symm, hgt.symm]

theorem head_pattern_ne (p : Pattern) {c : ℕ} (hdigit : isDecimal c = false) (hwild : ∀ w : Wild, w.unit ≠ c) :
    p.text.head? ≠ some c := by
  intro h
  by_cases hne : p.numerals = []
  · rcases p with v | ⟨a, b, ws⟩ | ⟨a, ws⟩ | ⟨w, ws⟩
    · cases hne
    · cases hne
    · cases hne
    · exact hwild w (Option.some.inj h)
  · obtain ⟨d, rest, hp, hd⟩ := exists_digit hne
    rw [hp, List.head?_cons, Option.some.injEq] at h
    rw [h, hdigit] at hd
    cases hd

theorem text_ne_nil (p : Pattern) : p.text ≠ [] := by
  by_cases hne : p.numerals = []
  · rcases p with v | ⟨a, b, ws⟩ | ⟨a, ws⟩ | ⟨w, ws⟩
    · cases hne
    · cases hne
    · cases hne
    · exact List.cons_ne_nil _ _
  · obtain ⟨d, rest, hp, -⟩ := exists_digit hne
    rw [hp]
    exact List.cons_ne_nil _ _

/-- An operator that admits a release relates it to the least version of its pattern, unless versions above are
meant as well. -/
theorem relates_of_admits {o : Op} {gap : Gap} (hne : p.numerals ≠ []) (hread : (Comparator.op o gap p).IsRead)
    (hv : o.Admits p.dropTag.versions (core a b c)) :
    o.Relates (core a b c) (core p.least.1 p.least.2.1 p.least.2.2) := by
  have hleast := isLeast_versions hne
  rcases o with _ | _ | _ | _ | _
  · obtain ⟨w, hw, hle⟩ := hv
    exact (hleast.2 hw).trans hle
  · rcases p with v | ⟨a', b', ws⟩ | ⟨a', ws⟩ | ⟨w, ws⟩
    · obtain ⟨w, rfl, hle⟩ := hv
      exact hle
    all_goals exact absurd hread id
  · exact hv _ hleast.1
  · exact hv _ hleast.1
  · rcases p with v | ⟨a', b', ws⟩ | ⟨a', ws⟩ | ⟨w, ws⟩
    · exact hv
    all_goals exact absurd hread id

theorem IsRead.gap {o : Op} {gap : Gap} (hread : (Comparator.op o gap p).IsRead) : gap.1 = [] := by
  rcases o with _ | _ | _ | _ | _
  · exact hread.1
  · rcases p with v | ⟨a', b', ws⟩ | ⟨a', ws⟩ | ⟨w, ws⟩
    · exact hread
    all_goals exact absurd hread id
  · exact hread
  · exact hread
  · rcases p with v | ⟨a', b', ws⟩ | ⟨a', ws⟩ | ⟨w, ws⟩
    · exact hread
    all_goals exact absurd hread id

/-- Every word that a comparator is expanded to holds of a release that the comparator admits. -/
theorem satisfies_expandToken (large : LargeText) {cmp : Comparator} (hread : cmp.IsRead) (hsafe : cmp.pattern.IsSafe)
    (hv : cmp.dropTag.Admits (core a b c)) :
    ∀ w ∈ words (expandToken large cmp.text), satisfiesComparator (semVer a b c) w = true := by
  have hself : ∀ p : Pattern, expandToken large p.text = p.text := fun p =>
    expandToken_eq_self large (head_pattern_ne p (by decide) fun w => by cases w <;> decide)
      (head_pattern_ne p (by decide) fun w => by cases w <;> decide)
  rcases cmp with p | ⟨o, gap, p⟩ | p | p
  · -- Only one comparator of a component left open has no components: it admits everything.
    intro w hw
    rw [Comparator.text, hself, words_eq_singleton (text_ne_nil p) (plain_pattern p), List.mem_singleton] at hw
    subst hw
    rcases p with v | ⟨a', b', ws⟩ | ⟨a', ws⟩ | ⟨wild, ws⟩
    · have hne : (Pattern.full v).numerals ≠ [] := List.cons_ne_nil _ _
      exact (satisfiesComparator_bare hne hsafe.isExact).mpr hv
    · exact absurd hread id
    · exact absurd hread id
    · have hws : ws.1 = [] := hread
      have htext : (Pattern.any wild ws).text = [wild.unit] := by rw [Pattern.text, hws]; rfl
      rw [htext]
      cases wild <;> rfl
  · by_cases hne : p.numerals = []
    · rcases p with v | ⟨a', b', ws⟩ | ⟨a', ws⟩ | ⟨wild, ws⟩
      · cases hne
      · cases hne
      · cases hne
      · -- No version lies above or below all versions.
        rcases o with _ | _ | _ | _ | _
        · exact absurd rfl hread.2
        · exact absurd hread id
        · exact absurd (hv _ (Set.mem_univ _)) (lt_irrefl _)
        · exact absurd (hv _ (Set.mem_univ _)) (lt_irrefl _)
        · exact absurd hread id
    · have htext : (Comparator.op o gap p).text = o.text ++ p.text := by
        rw [Comparator.text, IsRead.gap hread, List.append_nil]
      have hexpand : expandToken large (o.text ++ p.text) = o.text ++ p.text :=
        expandToken_eq_self large (head_op_ne o _ (by decide) (by decide) (by decide))
          (head_op_ne o _ (by decide) (by decide) (by decide))
      intro w hw
      rw [htext, hexpand, words_eq_singleton (by simp [text_ne_nil]) (plain_append.mpr ⟨plain_op o, plain_pattern p⟩),
        List.mem_singleton] at hw
      rw [hw]
      exact (satisfiesComparator_op o hne hsafe.isExact).mpr (relates_of_admits hne hread hv)
  · have hne : p.numerals ≠ [] := by
      rcases p with v | ⟨a', b', ws⟩ | ⟨a', ws⟩ | ⟨wild, ws⟩
      · exact List.cons_ne_nil _ _
      · exact List.cons_ne_nil _ _
      · exact List.cons_ne_nil _ _
      · exact absurd hread id
    obtain ⟨hmajor, hminor, hpatch⟩ := hsafe.least_lt
    obtain ⟨hlow, hhigh⟩ := mem_caretEnd hread hv
    rw [Comparator.text, expandToken_caret large hne hsafe.isExact ⟨hmajor, hminor, hpatch⟩]
    exact satisfies_bounds large ⟨hmajor.le, hminor.le, hpatch.le⟩ (caretEnd_le hmajor hminor hpatch) hlow hhigh
  · have hne : p.numerals ≠ [] := by
      rcases p with v | ⟨a', b', ws⟩ | ⟨a', ws⟩ | ⟨wild, ws⟩
      · exact List.cons_ne_nil _ _
      · exact List.cons_ne_nil _ _
      · exact absurd hread id
      · exact absurd hread id
    obtain ⟨hmajor, hminor, hpatch⟩ := hsafe.least_lt
    obtain ⟨hlow, hhigh⟩ := mem_tildeEnd hread hv
    rw [Comparator.text, expandToken_tilde large hne hsafe.isExact hminor]
    exact satisfies_bounds large (u := (_, _, 0)) ⟨hmajor.le, hminor.le, hpatch.le⟩
      ⟨hmajor.le, hminor, Nat.zero_le _⟩ hlow hhigh

end Tokens

end MontrSecure.Semver
