import MontrSecure.Api.CronGrammar
import MontrSecure.Js.Calendar

/-!
# The next run of a cron expression

`nextCronRun` of `apps/api/src/routes/schedules.ts`: from the first whole unit after the start it jumps over the
months, days, hours, minutes and seconds that do not match. It finds the least instant that matches, unless the
jump over a day leaves the range of dates.
-/

namespace MontrSecure

open Text

variable (f : CronFields)

/-- `dayMatches`. -/
def dayMatches (t : ℤ) : Bool :=
  let domOk : Bool := (getUTCDate t).toNat ∈ f.dom
  let dowOk : Bool := (getUTCDay t).toNat ∈ f.dow
  if f.domRestricted && f.dowRestricted then domOk || dowOk
  else if f.domRestricted then domOk
  else if f.dowRestricted then dowOk
  else true

/-- `FIVE_YEARS_MS`. -/
def FIVE_YEARS_MS : ℤ := 5 * 366 * 24 * 60 * 60 * 1000

/-- The next whole unit after the start. -/
def firstUnit (start : ℤ) : Option ℤ :=
  if f.hasSeconds then do
    let t ← setUTCMilliseconds start 0
    setUTCSeconds t (getUTCSeconds t + 1) (getUTCMilliseconds t)
  else do
    let t ← setUTCSeconds start 0 0
    setUTCMinutes t (getUTCMinutes t + 1) (getUTCSeconds t) (getUTCMilliseconds t)

/-- Where the loop goes on, unless it returns. -/
def cronJump (t : ℤ) : Option (Option ℤ) :=
  if (getUTCMonth t + 1).toNat ∉ f.month then some do
    let t ← setUTCMonth t (getUTCMonth t + 1) 1
    setUTCHours t 0 0 0 0
  else if !dayMatches f t then some do
    let t ← setUTCDate t (getUTCDate t + 1)
    setUTCHours t 0 0 0 0
  else if (getUTCHours t).toNat ∉ f.hour then some (setUTCHours t (getUTCHours t + 1) 0 0 0)
  else if (getUTCMinutes t).toNat ∉ f.minute then some (setUTCMinutes t (getUTCMinutes t + 1) 0 0)
  else if f.hasSeconds ∧ (getUTCSeconds t).toNat ∉ f.second then some (setUTCSeconds t (getUTCSeconds t + 1) 0)
  else none

variable {f} {t t' u v : ℤ} {r : Option ℤ}

/-! ## Jumps -/

/-- The beginning of a day, set by way of the time of another day. -/
def startOfDay (day t : ℤ) : Option ℤ := do
  let t ← timeClip (day * msPerDay + t % msPerDay)
  setUTCHours t 0 0 0 0

theorem dayOf_add_time (day t : ℤ) : dayOf (day * msPerDay + t % msPerDay) = day := by
  simp only [dayOf, msPerDay]
  omega

theorem bind_congr_const {x y : Option ℤ} {g : ℤ → Option ℤ} (h : ∀ a, x = some a → g a = y) :
    x.bind g = x.bind fun _ => y := by
  rcases x with _ | a
  · rfl
  · exact h a rfl

theorem startOfDay_eq (day t : ℤ) : startOfDay day t =
    (timeClip (day * msPerDay + t % msPerDay)).bind fun _ => timeClip (day * msPerDay) := by
  rw [startOfDay, Option.bind_eq_bind]
  refine bind_congr_const fun a ha => ?_
  rw [← (timeClip_eq_some_iff.mp ha).1, setUTCHours_zero, dayOf_add_time]

/-- What the loop does in a round that does not return. -/
theorem cronJump_cases (h : cronJump f t = some r) :
    ((getUTCMonth t + 1).toNat ∉ f.month ∧ r = startOfDay (firstDay (monthOfDay (dayOf t) + 1)) t) ∨
      (dayMatches f t = false ∧ r = startOfDay (dayOf t + 1) t) ∨
      (dayMatches f t = true ∧ (getUTCHours t).toNat ∉ f.hour ∧ r = timeClip ((t / 3600000 + 1) * 3600000)) ∨
      (dayMatches f t = true ∧ (getUTCMinutes t).toNat ∉ f.minute ∧ r = timeClip ((t / 60000 + 1) * 60000)) ∨
      (dayMatches f t = true ∧ f.hasSeconds = true ∧ (getUTCSeconds t).toNat ∉ f.second ∧
        r = timeClip ((t / 1000 + 1) * 1000)) := by
  rw [cronJump] at h
  by_cases hmonth : (getUTCMonth t + 1).toNat ∈ f.month
  · rw [if_neg (not_not.mpr hmonth)] at h
    rcases hday : dayMatches f t with _ | _
    · rw [hday, if_pos (by decide), setUTCDate_succ] at h
      exact .inr (.inl ⟨rfl, (Option.some.inj h).symm⟩)
    · rw [hday, if_neg (by decide)] at h
      refine .inr (.inr ?_)
      split_ifs at h with hhour hminute hsecond
      · rw [setUTCSeconds_succ] at h
        exact .inr (.inr ⟨rfl, hsecond.1, hsecond.2, (Option.some.inj h).symm⟩)
      · rw [setUTCMinutes_succ] at h
        exact .inr (.inl ⟨rfl, hminute, (Option.some.inj h).symm⟩)
      · rw [setUTCHours_succ] at h
        exact .inl ⟨rfl, hhour, (Option.some.inj h).symm⟩
  · rw [if_pos hmonth, setUTCMonth_succ] at h
    exact .inl ⟨hmonth, (Option.some.inj h).symm⟩

theorem startOfDay_eq_some {day : ℤ} (h : startOfDay day t = some v) : v = day * msPerDay := by
  rw [startOfDay_eq] at h
  obtain ⟨_, -, h⟩ := Option.bind_eq_some_iff.mp h
  exact (timeClip_eq_some_iff.mp h).1.symm

/-- The search goes on later. -/
theorem lt_of_cronJump (h : cronJump f t = some (some v)) : t < v := by
  have hmonth := (monthOfDay_spec (dayOf t)).2
  rcases cronJump_cases h with ⟨-, hr⟩ | ⟨-, hr⟩ | ⟨-, -, hr⟩ | ⟨-, -, hr⟩ | ⟨-, -, -, hr⟩
  · rw [startOfDay_eq_some hr.symm]
    simp only [dayOf, msPerDay] at hmonth ⊢
    omega
  · rw [startOfDay_eq_some hr.symm]
    simp only [dayOf, msPerDay]
    omega
  · obtain ⟨rfl, -, -⟩ := timeClip_eq_some_iff.mp hr.symm
    omega
  · obtain ⟨rfl, -, -⟩ := timeClip_eq_some_iff.mp hr.symm
    omega
  · obtain ⟨rfl, -, -⟩ := timeClip_eq_some_iff.mp hr.symm
    omega

/-- The loop; a date that is none is not before the limit. -/
def cronSearch (f : CronFields) (limit t : ℤ) : Option ℤ :=
  if t ≤ limit then
    match _ : cronJump f t with
    | none => some t
    | some none => none
    | some (some t') => cronSearch f limit t'
  else none
termination_by (limit + 1 - t).toNat
decreasing_by
  have := lt_of_cronJump ‹cronJump f t = _›
  omega

/-- `nextCronRun`. -/
def nextCronRun (expr : String) (start : ℤ) : Except (List ℕ) (Option ℤ) := do
  let f ← parseCron expr
  return (firstUnit f start).bind (cronSearch f (start + FIVE_YEARS_MS))

/-! ## What is looked for -/

/-- The instant is in the sets of the fields; either field for the day suffices when both are restricted. -/
structure CronFields.Matches (f : CronFields) (u : ℤ) : Prop where
  month : (getUTCMonth u + 1).toNat ∈ f.month
  day : if f.domRestricted ∧ f.dowRestricted then (getUTCDate u).toNat ∈ f.dom ∨ (getUTCDay u).toNat ∈ f.dow
    else (getUTCDate u).toNat ∈ f.dom ∧ (getUTCDay u).toNat ∈ f.dow
  hour : (getUTCHours u).toNat ∈ f.hour
  minute : (getUTCMinutes u).toNat ∈ f.minute
  second : (getUTCSeconds u).toNat ∈ f.second

/-- Whole seconds, or whole minutes where there is no field for the seconds. -/
def CronFields.unit (f : CronFields) : ℤ := if f.hasSeconds then 1000 else 60000

/-- The instants after the start and within five years of it at which the schedule is due. -/
def CronFields.runs (f : CronFields) (start : ℤ) : Set ℤ :=
  {u | start < u ∧ u ≤ start + FIVE_YEARS_MS ∧ u ≤ maxTime ∧ f.unit ∣ u ∧ f.Matches u}

/-- The least of the instants, or that there is none. -/
def IsFirst (instants : Set ℤ) : Option ℤ → Prop
  | some u => IsLeast instants u
  | none => instants = ∅

/-- What the parser says of the fields that are left open. -/
structure CronFields.Total (f : CronFields) : Prop where
  dom : f.domRestricted = false → ∀ d, 1 ≤ d → d ≤ 31 → d ∈ f.dom
  dow : f.dowRestricted = false → ∀ d, d ≤ 6 → d ∈ f.dow
  second : f.hasSeconds = false → 0 ∈ f.second

theorem getUTCDate_bounds (t : ℤ) : 1 ≤ getUTCDate t ∧ getUTCDate t ≤ 31 := by
  have hmonth := monthOfDay_spec (dayOf t)
  have hlast := firstDay_succ_le_add (monthOfDay (dayOf t))
  rw [getUTCDate]
  omega

theorem dayMatches_iff (hf : f.Total) : dayMatches f t = true ↔
    if f.domRestricted ∧ f.dowRestricted then (getUTCDate t).toNat ∈ f.dom ∨ (getUTCDay t).toNat ∈ f.dow
    else (getUTCDate t).toNat ∈ f.dom ∧ (getUTCDay t).toNat ∈ f.dow := by
  have hdate := getUTCDate_bounds t
  have hdom (h : f.domRestricted = false) : (getUTCDate t).toNat ∈ f.dom := hf.dom h _ (by omega) (by omega)
  have hdow (h : f.dowRestricted = false) : (getUTCDay t).toNat ∈ f.dow :=
    hf.dow h _ (by rw [getUTCDay]; omega)
  rw [dayMatches]
  rcases hr : f.domRestricted with _ | _
  · rcases hr' : f.dowRestricted with _ | _
    · simp [hdom hr, hdow hr']
    · simp [hdom hr]
  · rcases hr' : f.dowRestricted with _ | _
    · simp [hdow hr']
    · simp

/-! ## No jump misses an instant -/

theorem dayMatches_congr (h : dayOf u = dayOf t) : dayMatches f u = dayMatches f t := by
  unfold dayMatches getUTCDate getUTCDay
  rw [h]

/-- An instant on the last whole day of the dates, after its midnight, is left by no jump over the day. Then the
day matches, or the instant at its end does not. -/
def CronFields.Safe (f : CronFields) (t : ℤ) : Prop :=
  dayOf t = 99999999 → 0 < t % msPerDay → dayMatches f t = false → ¬f.Matches maxTime

/-- A round leaves out no instant that matches. -/
structure CronFields.Skips (f : CronFields) (t : ℤ) (r : Option ℤ) : Prop where
  ended : r = none → ∀ u, t ≤ u → u ≤ maxTime → ¬f.Matches u
  goesOn : ∀ v, r = some v →
    t < v ∧ v ≤ maxTime ∧ f.unit ∣ v ∧ f.Safe v ∧ ∀ u, t ≤ u → u < v → ¬f.Matches u

theorem startOfDay_eq_none {day : ℤ} (hlow : -maxTime ≤ day * msPerDay) (h : startOfDay day t = none) :
    maxTime < day * msPerDay + t % msPerDay := by
  rw [startOfDay_eq, Option.bind_eq_none_iff] at h
  have htime : 0 ≤ t % msPerDay := Int.emod_nonneg t (by decide)
  by_contra hle
  have hclip : timeClip (day * msPerDay + t % msPerDay) = some (day * msPerDay + t % msPerDay) :=
    timeClip_eq_some_iff.mpr ⟨rfl, by omega, by omega⟩
  have hnone := h _ hclip
  rw [timeClip_eq_none_iff] at hnone
  omega

theorem startOfDay_le {day : ℤ} (h : startOfDay day t = some v) : v = day * msPerDay ∧ v ≤ maxTime := by
  rw [startOfDay_eq] at h
  obtain ⟨_, -, h⟩ := Option.bind_eq_some_iff.mp h
  obtain ⟨rfl, -, hle⟩ := timeClip_eq_some_iff.mp h
  exact ⟨rfl, hle⟩

theorem unit_dvd_day (f : CronFields) (day : ℤ) : f.unit ∣ day * msPerDay := by
  refine Dvd.dvd.mul_left ?_ day
  rw [CronFields.unit]
  split <;> decide

theorem safe_day (f : CronFields) (day : ℤ) : f.Safe (day * msPerDay) := by
  intro _ htime
  simp at htime

/-- A jump to the beginning of a day. -/
theorem skips_startOfDay {day : ℤ} (hlow : -maxTime ≤ t) (hday : dayOf t < day)
    (hskip : ∀ u, t ≤ u → u < day * msPerDay → ¬f.Matches u)
    (hlast : day = 100000000 → 0 < t % msPerDay → ¬f.Matches maxTime) : f.Skips t (startOfDay day t) := by
  have htime : 0 ≤ t % msPerDay ∧ t % msPerDay < msPerDay :=
    ⟨Int.emod_nonneg t (by decide), Int.emod_lt_of_pos t (by decide)⟩
  have hlt : t < day * msPerDay := by
    simp only [dayOf, msPerDay] at hday ⊢
    omega
  constructor
  · intro h u hle hmax
    have hover := startOfDay_eq_none (by omega) h
    rcases lt_or_ge u (day * msPerDay) with hu | hu
    · exact hskip u hle hu
    · -- The day begins at the last instant there is.
      have hbegin : day = 100000000 := by
        simp only [msPerDay, maxTime] at hover htime hmax hu
        omega
      have heq : u = maxTime := by
        simp only [hbegin, msPerDay, maxTime] at hmax hu ⊢
        omega
      rw [heq]
      refine hlast hbegin ?_
      simp only [hbegin, msPerDay, maxTime] at hover ⊢
      omega
  · intro v h
    obtain ⟨rfl, hmax⟩ := startOfDay_le h
    exact ⟨hlt, hmax, unit_dvd_day f day, safe_day f day, hskip⟩

/-- Where the units of a day end. -/
theorem next_unit {n : ℤ} (hn : n = 3600000 ∨ n = 60000 ∨ n = 1000) (t : ℤ) :
    t < (t / n + 1) * n ∧ (∀ u, t ≤ u → u < (t / n + 1) * n → u / n = t / n) ∧
      (0 < (t / n + 1) * n % msPerDay → dayOf ((t / n + 1) * n) = dayOf t) := by
  simp only [dayOf, msPerDay]
  rcases hn with rfl | rfl | rfl
  · exact ⟨by omega, fun u hle hlt => by omega, fun h => by omega⟩
  · exact ⟨by omega, fun u hle hlt => by omega, fun h => by omega⟩
  · exact ⟨by omega, fun u hle hlt => by omega, fun h => by omega⟩

/-- A jump to the next hour, minute or second. -/
theorem skips_next_unit {n : ℤ} (hn : n = 3600000 ∨ n = 60000 ∨ n = 1000) (hlow : -maxTime ≤ t)
    (hday : dayMatches f t = true) (hunit : f.unit ∣ n) (hskip : ∀ u, u / n = t / n → ¬f.Matches u) :
    f.Skips t (timeClip ((t / n + 1) * n)) := by
  obtain ⟨hlt, hsame, hdayOf⟩ := next_unit hn t
  constructor
  · intro h u hle hmax
    rw [timeClip_eq_none_iff] at h
    exact hskip u (hsame u hle (by omega))
  · intro v h
    obtain ⟨rfl, -, hmax⟩ := timeClip_eq_some_iff.mp h
    refine ⟨hlt, hmax, hunit.mul_left _, ?_, fun u hle hu => hskip u (hsame u hle hu)⟩
    intro _ htime hfalse
    rw [dayMatches_congr (hdayOf htime), hday] at hfalse
    cases hfalse

theorem firstDay_ne_last (m : ℤ) : firstDay m ≠ 100000000 := by
  intro h
  have hmonth : firstDay 3309128 < 100000000 ∧ 100000000 < firstDay 3309129 := by decide +kernel
  rw [← h, firstDay_strictMono.lt_iff_lt, firstDay_strictMono.lt_iff_lt] at hmonth
  omega

theorem matches_day (hf : f.Total) (h : f.Matches t) : dayMatches f t = true := (dayMatches_iff hf).mpr h.day

/-- Every round that goes on leaves out nothing. -/
theorem cronJump_skips (hf : f.Total) (hlow : -maxTime ≤ t) (hsafe : f.Safe t) (h : cronJump f t = some r) :
    f.Skips t r := by
  have hdayOf {u : ℤ} {day : ℤ} (hu : u < day * msPerDay) : dayOf u < day := by
    simp only [dayOf, msPerDay] at hu ⊢
    omega
  have hle {u : ℤ} (hu : t ≤ u) : dayOf t ≤ dayOf u := Int.ediv_le_ediv (by decide) hu
  rcases cronJump_cases h with ⟨hmonth, rfl⟩ | ⟨hday, rfl⟩ | ⟨hday, hhour, rfl⟩ | ⟨hday, hminute, rfl⟩ |
    ⟨hday, hseconds, hsecond, rfl⟩
  · -- The days before the first of the next month are of the same month.
    obtain ⟨hfirst, hnext⟩ := monthOfDay_spec (dayOf t)
    refine skips_startOfDay hlow hnext (fun u hu hlt hmatch => ?_) fun hlast => absurd hlast (firstDay_ne_last _)
    have hsame : monthOfDay (dayOf u) = monthOfDay (dayOf t) :=
      monthOfDay_eq_iff.mpr ⟨hfirst.trans (hle hu), hdayOf hlt⟩
    refine hmonth ?_
    rw [getUTCMonth, ← hsame]
    exact hmatch.month
  · refine skips_startOfDay hlow (by omega) (fun u hu hlt hmatch => ?_) fun hlast htime => hsafe (by omega) htime hday
    have hsame : dayOf u = dayOf t := by
      have := hle hu
      have := hdayOf hlt
      omega
    have hnot := matches_day hf hmatch
    rw [dayMatches_congr hsame, hday] at hnot
    cases hnot
  · refine skips_next_unit (.inl rfl) hlow hday ?_ fun u hu hmatch => hhour ?_
    · rw [CronFields.unit]
      split <;> decide
    · rw [getUTCHours, ← hu]
      exact hmatch.hour
  · refine skips_next_unit (.inr (.inl rfl)) hlow hday ?_ fun u hu hmatch => hminute ?_
    · rw [CronFields.unit]
      split <;> decide
    · rw [getUTCMinutes, ← hu]
      exact hmatch.minute
  · refine skips_next_unit (.inr (.inr rfl)) hlow hday ?_ fun u hu hmatch => hsecond ?_
    · rw [CronFields.unit, if_pos hseconds]
    · rw [getUTCSeconds, ← hu]
      exact hmatch.second

/-- A round that returns has found an instant that matches. -/
theorem matches_of_cronJump (hf : f.Total) (hunit : f.unit ∣ t) (h : cronJump f t = none) : f.Matches t := by
  rw [cronJump] at h
  split_ifs at h with hmonth hday hhour hminute hsecond
  have hday' : dayMatches f t = true := by simpa using hday
  refine ⟨hmonth, (dayMatches_iff hf).mp hday', hhour, hminute, ?_⟩
  rcases hseconds : f.hasSeconds with _ | _
  · -- Without a field for the seconds the instant is a whole minute.
    rw [CronFields.unit, hseconds, if_neg (by decide)] at hunit
    have hzero : getUTCSeconds t = 0 := by
      rw [getUTCSeconds]
      omega
    rw [hzero]
    exact hf.second hseconds
  · by_contra hnot
    exact hsecond ⟨hseconds, hnot⟩

/-! ## The search -/

/-- The instants from one on, up to a limit, at which the schedule is due. -/
def CronFields.runsFrom (f : CronFields) (t limit : ℤ) : Set ℤ :=
  {u | t ≤ u ∧ u ≤ limit ∧ u ≤ maxTime ∧ f.unit ∣ u ∧ f.Matches u}

theorem CronFields.Skips.runsFrom_eq {limit : ℤ} (h : f.Skips t (some v)) :
    f.runsFrom t limit = f.runsFrom v limit := by
  obtain ⟨hlt, -, -, -, hskip⟩ := h.goesOn v rfl
  ext u
  constructor
  · rintro ⟨hle, hlimit, hmax, hunit, hmatch⟩
    refine ⟨?_, hlimit, hmax, hunit, hmatch⟩
    by_contra hnot
    exact hskip u hle (by omega) hmatch
  · rintro ⟨hle, hlimit, hmax, hunit, hmatch⟩
    exact ⟨by omega, hlimit, hmax, hunit, hmatch⟩

/-- The search finds the least instant, from any whole unit on that no jump over the day leaves the dates from. -/
theorem cronSearch_isFirst (hf : f.Total) (limit : ℤ) (hlow : -maxTime ≤ t) (hmax : t ≤ maxTime) (hunit : f.unit ∣ t)
    (hsafe : f.Safe t) : IsFirst (f.runsFrom t limit) (cronSearch f limit t) := by
  fun_induction cronSearch f limit t with
  | case1 t hle hjump => exact ⟨⟨le_rfl, hle, hmax, hunit, matches_of_cronJump hf hunit hjump⟩, fun u hu => hu.1⟩
  | case2 t hle hjump =>
    refine Set.eq_empty_of_forall_notMem fun u hu => ?_
    exact (cronJump_skips hf hlow hsafe hjump).ended rfl u hu.1 hu.2.2.1 hu.2.2.2.2
  | case3 t hle v hjump ih =>
    have hskips := cronJump_skips hf hlow hsafe hjump
    obtain ⟨hlt, hmax', hunit', hsafe', -⟩ := hskips.goesOn v rfl
    rw [hskips.runsFrom_eq]
    exact ih (by omega) hmax' hunit' hsafe'
  | case4 t hle =>
    refine Set.eq_empty_of_forall_notMem fun u hu => ?_
    exact hle (hu.1.trans hu.2.1)

/-! ## From an expression -/

variable {expr : String} {start : ℤ}

/-- The fields that an expression leaves open match always. -/
theorem total_of_parseCron (h : parseCron expr = .ok f) : f.Total := by
  have hfield {field : List ℕ} {min max : ℕ} {names : List (String × ℕ)} {values all : Finset ℕ}
      (hnames : ReadableNames names) (hbounds : min ≤ max) (hspace : ∀ c ∈ field, isSpace c = false)
      (hdenotes : FieldDenotes byNumber min max names field values)
      (hall : (parseField field min max names).toOption = some all) : values = all := by
    rw [(parseField_eq_ok hnames hbounds hspace).mpr hdenotes] at hall
    exact Option.some.inj hall
  rcases parseCron_cases expr with ⟨tokens, hasSeconds, -, hspace, hsecond, heq⟩ | ⟨-, reason, heq⟩
  · rw [heq, parseTokens_eq_ok hspace] at h
    obtain ⟨hdenotes, hseconds, hdom, hdow⟩ := h
    constructor
    · intro hopen d hmin hmax
      rw [hopen] at hdom
      have hevery : tokens.dom = [unit '*'] := by simpa using hdom
      have hall := hfield readableNames_nil (by decide) (by decide) (hevery ▸ hdenotes.dom)
        (show _ = some (Finset.Icc 1 31) by decide +kernel)
      rw [hall, Finset.mem_Icc]
      exact ⟨hmin, hmax⟩
    · intro hopen d hmax
      rw [hopen] at hdow
      have hevery : tokens.dow = [unit '*'] := by simpa using hdow
      obtain ⟨days, hdays, heq⟩ := hdenotes.dow
      have hall := hfield readableNames_dow (by decide) (by decide) (hevery ▸ hdays)
        (show _ = some (Finset.Icc 0 7) by decide +kernel)
      rw [heq, hall, Finset.mem_image]
      exact ⟨d, Finset.mem_Icc.mpr ⟨d.zero_le, by omega⟩, if_neg (by omega)⟩
    · intro hopen
      have hzero := hsecond (hseconds ▸ hopen)
      have hall := hfield readableNames_nil (by decide) (by decide) (hzero ▸ hdenotes.second)
        (show _ = some {0} by decide +kernel)
      rw [hall]
      exact Finset.mem_singleton_self 0
  · rw [heq] at h
    cases h

/-- The first whole unit after the start. -/
def CronFields.firstAfter (f : CronFields) (start : ℤ) : ℤ := (start / f.unit + 1) * f.unit

theorem firstUnit_eq (hlow : -maxTime ≤ start) (hmax : start ≤ maxTime) :
    firstUnit f start = timeClip (f.firstAfter start) := by
  have hclip {n : ℤ} (h : -maxTime ≤ n) (h' : n ≤ maxTime) : timeClip n = some n := timeClip_eq_some_iff.mpr ⟨rfl, h, h'⟩
  simp only [maxTime] at hlow hmax
  rw [firstUnit, CronFields.firstAfter, CronFields.unit]
  split
  · have hfloor := hclip (show -maxTime ≤ start / 1000 * 1000 by simp only [maxTime]; omega)
      (by simp only [maxTime]; omega)
    rw [setUTCMilliseconds_zero, hfloor, Option.bind_eq_bind, Option.bind_some]
    have hms : getUTCMilliseconds (start / 1000 * 1000) = 0 := by
      rw [getUTCMilliseconds]
      omega
    rw [hms, setUTCSeconds_succ, Int.mul_ediv_cancel _ (by decide)]
  · have hfloor := hclip (show -maxTime ≤ start / 60000 * 60000 by simp only [maxTime]; omega)
      (by simp only [maxTime]; omega)
    rw [setUTCSeconds_zero, hfloor, Option.bind_eq_bind, Option.bind_some]
    have hs : getUTCSeconds (start / 60000 * 60000) = 0 ∧ getUTCMilliseconds (start / 60000 * 60000) = 0 := by
      rw [getUTCSeconds, getUTCMilliseconds]
      omega
    rw [hs.1, hs.2, setUTCMinutes_succ, Int.mul_ediv_cancel _ (by decide)]

theorem unit_cases (f : CronFields) : f.unit = 1000 ∨ f.unit = 60000 := by
  rw [CronFields.unit]
  cases f.hasSeconds <;> simp

theorem runs_eq (f : CronFields) (start : ℤ) :
    f.runs start = f.runsFrom (f.firstAfter start) (start + FIVE_YEARS_MS) := by
  have hiff {u : ℤ} (hu : f.unit ∣ u) : start < u ↔ f.firstAfter start ≤ u := by
    rw [CronFields.firstAfter]
    rcases unit_cases f with h | h
    · rw [h] at hu ⊢
      omega
    · rw [h] at hu ⊢
      omega
  ext u
  constructor
  · rintro ⟨hlt, hlimit, hmax, hunit, hmatch⟩
    exact ⟨(hiff hunit).mp hlt, hlimit, hmax, hunit, hmatch⟩
  · rintro ⟨hle, hlimit, hmax, hunit, hmatch⟩
    exact ⟨(hiff hunit).mpr hle, hlimit, hmax, hunit, hmatch⟩

theorem nextCronRun_eq (hf : parseCron expr = .ok f) (hlow : -maxTime ≤ start) (hmax : start ≤ maxTime) :
    nextCronRun expr start = .ok ((timeClip (f.firstAfter start)).bind (cronSearch f (start + FIVE_YEARS_MS))) := by
  rw [nextCronRun, hf, ← firstUnit_eq hlow hmax]
  rfl

/-- In the last whole day, when it does not match, the search ends without an instant. -/
theorem cronSearch_last_day {limit : ℤ} (hday : dayOf t = 99999999) (htime : 0 < t % msPerDay)
    (hnot : dayMatches f t = false) : cronSearch f limit t = none := by
  rw [cronSearch]
  split_ifs with hle
  · have hjump : cronJump f t = some none := by
      rcases hr : cronJump f t with _ | r
      · rw [cronJump, hnot] at hr
        split_ifs at hr with _ hfalse
        exact absurd rfl hfalse
      · have hbegin : firstDay (monthOfDay (dayOf t) + 1) = 100000018 := by
          rw [hday]
          decide +kernel
        have hnone {day : ℤ} (hge : 100000000 ≤ day) : startOfDay day t = none := by
          rw [startOfDay_eq, timeClip_eq_none_iff.mpr (.inr ?_), Option.bind_none]
          simp only [msPerDay, maxTime] at htime ⊢
          omega
        rcases cronJump_cases hr with ⟨-, rfl⟩ | ⟨-, rfl⟩ | ⟨hday', -⟩ | ⟨hday', -⟩ | ⟨hday', -⟩
        · rw [hnone (by omega)]
        · rw [hnone (by omega)]
        all_goals
          rw [hnot] at hday'
          cases hday'
    split
    · rename_i h
      rw [hjump] at h
      cases h
    · rfl
    · rename_i h
      rw [hjump] at h
      cases h
  · rfl

theorem firstAfter_bounds (f : CronFields) (start : ℤ) :
    start < f.firstAfter start ∧ f.firstAfter start ≤ start + 60000 ∧ f.unit ∣ f.firstAfter start := by
  rw [CronFields.firstAfter]
  rcases unit_cases f with h | h
  · rw [h]
    omega
  · rw [h]
    omega

/-- The search from within the last whole day misses the instant at its end. -/
theorem not_isFirst_of_last_day (hf : parseCron expr = .ok f) (hlow : -maxTime ≤ start) (hmax : start ≤ maxTime)
    (hday : dayOf (f.firstAfter start) = 99999999) (htime : 0 < f.firstAfter start % msPerDay)
    (hnot : dayMatches f (f.firstAfter start) = false) (hmatch : f.Matches maxTime) :
    ¬∃ next, nextCronRun expr start = .ok next ∧ IsFirst (f.runs start) next := by
  rintro ⟨next, hnext, hfirst⟩
  have hafter := firstAfter_bounds f start
  have hnear : f.firstAfter start < maxTime ∧ maxTime - msPerDay < f.firstAfter start := by
    simp only [dayOf, msPerDay, maxTime] at hday htime ⊢
    omega
  have hclip : timeClip (f.firstAfter start) = some (f.firstAfter start) :=
    timeClip_eq_some_iff.mpr ⟨rfl, by omega, by omega⟩
  rw [nextCronRun_eq hf hlow hmax, hclip, Option.bind_some, cronSearch_last_day hday htime hnot] at hnext
  obtain rfl := Except.ok.inj hnext
  have hlimit : maxTime ≤ start + FIVE_YEARS_MS := by
    simp only [FIVE_YEARS_MS, msPerDay, maxTime] at hnear ⊢
    omega
  have hunit : f.unit ∣ maxTime := by
    rcases unit_cases f with h | h
    · rw [h]
      decide
    · rw [h]
      decide
  have hdue : maxTime ∈ f.runs start := ⟨by omega, hlimit, le_rfl, hunit, hmatch⟩
  rw [hfirst] at hdue
  exact hdue

/-- The next run is the least instant after the start at which the schedule is due, exactly unless the search
begins within the last whole day, which does not match, while the instant at its end does. -/
theorem nextCronRun_isFirst_iff (hf : parseCron expr = .ok f) (hlow : -maxTime ≤ start) (hmax : start ≤ maxTime) :
    (∃ next, nextCronRun expr start = .ok next ∧ IsFirst (f.runs start) next) ↔ f.Safe (f.firstAfter start) := by
  have hafter := firstAfter_bounds f start
  constructor
  · exact fun h hday htime hnot hmatch => not_isFirst_of_last_day hf hlow hmax hday htime hnot hmatch h
  · intro hsafe
    refine ⟨_, nextCronRun_eq hf hlow hmax, ?_⟩
    rw [runs_eq]
    rcases hclip : timeClip (f.firstAfter start) with _ | t
    · rw [timeClip_eq_none_iff] at hclip
      refine Set.eq_empty_of_forall_notMem fun u hu => ?_
      have hle := hu.1
      have hlast := hu.2.2.1
      omega
    · obtain ⟨rfl, hlow', hmax'⟩ := timeClip_eq_some_iff.mp hclip
      exact cronSearch_isFirst (total_of_parseCron hf) _ hlow' hmax' hafter.2.2 hsafe

example : nextCronRun "0 0 29 2 *" 1677628800000 = .ok (some 1709164800000) := by decide +kernel

/-- 29 February of the year 2024, from 1 March 2023. -/
theorem nextCronRun_isFirst_iff_leap : ∃ f, parseCron "0 0 29 2 *" = .ok f ∧
    ((∃ next, nextCronRun "0 0 29 2 *" 1677628800000 = .ok next ∧ IsFirst (f.runs 1677628800000) next) ↔
      f.Safe (f.firstAfter 1677628800000)) := by
  obtain ⟨f, hf⟩ := cronIsValid_iff.mp (show cronIsValid "0 0 29 2 *" = true by decide +kernel)
  exact ⟨f, hf, nextCronRun_isFirst_iff hf (by decide) (by decide)⟩

/-- The last instant that a date can be is midnight of 13 September 275760. From an hour before it no run on that
day is found. -/
theorem nextCronRun_misses_last : ∃ f, parseCron "0 0 13 9 *" = .ok f ∧
    ¬∃ next, nextCronRun "0 0 13 9 *" 8639999996400000 = .ok next ∧ IsFirst (f.runs 8639999996400000) next := by
  obtain ⟨f, hf⟩ := cronIsValid_iff.mp (show cronIsValid "0 0 13 9 *" = true by decide +kernel)
  have hflags : (parseCron "0 0 13 9 *").toOption.map (fun f => (f.hasSeconds, f.domRestricted, f.dowRestricted)) =
      some (false, true, false) := by decide +kernel
  have hsets : (parseCron "0 0 13 9 *").toOption.map (fun f => [f.second, f.minute, f.hour, f.dom, f.month, f.dow]) =
      some [{0}, {0}, {0}, {13}, {9}, Finset.Icc 0 6] := by decide +kernel
  rw [hf] at hflags hsets
  simp only [Except.toOption, Option.map_some, Option.some.injEq, Prod.mk.injEq] at hflags
  simp only [Except.toOption, Option.map_some, Option.some.injEq, List.cons.injEq] at hsets
  obtain ⟨hseconds, hdom, hdow⟩ := hflags
  obtain ⟨hsecond, hminute, hhour, hdays, hmonth, hweek, -⟩ := hsets
  have hfirst : f.firstAfter 8639999996400000 = 8639999996460000 := by
    rw [CronFields.firstAfter, CronFields.unit, hseconds]
    decide
  refine ⟨f, hf, not_isFirst_of_last_day hf (by decide) (by decide) ?_ ?_ ?_ ?_⟩
  · rw [hfirst]
    decide
  · rw [hfirst]
    decide
  · rw [hfirst, dayMatches, hdom, hdow, hdays, hweek]
    decide +kernel
  · constructor
    · rw [hmonth]
      decide +kernel
    · rw [hdom, hdow, hdays, hweek]
      decide +kernel
    · rw [hhour]
      decide +kernel
    · rw [hminute]
      decide +kernel
    · rw [hsecond]
      decide +kernel

end MontrSecure
