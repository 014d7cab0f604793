import Mathlib.Data.List.Pairwise
import MontrSecure.Confirm.PayloadSafety

/-!
# The delays of a composed payload

A payload for a SQL injection is accepted when the first literal `SLEEP` and the first literal `WAITFOR DELAY` in
it are short. The other delay constructs are not looked at. How long a database waits for a construct is a
parameter, except where its argument is a literal. `boundedDelays_iff` says for which payloads acceptance means
that no more than five seconds are asked for.
-/

namespace MontrSecure.Confirm

open Text

/-! ## Delay constructs -/

/-- The words that a delay construct begins with. -/
def delayWords : List String := ["sleep", "pg_sleep", "waitfor", "benchmark"]

/-- The word stands there, and is not a part of a longer one. -/
def wordAt (word : String) (pos : Position ℕ) : Bool :=
  !pos.before.any isWord && (afterCased word pos.after).any fun rest => !rest.head?.any isWord

/-- A delay construct begins there. -/
def isDelay (pos : Position ℕ) : Bool := delayWords.any fun word => wordAt word pos

/-- The delay constructs of a payload. -/
def delays (payload : String) : List (Position ℕ) := (positions (units payload)).filter isDelay

/-- How many seconds a database waits for the delay construct at a position. A call of `SLEEP` or `pg_sleep` with
a number waits for that many seconds, and `WAITFOR DELAY` with hours, minutes and seconds for these. -/
structure Database where
  asks : Position ℕ → ℚ
  asks_sleep : ∀ pos arg seconds, sleepArg pos = some arg → numberOf arg = some seconds → asks pos = seconds
  asks_waitfor : ∀ pos groups seconds, isDelay pos = true → waitforArg pos = some groups →
    delaySeconds groups = some seconds → asks pos = seconds

/-- If the payload is accepted, each delay construct of it asks for five seconds at most, and so do all of them
together. -/
def BoundedDelays (db : Database) (parseUrl : String → Option PayloadUrl) (payload : String) : Prop :=
  (evaluateComposedPayloadSafety parseUrl .sqlInjection payload none).safe = true →
    (∀ pos ∈ delays payload, db.asks pos ≤ 5) ∧ ((delays payload).map db.asks).sum ≤ 5

/-! ## What is looked at -/

/-- The `SLEEP` that is looked at, and its argument. -/
def lookedAtSleep (payload : String) : Option (Position ℕ × List ℕ) := exec sleepArg (units payload)

/-- The `WAITFOR DELAY` that is looked at, unless it is the end of a longer word. -/
def lookedAtWaitfor (payload : String) : Option (Position ℕ × List ℕ × List ℕ × List ℕ) :=
  (exec waitforArg (units payload)).filter fun m => isDelay m.1

/-- The position is another one than that of a match. -/
def elsewhere {β : Type} (m : Option (Position ℕ × β)) (pos : Position ℕ) : Bool :=
  m.all fun m => m.1.after ≠ pos.after

/-- The delay constructs that are not looked at. -/
def overlooked (payload : String) : List (Position ℕ) :=
  ((delays payload).filter (elsewhere (lookedAtSleep payload))).filter (elsewhere (lookedAtWaitfor payload))

/-- The seconds of what is looked at. -/
def lookedAtSeconds (payload : String) : ℚ :=
  ((lookedAtSleep payload).bind fun m => numberOf m.2).getD 0 +
    ((lookedAtWaitfor payload).bind fun m => delaySeconds m.2).getD 0

/-- What the predicate asks of a payload for a SQL injection. -/
structure SqlScreened (payload : String) : Prop where
  bounds : checkGenericBounds payload sqliMaxLength = none
  semicolon : Text.includes payload ";" = false
  shape : sqliShape.test (units payload) = true
  destructive : sqliDestructive.test (units payload) = false
  sleep : ∀ m, exec sleepArg (units payload) = some m → overLimit sqliMaxSleepSeconds (numberOf m.2) = false
  waitfor : ∀ m, exec waitforArg (units payload) = some m →
    overLimit sqliMaxSleepSeconds (delaySeconds m.2) = false

/-- A payload is accepted when it passes every check. -/
theorem safe_iff_sqlScreened {payload : String} :
    (evaluateSqlInjectionPayload payload).safe = true ↔ SqlScreened payload := by
  unfold evaluateSqlInjectionPayload
  cases hbounds : checkGenericBounds payload sqliMaxLength with
  | some v =>
    refine ⟨fun h => ?_, fun h => ?_⟩
    · rw [not_safe_of_bounds hbounds] at h
      cases h
    · have hnone := h.bounds
      rw [hbounds] at hnone
      cases hnone
  | none =>
    dsimp only
    split_ifs with hsemicolon hshape hdestructive hsleep hwaitfor
    · exact ⟨fun h => (by cases h), fun h => absurd h.semicolon (by simp [hsemicolon])⟩
    · exact ⟨fun h => (by cases h), fun h => absurd h.shape (by simpa using hshape)⟩
    · exact ⟨fun h => (by cases h), fun h => absurd h.destructive (by simp [hdestructive])⟩
    · refine ⟨fun h => (by cases h), fun h => ?_⟩
      obtain ⟨m, hm, hover⟩ := (Option.any_eq_true _ _).mp hsleep
      rw [h.sleep m hm] at hover
      cases hover
    · refine ⟨fun h => (by cases h), fun h => ?_⟩
      obtain ⟨m, hm, hover⟩ := (Option.any_eq_true _ _).mp hwaitfor
      rw [h.waitfor m hm] at hover
      cases hover
    · refine ⟨fun _ => ⟨hbounds, by simpa using hsemicolon, by simpa using hshape, by simpa using hdestructive,
        fun m hm => ?_, fun m hm => ?_⟩, fun _ => rfl⟩
      · simpa [hm] using hsleep
      · simpa [hm] using hwaitfor

/-! ## Positions -/

theorem exec_eq_some {β : Type} {matchAt : Position ℕ → Option β} {text : List ℕ} {m : Position ℕ × β}
    (h : exec matchAt text = some m) : m.1 ∈ positions text ∧ matchAt m.1 = some m.2 := by
  obtain ⟨pos, hpos, hmatch⟩ := List.exists_of_findSome?_eq_some h
  obtain ⟨b, hb, rfl⟩ := Option.map_eq_some_iff.mp hmatch
  exact ⟨hpos, hb⟩

/-- Where a word is found, the text begins with its first letter, in one of its cases. -/
theorem head_of_afterCased {word : String} {text rest : List ℕ} {c : ℕ} (hword : (units word).head? = some c)
    (h : afterCased word text = some rest) : ∃ d, text.head? = some d ∧ (d = c ∨ d + 0x20 = c) := by
  obtain ⟨cs, hcs⟩ := List.head?_eq_some_iff.mp hword
  unfold afterCased at h
  rw [hcs] at h
  dsimp only at h
  split_ifs at h with hmatch
  obtain ⟨hletters, hlength⟩ := hmatch
  cases text with
  | nil => simp at hlength
  | cons d text =>
    rw [List.zip_cons_cons, List.all_cons, Bool.and_eq_true] at hletters
    refine ⟨d, rfl, ?_⟩
    have hfirst := hletters.1
    simp only [Bool.or_eq_true, Bool.and_eq_true, decide_eq_true_eq] at hfirst
    omega

/-- No position has a sleep and a waitfor. -/
theorem not_waitforArg_of_sleepArg {pos : Position ℕ} {arg : List ℕ} (h : sleepArg pos = some arg) :
    waitforArg pos = none := by
  by_contra hwaitfor
  obtain ⟨groups, hgroups⟩ := Option.ne_none_iff_exists'.mp hwaitfor
  obtain ⟨_, hw, -⟩ := Option.bind_eq_some_iff.mp hgroups
  obtain ⟨_, hs, -⟩ := Option.bind_eq_some_iff.mp h
  obtain ⟨d, hd, hcase⟩ := head_of_afterCased (c := 119) (by decide) hw
  unfold afterSleep at hs
  split_ifs at hs
  obtain hs | hs := Option.or_eq_some_iff.mp hs
  · obtain ⟨d', hd', hcase'⟩ := head_of_afterCased (c := 115) (by decide) hs
    rw [hd] at hd'
    cases hd'
    omega
  · obtain ⟨d', hd', hcase'⟩ := head_of_afterCased (c := 112) (by decide) hs.2
    rw [hd] at hd'
    cases hd'
    omega

/-- A sleep that is looked at is a delay construct. -/
theorem isDelay_of_sleepArg {pos : Position ℕ} {arg : List ℕ} (h : sleepArg pos = some arg) :
    isDelay pos = true := by
  obtain ⟨rest, hsleep, harg⟩ := Option.bind_eq_some_iff.mp h
  have hrest : rest.head?.any isWord = false := by
    obtain ⟨inside, hopen, -⟩ := Option.bind_eq_some_iff.mp harg
    cases rest with
    | nil => rfl
    | cons c rest =>
      cases hspace : isSpace c with
      | true => simpa using isWord_of_isSpace hspace
      | false =>
        rw [afterSpaces, List.dropWhile_cons_of_neg (by simp [hspace]), afterUnit] at hopen
        split_ifs at hopen with hc
        have hword : isWord (unit '(') = false := by decide
        simpa [hc] using hword
  unfold afterSleep at hsleep
  split_ifs at hsleep with hbefore
  have hboundary : pos.before.any isWord = false := by simpa using hbefore
  obtain hs | hs := Option.or_eq_some_iff.mp hsleep
  · simp [isDelay, delayWords, wordAt, hboundary, hs, hrest]
  · simp [isDelay, delayWords, wordAt, hboundary, hs.2, hrest]

/-! ## Sums -/

/-- The constructs of a payload, one of them apart. -/
theorem sum_elsewhere {β : Type} (asks : Position ℕ → ℚ) {places : List (Position ℕ)}
    (hpairwise : places.Pairwise fun p q => p.after ≠ q.after) (m : Option (Position ℕ × β))
    (hmem : ∀ p ∈ m, p.1 ∈ places) :
    (places.map asks).sum =
      (m.map fun m => asks m.1).getD 0 + ((places.filter (elsewhere m)).map asks).sum := by
  cases m with
  | none =>
    have hall : places.filter (elsewhere (none : Option (Position ℕ × β))) = places :=
      List.filter_eq_self.mpr fun _ _ => rfl
    rw [hall, Option.map_none, Option.getD_none, zero_add]
  | some m =>
    have hmem : m.1 ∈ places := hmem m rfl
    have hthere : elsewhere (some m) m.1 = false := by simp [elsewhere]
    clear * - hpairwise hmem hthere
    induction places with
    | nil => cases hmem
    | cons p places ih =>
      obtain ⟨hp, hpairwise⟩ := List.pairwise_cons.mp hpairwise
      obtain heq | hmem := List.mem_cons.mp hmem
      · -- the construct itself is taken out, and no other one
        have hothers : places.filter (elsewhere (some m)) = places :=
          List.filter_eq_self.mpr fun q hq => by simpa [elsewhere, heq] using hp q hq
        rw [List.filter_cons_of_neg (by rw [← heq, hthere]; decide), hothers, List.map_cons, List.sum_cons,
          ← heq]
        rfl
      · have hkept : elsewhere (some m) p = true := by
          simpa [elsewhere] using fun h => hp m.1 hmem h.symm
        rw [List.filter_cons_of_pos hkept, List.map_cons, List.map_cons, List.sum_cons, List.sum_cons,
          ih hpairwise hmem]
        ring

theorem found_of_elsewhere {β : Type} {m : Option (Position ℕ × β)} {pos : Position ℕ}
    (h : elsewhere m pos = false) : ∃ m', m = some m' ∧ m'.1.after = pos.after := by
  cases m with
  | none => cases h
  | some m => exact ⟨m, rfl, by simpa [elsewhere] using h⟩

theorem pairwise_delays (payload : String) :
    (delays payload).Pairwise fun p q => p.after ≠ q.after :=
  (pairwise_positionsFrom none (units payload)).filter _

variable {db : Database} {payload : String}

/-- Constructs with the same text after them are the same. -/
theorem eq_of_after {p q : Position ℕ} (hp : p ∈ delays payload) (hq : q ∈ delays payload)
    (h : p.after = q.after) : p = q := by
  by_contra hne
  have : Std.Symm fun p q : Position ℕ => p.after ≠ q.after := ⟨fun _ _ hpq => hpq.symm⟩
  exact (pairwise_delays payload).forall hp hq hne h

theorem lookedAtSleep_spec {m : Position ℕ × List ℕ} (h : lookedAtSleep payload = some m) :
    m.1 ∈ delays payload ∧ sleepArg m.1 = some m.2 := by
  obtain ⟨hpos, harg⟩ := exec_eq_some h
  exact ⟨List.mem_filter.mpr ⟨hpos, isDelay_of_sleepArg harg⟩, harg⟩

theorem lookedAtWaitfor_spec {m : Position ℕ × List ℕ × List ℕ × List ℕ}
    (h : lookedAtWaitfor payload = some m) :
    exec waitforArg (units payload) = some m ∧ m.1 ∈ delays payload ∧ isDelay m.1 = true ∧
      waitforArg m.1 = some m.2 := by
  obtain ⟨hexec, hdelay⟩ := Option.filter_eq_some_iff.mp h
  obtain ⟨hpos, harg⟩ := exec_eq_some hexec
  exact ⟨hexec, List.mem_filter.mpr ⟨hpos, hdelay⟩, hdelay, harg⟩

/-- The number is within the limit. -/
theorem of_overLimit {limit : ℚ} {seconds : Option ℚ} (h : overLimit limit seconds = false) :
    ∃ s, seconds = some s ∧ s ≤ limit := by
  cases seconds with
  | none => cases h
  | some s => exact ⟨s, rfl, not_lt.mp (of_decide_eq_false h)⟩

/-- A sleep that is looked at asks for the number that is its argument, five at most. -/
theorem asks_lookedAtSleep (db : Database) (hscreened : SqlScreened payload) {m : Position ℕ × List ℕ}
    (h : lookedAtSleep payload = some m) : numberOf m.2 = some (db.asks m.1) ∧ db.asks m.1 ≤ 5 := by
  obtain ⟨seconds, hnumber, hle⟩ := of_overLimit (hscreened.sleep m h)
  rw [db.asks_sleep m.1 m.2 seconds (lookedAtSleep_spec h).2 hnumber]
  exact ⟨hnumber, hle⟩

theorem asks_lookedAtWaitfor (db : Database) (hscreened : SqlScreened payload)
    {m : Position ℕ × List ℕ × List ℕ × List ℕ} (h : lookedAtWaitfor payload = some m) :
    delaySeconds m.2 = some (db.asks m.1) ∧ db.asks m.1 ≤ 5 := by
  obtain ⟨hexec, _, hdelay, harg⟩ := lookedAtWaitfor_spec h
  obtain ⟨seconds, hnumber, hle⟩ := of_overLimit (hscreened.waitfor m hexec)
  rw [db.asks_waitfor m.1 m.2 seconds hdelay harg hnumber]
  exact ⟨hnumber, hle⟩

/-- What a payload asks for is what is looked at and what is overlooked. -/
theorem sum_delays (hscreened : SqlScreened payload) :
    ((delays payload).map db.asks).sum = lookedAtSeconds payload + ((overlooked payload).map db.asks).sum := by
  have hsleep : ((lookedAtSleep payload).map fun m => db.asks m.1).getD 0 =
      ((lookedAtSleep payload).bind fun m => numberOf m.2).getD 0 := by
    cases h : lookedAtSleep payload with
    | none => rfl
    | some m => simp [(asks_lookedAtSleep db hscreened h).1]
  have hwaitfor : ((lookedAtWaitfor payload).map fun m => db.asks m.1).getD 0 =
      ((lookedAtWaitfor payload).bind fun m => delaySeconds m.2).getD 0 := by
    cases h : lookedAtWaitfor payload with
    | none => rfl
    | some m => simp [(asks_lookedAtWaitfor db hscreened h).1]
  -- the waitfor that is looked at is not at the position of the sleep
  have hapart : ∀ m ∈ lookedAtWaitfor payload,
      m.1 ∈ (delays payload).filter (elsewhere (lookedAtSleep payload)) := by
    intro m hm
    obtain ⟨_, hdelay, _, harg⟩ := lookedAtWaitfor_spec hm
    refine List.mem_filter.mpr ⟨hdelay, ?_⟩
    cases h : lookedAtSleep payload with
    | none => rfl
    | some m' =>
      have hnone := not_waitforArg_of_sleepArg (lookedAtSleep_spec h).2
      refine decide_eq_true fun heq => ?_
      rw [waitforArg, heq, show (afterCased "waitfor" m.1.after).bind delayLiteral = waitforArg m.1 from rfl,
        harg] at hnone
      cases hnone
  rw [sum_elsewhere db.asks (pairwise_delays payload) (lookedAtSleep payload)
      (fun m hm => (lookedAtSleep_spec hm).1),
    sum_elsewhere db.asks ((pairwise_delays payload).filter _) (lookedAtWaitfor payload) hapart, hsleep,
    hwaitfor, lookedAtSeconds, overlooked]
  ring

/-! ## Bounded delays -/

/-- What is not looked at asks for five seconds at most, and so does everything together. -/
def FitsOverlooked (db : Database) (payload : String) : Prop :=
  (∀ pos ∈ overlooked payload, db.asks pos ≤ 5) ∧
    lookedAtSeconds payload + ((overlooked payload).map db.asks).sum ≤ 5

/-- An accepted payload keeps a database waiting for five seconds at most exactly when it fails a check, or what
is not looked at leaves it at that. -/
theorem boundedDelays_iff (db : Database) (parseUrl : String → Option PayloadUrl) (payload : String) :
    BoundedDelays db parseUrl payload ↔ (SqlScreened payload → FitsOverlooked db payload) := by
  have hscreen : (evaluateComposedPayloadSafety parseUrl .sqlInjection payload none).safe = true ↔
      SqlScreened payload := safe_iff_sqlScreened
  rw [BoundedDelays, hscreen]
  constructor
  · intro hbounded hscreened
    obtain ⟨heach, htotal⟩ := hbounded hscreened
    rw [sum_delays hscreened] at htotal
    exact ⟨fun pos hpos => heach pos (List.mem_filter.mp (List.mem_filter.mp hpos).1).1, htotal⟩
  · intro hfits hscreened
    obtain ⟨heach, htotal⟩ := hfits hscreened
    refine ⟨fun pos hpos => ?_, (sum_delays hscreened).trans_le htotal⟩
    -- a construct is looked at, as a sleep or as a waitfor, or it is overlooked
    cases hsleep : elsewhere (lookedAtSleep payload) pos with
    | false =>
      obtain ⟨m, hm, hsame⟩ := found_of_elsewhere hsleep
      rw [← eq_of_after (lookedAtSleep_spec hm).1 hpos hsame]
      exact (asks_lookedAtSleep db hscreened hm).2
    | true =>
      cases hwaitfor : elsewhere (lookedAtWaitfor payload) pos with
      | false =>
        obtain ⟨m, hm, hsame⟩ := found_of_elsewhere hwaitfor
        rw [← eq_of_after (lookedAtWaitfor_spec hm).2.1 hpos hsame]
        exact (asks_lookedAtWaitfor db hscreened hm).2
      | true => exact heach pos (List.mem_filter.mpr ⟨List.mem_filter.mpr ⟨hpos, hsleep⟩, hwaitfor⟩)

/-- A database that waits for literals only. -/
def literalDatabase : Database where
  asks pos :=
    match sleepArg pos, waitforArg pos with
    | some arg, _ => (numberOf arg).getD 0
    | none, some groups => (delaySeconds groups).getD 0
    | none, none => 0
  asks_sleep := by
    intro pos arg seconds harg hnumber
    simp [harg, hnumber]
  asks_waitfor := by
    intro pos groups seconds _ hgroups hnumber
    cases harg : sleepArg pos with
    | none => simp [hgroups, hnumber]
    | some arg =>
      rw [not_waitforArg_of_sleepArg harg] at hgroups
      cases hgroups

/-- A second sleep is not looked at. -/
theorem not_boundedDelays_twice :
    ¬BoundedDelays literalDatabase (fun _ => none) "' OR SLEEP(5) OR SLEEP(50)-- -" := by
  intro h
  have hsum := (h (by decide +kernel)).2
  revert hsum
  decide +kernel

end MontrSecure.Confirm
