import MontrSecure.Contracts.Layers
import MontrSecure.Data.GreedyMatching

/-!
# Scores of a benchmark repository

`scoreRepo` of `packages/qa/src/scorer.ts`: the confirmed findings of a scan against the ground truth of a repository.
A finding takes the first expectation that is near and not taken yet; which counts this can give is a matter of the
maximal pairings of findings and expectations.
-/

namespace MontrSecure.Qa

/-! ## Ground truth and options -/

/-- `GroundTruthFindingSchema`, as far as the scorer reads it. -/
structure GroundTruthFinding where
  id : String
  category : Category
  file : String
  line : ℕ
  exploitable : Bool

/-- The kind of a repository of the corpus. -/
inductive RepoKind where
  | vulnerable
  | clean

/-- `GroundTruthRepoSchema`, as far as the scorer reads it. -/
structure GroundTruthRepo where
  name : String
  kind : RepoKind
  expectedFindings : List GroundTruthFinding

/-- `FalsePositiveMarker`. -/
structure FalsePositiveMarker where
  category : Category
  file : String
  line : ℕ

/-- `ScoreOptions`. -/
structure ScoreOptions where
  lineTolerance : Option ℚ := none
  falsePositives : Option (List FalsePositiveMarker) := none

/-- `DEFAULT_LINE_TOLERANCE`. -/
def defaultLineTolerance : ℚ := 3

namespace ScoreOptions

/-- `opts.lineTolerance ?? DEFAULT_LINE_TOLERANCE`. -/
def tol (opts : ScoreOptions) : ℚ := opts.lineTolerance.getD defaultLineTolerance

/-- `opts.falsePositives ?? []`. -/
def fpMarkers (opts : ScoreOptions) : List FalsePositiveMarker := opts.falsePositives.getD []

end ScoreOptions

/-- `Math.abs(a - b) <= tol`. -/
def withinLines (a b : ℕ) (tol : ℚ) : Bool := ((Int.natAbs ((a : ℤ) - b) : ℕ) : ℚ) ≤ tol

/-- `locationMatches`. -/
def locationMatches (finding : ConfirmedFinding) (gt : GroundTruthFinding) (lineTolerance : ℚ) : Bool :=
  finding.category = gt.category && finding.location.file = gt.file &&
    withinLines finding.location.line gt.line lineTolerance

/-- `markerMatchesLoc`. -/
def markerMatchesLoc (marker : FalsePositiveMarker) (category : Category) (file : String) (line : ℕ)
    (lineTolerance : ℚ) : Bool :=
  marker.category = category && marker.file = file && withinLines marker.line line lineTolerance

/-- `isOperatorMarkedFp`. -/
def isOperatorMarkedFp (opts : ScoreOptions) (category : Category) (file : String) (line : ℕ) : Bool :=
  opts.fpMarkers.any fun m => markerMatchesLoc m category file line opts.tol

/-! ## The score -/

/-- The kind of an outcome. -/
inductive OutcomeKind where
  | truePositive
  | falsePositive
  | falseNegative

/-- `MatchOutcome`. -/
structure MatchOutcome where
  kind : OutcomeKind
  category : Category
  confirmedId : Option String := none
  groundTruthId : Option String := none
  file : String
  line : ℕ
  note : Option String := none

/-- `ConfusionCounts`, with the findings that ground truth wants demoted. -/
structure Counts where
  truePositives : ℕ
  falsePositives : ℕ
  falseNegatives : ℕ
  overConfirmed : ℕ
  deriving DecidableEq

/-- `RepoScore`. -/
structure RepoScore where
  repo : String
  kind : RepoKind
  counts : Counts
  outcomes : List MatchOutcome

/-- What the loop over the findings carries; `matched` has the ids of the expectations that are taken. -/
structure Scoring where
  matched : List String := []
  truePositives : ℕ := 0
  falsePositives : ℕ := 0
  overConfirmed : ℕ := 0
  outcomes : List MatchOutcome := []

namespace GroundTruthRepo

/-- `expectedConfirmed`. -/
def expectedConfirmed (repo : GroundTruthRepo) : List GroundTruthFinding :=
  repo.expectedFindings.filter (·.exploitable)

/-- `expectedDemoted`. -/
def expectedDemoted (repo : GroundTruthRepo) : List GroundTruthFinding :=
  repo.expectedFindings.filter fun g => !g.exploitable

end GroundTruthRepo

/-- A finding is marked. -/
def isMarked (opts : ScoreOptions) (finding : ConfirmedFinding) : Bool :=
  isOperatorMarkedFp opts finding.category finding.location.file finding.location.line

/-- The demoted case that a finding is near. -/
def demotedFor (repo : GroundTruthRepo) (opts : ScoreOptions) (finding : ConfirmedFinding) :
    Option GroundTruthFinding :=
  repo.expectedDemoted.find? fun g => locationMatches finding g opts.tol

/-- The first expectation that is near a finding and not taken. -/
def hitFor (repo : GroundTruthRepo) (opts : ScoreOptions) (matched : List String) (finding : ConfirmedFinding) :
    Option GroundTruthFinding :=
  repo.expectedConfirmed.find? fun g => g.id ∉ matched && locationMatches finding g opts.tol

/-- One round of the loop over the findings. -/
def scoreFinding (repo : GroundTruthRepo) (opts : ScoreOptions) (s : Scoring) (finding : ConfirmedFinding) : Scoring :=
  let outcome : MatchOutcome :=
    { kind := .falsePositive, category := finding.category, confirmedId := some finding.id
      file := finding.location.file, line := finding.location.line }
  if isMarked opts finding then
    { s with
      falsePositives := s.falsePositives + 1
      outcomes := s.outcomes ++
        [{ outcome with note := some "operator-marked false positive (regression corpus, §15)" }] }
  else
    match hitFor repo opts s.matched finding with
    | some hit =>
      { s with
        matched := hit.id :: s.matched
        truePositives := s.truePositives + 1
        outcomes := s.outcomes ++
          [{ outcome with kind := .truePositive, category := hit.category, groundTruthId := some hit.id }] }
    | none =>
      let demoted := demotedFor repo opts finding
      { s with
        falsePositives := s.falsePositives + 1
        overConfirmed := s.overConfirmed + if demoted.isSome then 1 else 0
        outcomes := s.outcomes ++
          [{ outcome with
            groundTruthId := demoted.map (·.id)
            note := some (if demoted.isSome then
                "over-confirmed: ground truth marks this non-exploitable (should stay demoted)"
              else "spurious: no matching ground-truth finding") }] }

/-- An expectation that is missed: it is not taken, and no operator has marked it. -/
def isMissed (opts : ScoreOptions) (matched : List String) (gt : GroundTruthFinding) : Bool :=
  gt.id ∉ matched && !isOperatorMarkedFp opts gt.category gt.file gt.line

/-- The outcome of a missed expectation. -/
def missedOutcome (gt : GroundTruthFinding) : MatchOutcome :=
  { kind := .falseNegative, category := gt.category, groundTruthId := some gt.id, file := gt.file, line := gt.line
    note := some "expected-exploitable finding was not confirmed" }

/-- `scoreRepo`. -/
def scoreRepo (repo : GroundTruthRepo) (confirmed : List ConfirmedFinding) (opts : ScoreOptions) : RepoScore :=
  let s := confirmed.foldl (scoreFinding repo opts) {}
  let missed := repo.expectedConfirmed.filter (isMissed opts s.matched)
  { repo := repo.name
    kind := repo.kind
    counts :=
      { truePositives := s.truePositives
        falsePositives := s.falsePositives
        falseNegatives := missed.length
        overConfirmed := s.overConfirmed }
    outcomes := s.outcomes ++ missed.map missedOutcome }

/-! ## Pairings -/

section Pairings

variable (repo : GroundTruthRepo) (confirmed : List ConfirmedFinding) (opts : ScoreOptions)

/-- The findings that no operator has marked. -/
def unmarked (confirmed : List ConfirmedFinding) (opts : ScoreOptions) : List ConfirmedFinding :=
  confirmed.filter fun f => !isMarked opts f

/-- A finding is near an expectation. -/
def isNear (opts : ScoreOptions) (finding : ConfirmedFinding) (gt : GroundTruthFinding) : Bool :=
  locationMatches finding gt opts.tol

/-- A pairing of unmarked findings with exploitable expectations that no pair can be added to; the expectations have
different ids. -/
abbrev IsMaximalPairing (pairs : List (ConfirmedFinding × GroundTruthFinding)) (rest : List ConfirmedFinding) : Prop :=
  Matching.IsMaximal (isNear opts) GroundTruthFinding.id (unmarked confirmed opts) repo.expectedConfirmed pairs rest

/-- The sizes of the one-to-one matchings of unmarked findings and exploitable expectations. -/
abbrev matchingSizes : Set ℕ := Matching.sizes (isNear opts) (unmarked confirmed opts) repo.expectedConfirmed

/-- The counts of a pairing. -/
def countsOf (pairs : List (ConfirmedFinding × GroundTruthFinding)) (rest : List ConfirmedFinding) : Counts :=
  { truePositives := pairs.length
    falsePositives := (confirmed.filter (isMarked opts)).length + rest.length
    falseNegatives := (repo.expectedConfirmed.filter (isMissed opts (pairs.map fun p => p.2.id))).length
    overConfirmed := (rest.filter fun f => (demotedFor repo opts f).isSome).length }

/-- The pairing that the loop makes. -/
def pairing : List (ConfirmedFinding × GroundTruthFinding) × List ConfirmedFinding :=
  Matching.assign (isNear opts) GroundTruthFinding.id repo.expectedConfirmed [] (unmarked confirmed opts)

section Loop

variable {repo opts} {s : Scoring} {finding : ConfirmedFinding}

theorem scoreFinding_marked (h : isMarked opts finding = true) :
    (scoreFinding repo opts s finding).matched = s.matched ∧
      (scoreFinding repo opts s finding).truePositives = s.truePositives ∧
      (scoreFinding repo opts s finding).falsePositives = s.falsePositives + 1 ∧
      (scoreFinding repo opts s finding).overConfirmed = s.overConfirmed := by
  rw [scoreFinding, if_pos h]
  exact ⟨rfl, rfl, rfl, rfl⟩

example : withinLines 10 13 3 = true := by decide +kernel

theorem scoreFinding_hit {hit : GroundTruthFinding} (h : isMarked opts finding = false)
    (hhit : hitFor repo opts s.matched finding = some hit) :
    (scoreFinding repo opts s finding).matched = hit.id :: s.matched ∧
      (scoreFinding repo opts s finding).truePositives = s.truePositives + 1 ∧
      (scoreFinding repo opts s finding).falsePositives = s.falsePositives ∧
      (scoreFinding repo opts s finding).overConfirmed = s.overConfirmed := by
  rw [scoreFinding, if_neg (by rw [h]; exact Bool.false_ne_true), hhit]
  exact ⟨rfl, rfl, rfl, rfl⟩

theorem scoreFinding_spurious (h : isMarked opts finding = false) (hhit : hitFor repo opts s.matched finding = none) :
    (scoreFinding repo opts s finding).matched = s.matched ∧
      (scoreFinding repo opts s finding).truePositives = s.truePositives ∧
      (scoreFinding repo opts s finding).falsePositives = s.falsePositives + 1 ∧
      (scoreFinding repo opts s finding).overConfirmed =
        s.overConfirmed + if (demotedFor repo opts finding).isSome then 1 else 0 := by
  rw [scoreFinding, if_neg (by rw [h]; exact Bool.false_ne_true), hhit]
  exact ⟨rfl, rfl, rfl, rfl⟩

/-- What the loop adds to a state, when it makes the pairs `pairs` and `rest` stays over. -/
structure Adds (repo : GroundTruthRepo) (opts : ScoreOptions) (s s' : Scoring) (marked : ℕ)
    (pairs : List (ConfirmedFinding × GroundTruthFinding)) (rest : List ConfirmedFinding) : Prop where
  matched : ∀ id, id ∈ s'.matched ↔ id ∈ s.matched ∨ id ∈ pairs.map fun p => p.2.id
  truePositives : s'.truePositives = s.truePositives + pairs.length
  falsePositives : s'.falsePositives = s.falsePositives + (marked + rest.length)
  overConfirmed : s'.overConfirmed = s.overConfirmed + (rest.filter fun f => (demotedFor repo opts f).isSome).length

/-- The loop pairs the unmarked findings one after the other. -/
theorem adds_foldl (s : Scoring) (fs : List ConfirmedFinding) :
    Adds repo opts s (fs.foldl (scoreFinding repo opts) s) (fs.filter (isMarked opts)).length
      (Matching.assign (isNear opts) GroundTruthFinding.id repo.expectedConfirmed s.matched (unmarked fs opts)).1
      (Matching.assign (isNear opts) GroundTruthFinding.id repo.expectedConfirmed s.matched (unmarked fs opts)).2 := by
  induction fs generalizing s with
  | nil => exact ⟨fun id => by simp [unmarked, Matching.assign], rfl, rfl, rfl⟩
  | cons f fs ih =>
    rw [List.foldl_cons]
    have htail := ih (scoreFinding repo opts s f)
    rcases hmarked : isMarked opts f with _ | _
    · have hunmarked : unmarked (f :: fs) opts = f :: unmarked fs opts := by simp [unmarked, hmarked]
      have hcount : (f :: fs).filter (isMarked opts) = fs.filter (isMarked opts) := by simp [hmarked]
      rw [hunmarked, hcount]
      rcases hhit : hitFor repo opts s.matched f with _ | hit
      · obtain ⟨h1, h2, h3, h4⟩ := scoreFinding_spurious hmarked hhit
        have hfind : (repo.expectedConfirmed.find? fun e => e.id ∉ s.matched && isNear opts f e) = none := hhit
        rw [Matching.assign_of_none hfind]
        rw [h1] at htail
        refine ⟨fun id => ?_, ?_, ?_, ?_⟩
        · rw [htail.matched, h1]
        · rw [htail.truePositives, h2]
        · rw [htail.falsePositives, h3, List.length_cons]
          omega
        · rw [htail.overConfirmed, h4, List.filter_cons]
          split_ifs
          · rw [List.length_cons]
            omega
          · rfl
      · obtain ⟨h1, h2, h3, h4⟩ := scoreFinding_hit hmarked hhit
        have hfind : (repo.expectedConfirmed.find? fun e => e.id ∉ s.matched && isNear opts f e) = some hit := hhit
        rw [Matching.assign_of_some hfind]
        rw [h1] at htail
        refine ⟨fun id => ?_, ?_, ?_, ?_⟩
        · rw [htail.matched, h1, List.mem_cons, List.map_cons, List.mem_cons, or_assoc, or_left_comm]
        · rw [htail.truePositives, h2, List.length_cons]
          omega
        · rw [htail.falsePositives, h3]
        · rw [htail.overConfirmed, h4]
    · have hunmarked : unmarked (f :: fs) opts = unmarked fs opts := by simp [unmarked, hmarked]
      have hcount : (f :: fs).filter (isMarked opts) = f :: fs.filter (isMarked opts) := by simp [hmarked]
      obtain ⟨h1, h2, h3, h4⟩ := scoreFinding_marked hmarked
      rw [hunmarked, hcount]
      rw [h1] at htail
      refine ⟨fun id => ?_, ?_, ?_, ?_⟩
      · rw [htail.matched, h1]
      · rw [htail.truePositives, h2]
      · rw [htail.falsePositives, h3, List.length_cons]
        omega
      · rw [htail.overConfirmed, h4]

end Loop

/-- The counts are those of the pairing that the loop makes. -/
theorem counts_scoreRepo :
    (scoreRepo repo confirmed opts).counts =
      countsOf repo confirmed opts (pairing repo confirmed opts).1 (pairing repo confirmed opts).2 := by
  have h : Adds repo opts {} (confirmed.foldl (scoreFinding repo opts) {}) (confirmed.filter (isMarked opts)).length
      (pairing repo confirmed opts).1 (pairing repo confirmed opts).2 := adds_foldl {} confirmed
  have hmissed : isMissed opts (confirmed.foldl (scoreFinding repo opts) {}).matched =
      isMissed opts ((pairing repo confirmed opts).1.map fun p => p.2.id) := by
    funext gt
    have hmem := h.matched gt.id
    rw [or_iff_right List.not_mem_nil] at hmem
    rw [isMissed, isMissed, decide_eq_decide.mpr (not_congr hmem)]
  rw [scoreRepo, countsOf, ← hmissed]
  simp only [Counts.mk.injEq]
  refine ⟨?_, ?_, trivial, ?_⟩
  · exact h.truePositives.trans (Nat.zero_add _)
  · exact h.falsePositives.trans (Nat.zero_add _)
  · exact h.overConfirmed.trans (Nat.zero_add _)

end Pairings

/-! ## Orders -/

section Orders

variable {repo repo' : GroundTruthRepo} {confirmed confirmed' : List ConfirmedFinding} {opts : ScoreOptions}
  {pairs : List (ConfirmedFinding × GroundTruthFinding)} {rest : List ConfirmedFinding}

/-- The marked findings and those of the pairing are all findings. -/
theorem total_countsOf (h : IsMaximalPairing repo confirmed opts pairs rest) :
    (countsOf repo confirmed opts pairs rest).truePositives + (countsOf repo confirmed opts pairs rest).falsePositives =
      confirmed.length := by
  have hpairs := h.perm.length_eq
  rw [List.length_append, List.length_map] at hpairs
  have hall : (confirmed.filter (isMarked opts)).length + (unmarked confirmed opts).length = confirmed.length := by
    rw [← List.length_append]
    exact (List.filter_append_perm (isMarked opts) confirmed).length_eq
  change pairs.length + ((confirmed.filter (isMarked opts)).length + rest.length) = confirmed.length
  omega

theorem isMaximalPairing_pairing (repo : GroundTruthRepo) (confirmed : List ConfirmedFinding) (opts : ScoreOptions) :
    IsMaximalPairing repo confirmed opts (pairing repo confirmed opts).1 (pairing repo confirmed opts).2 :=
  Matching.isMaximal_assign _ _

theorem isMaximalPairing_of_perm (hexpected : repo'.expectedFindings.Perm repo.expectedFindings)
    (hconfirmed : confirmed'.Perm confirmed) (h : IsMaximalPairing repo' confirmed' opts pairs rest) :
    IsMaximalPairing repo confirmed opts pairs rest :=
  h.of_perm (hconfirmed.filter _) (hexpected.filter _)

/-- The counts of a pairing do not depend on orders. -/
theorem countsOf_of_perm (hexpected : repo'.expectedFindings.Perm repo.expectedFindings)
    (hconfirmed : confirmed'.Perm confirmed) :
    countsOf repo' confirmed' opts pairs rest = countsOf repo confirmed opts pairs rest := by
  have hdemoted : ∀ f, (demotedFor repo' opts f).isSome = (demotedFor repo opts f).isSome := by
    intro f
    rw [Bool.eq_iff_iff, demotedFor, demotedFor, List.find?_isSome, List.find?_isSome]
    exact exists_congr fun g => and_congr_left' (hexpected.filter _).mem_iff
  simp only [countsOf, Counts.mk.injEq, hdemoted, and_true, true_and]
  exact ⟨by rw [(hconfirmed.filter _).length_eq], ((hexpected.filter _).filter _).length_eq⟩

/-- Each maximal pairing is made for some order of the findings and the expectations. -/
theorem exists_scoreRepo (h : IsMaximalPairing repo confirmed opts pairs rest) :
    ∃ expected confirmed', expected.Perm repo.expectedFindings ∧ confirmed'.Perm confirmed ∧
      (scoreRepo { repo with expectedFindings := expected } confirmed' opts).counts =
        countsOf repo confirmed opts pairs rest := by
  obtain ⟨left, right, hleft, hright, hassign⟩ := h.exists_order
  have hexpected : (right ++ repo.expectedDemoted).Perm repo.expectedFindings :=
    (hright.append_right _).trans (List.filter_append_perm GroundTruthFinding.exploitable _)
  have hconfirmed : (left ++ confirmed.filter (isMarked opts)).Perm confirmed := by
    refine ((hleft.append_right _).trans List.perm_append_comm).trans ?_
    exact List.filter_append_perm (isMarked opts) confirmed
  have hunmarked : unmarked (left ++ confirmed.filter (isMarked opts)) opts = left := by
    have hkept : left.filter (fun f => !isMarked opts f) = left :=
      List.filter_eq_self.mpr fun f hf => (List.mem_filter.mp (hleft.mem_iff.mp hf)).2
    have hgone : (confirmed.filter (isMarked opts)).filter (fun f => !isMarked opts f) = [] := by
      refine List.filter_eq_nil_iff.mpr fun f hf => ?_
      rw [(List.mem_filter.mp hf).2]
      exact Bool.false_ne_true
    rw [unmarked, List.filter_append, hkept, hgone, List.append_nil]
  have hexploitable : (right ++ repo.expectedDemoted).filter (·.exploitable) = right := by
    have hkept : right.filter (·.exploitable) = right :=
      List.filter_eq_self.mpr fun g hg => (List.mem_filter.mp (hright.mem_iff.mp hg)).2
    have hgone : repo.expectedDemoted.filter (·.exploitable) = [] := by
      refine List.filter_eq_nil_iff.mpr fun g hg hexploitable => ?_
      have hdemoted := (List.mem_filter.mp hg).2
      rw [hexploitable] at hdemoted
      cases hdemoted
    rw [List.filter_append, hkept, hgone, List.append_nil]
  refine ⟨_, _, hexpected, hconfirmed, ?_⟩
  have hpairing : pairing { repo with expectedFindings := right ++ repo.expectedDemoted }
      (left ++ confirmed.filter (isMarked opts)) opts = (pairs, rest) := by
    rw [pairing, hunmarked, GroundTruthRepo.expectedConfirmed, hexploitable, hassign]
  rw [counts_scoreRepo, hpairing]
  exact countsOf_of_perm hexpected hconfirmed

/-- The counts are those of every order; the true positives are the size of a largest matching, and each finding is a
true or a false positive. -/
structure OrderFree (repo : GroundTruthRepo) (confirmed : List ConfirmedFinding) (opts : ScoreOptions) : Prop where
  permutation : ∀ expected confirmed', expected.Perm repo.expectedFindings → confirmed'.Perm confirmed →
    (scoreRepo { repo with expectedFindings := expected } confirmed' opts).counts =
      (scoreRepo repo confirmed opts).counts
  largest : IsGreatest (matchingSizes repo confirmed opts) (scoreRepo repo confirmed opts).counts.truePositives
  total : (scoreRepo repo confirmed opts).counts.truePositives + (scoreRepo repo confirmed opts).counts.falsePositives =
    confirmed.length

/-- No choice of pairs that cannot go on is smaller than a largest matching, and none leaves more missed expectations or
more findings near a demoted case than another. -/
structure Settled (repo : GroundTruthRepo) (confirmed : List ConfirmedFinding) (opts : ScoreOptions) : Prop where
  largest : ∀ pairs rest, IsMaximalPairing repo confirmed opts pairs rest →
    IsGreatest (matchingSizes repo confirmed opts) pairs.length
  leftOver : ∀ pairs rest pairs' rest', IsMaximalPairing repo confirmed opts pairs rest →
    IsMaximalPairing repo confirmed opts pairs' rest' →
      (countsOf repo confirmed opts pairs rest).falseNegatives =
          (countsOf repo confirmed opts pairs' rest').falseNegatives ∧
        (countsOf repo confirmed opts pairs rest).overConfirmed =
          (countsOf repo confirmed opts pairs' rest').overConfirmed

/-- Settled pairings all have the same counts. -/
theorem Settled.countsOf_eq (h : Settled repo confirmed opts)
    {pairs' : List (ConfirmedFinding × GroundTruthFinding)} {rest' : List ConfirmedFinding}
    (hpairs : IsMaximalPairing repo confirmed opts pairs rest)
    (hpairs' : IsMaximalPairing repo confirmed opts pairs' rest') :
    countsOf repo confirmed opts pairs rest = countsOf repo confirmed opts pairs' rest' := by
  have hlength : pairs.length = pairs'.length := (h.largest _ _ hpairs).unique (h.largest _ _ hpairs')
  have hrest := hpairs.perm.length_eq.trans hpairs'.perm.length_eq.symm
  rw [List.length_append, List.length_append, List.length_map, List.length_map] at hrest
  have hrestLength : rest.length = rest'.length := by omega
  obtain ⟨hmissed, hdemoted⟩ := h.leftOver _ _ _ _ hpairs hpairs'
  have hfp : (countsOf repo confirmed opts pairs rest).falsePositives =
      (countsOf repo confirmed opts pairs' rest').falsePositives :=
    congrArg ((confirmed.filter (isMarked opts)).length + ·) hrestLength
  rcases hcounts : countsOf repo confirmed opts pairs rest with ⟨tp, fp, fn, oc⟩
  rcases hcounts' : countsOf repo confirmed opts pairs' rest' with ⟨tp', fp', fn', oc'⟩
  rw [hcounts, hcounts'] at hmissed hdemoted hfp
  have htp : tp = tp' := by
    have h1 : (countsOf repo confirmed opts pairs rest).truePositives = tp := by rw [hcounts]
    have h2 : (countsOf repo confirmed opts pairs' rest').truePositives = tp' := by rw [hcounts']
    exact h1.symm.trans (hlength.trans h2)
  simp only [Counts.mk.injEq]
  exact ⟨htp, hfp, hmissed, hdemoted⟩

/-- The scores of a repository do not depend on orders exactly when its pairings are settled. -/
theorem scoreRepo_orderFree_iff (repo : GroundTruthRepo) (confirmed : List ConfirmedFinding) (opts : ScoreOptions) :
    OrderFree repo confirmed opts ↔ Settled repo confirmed opts := by
  constructor
  · intro h
    have hcounts : ∀ pairs rest, IsMaximalPairing repo confirmed opts pairs rest →
        countsOf repo confirmed opts pairs rest = (scoreRepo repo confirmed opts).counts := by
      intro pairs rest hpairs
      obtain ⟨expected, confirmed', hexpected, hconfirmed, heq⟩ := exists_scoreRepo hpairs
      rw [← heq, h.permutation expected confirmed' hexpected hconfirmed]
    refine ⟨fun pairs rest hpairs => ?_, fun pairs rest pairs' rest' hpairs hpairs' => ?_⟩
    · have htp : pairs.length = (scoreRepo repo confirmed opts).counts.truePositives :=
        congrArg Counts.truePositives (hcounts pairs rest hpairs)
      rw [htp]
      exact h.largest
    · rw [hcounts pairs rest hpairs, hcounts pairs' rest' hpairs']
      exact ⟨rfl, rfl⟩
  · intro h
    have hpairing := isMaximalPairing_pairing repo confirmed opts
    refine ⟨fun expected confirmed' hexpected hconfirmed => ?_, ?_, ?_⟩
    · have hordered := isMaximalPairing_pairing { repo with expectedFindings := expected } confirmed' opts
      rw [counts_scoreRepo, counts_scoreRepo,
        ← h.countsOf_eq (isMaximalPairing_of_perm hexpected hconfirmed hordered) hpairing]
      exact countsOf_of_perm hexpected hconfirmed
    · rw [counts_scoreRepo]
      exact h.largest _ _ hpairing
    · rw [counts_scoreRepo]
      exact total_countsOf hpairing

end Orders

/-- An injection at a line of `src/db.ts`. -/
private def injectionAt (line : ℕ) : ConfirmedFinding where
  id := "cf"
  scanId := "scan"
  clientId := "client"
  title := "SQL injection"
  category := .sqlInjection
  severity := .high
  exposure := .public_
  location := { file := "src/db.ts", line := line }
  impact := ""
  proofType := .static
  proofArtifact := .null
  createdAt := 0

/-- An expected injection at a line of `src/db.ts`. -/
private def expectedAt (id : String) (line : ℕ) : GroundTruthFinding where
  id := id
  category := .sqlInjection
  file := "src/db.ts"
  line := line
  exploitable := true

/-- Expectations at the lines 10 and 14. -/
private def twoInjections : GroundTruthRepo where
  name := "shop"
  kind := .vulnerable
  expectedFindings := [expectedAt "gt_1" 10, expectedAt "gt_2" 14]

/-- The finding at line 12 takes the expectation at line 10, the only one for the finding at line 8. -/
theorem scoreRepo_not_orderFree :
    ¬∀ (repo : GroundTruthRepo) (confirmed : List ConfirmedFinding) (opts : ScoreOptions),
      OrderFree repo confirmed opts := by
  intro h
  have hlargest := (h twoInjections [injectionAt 12, injectionAt 8] {}).largest
  have hone : (scoreRepo twoInjections [injectionAt 12, injectionAt 8] {}).counts.truePositives = 1 := by
    decide +kernel
  have htwo : 2 ∈ matchingSizes twoInjections [injectionAt 12, injectionAt 8] {} := by
    refine ⟨[(injectionAt 8, expectedAt "gt_1" 10), (injectionAt 12, expectedAt "gt_2" 14)], rfl, ?_, ?_, ?_⟩
    · exact (List.Perm.swap _ _ []).subperm
    · exact List.Subperm.refl _
    · rintro p (_ | ⟨_, _ | ⟨_, _ | _⟩⟩)
      · decide +kernel
      · decide +kernel
  rw [hone] at hlargest
  exact absurd (hlargest.2 htwo) (by decide)

end MontrSecure.Qa
