import MontrSecure.Correlation.Ranking
import Mathlib.Data.Finset.Dedup

/-!
# The order of the reports

`correlate` on two orders of the same candidates. Which candidate stands for a group is decided by
severity, then by line, then by position; so the order of the candidates shows in the result exactly
when candidates that tie in the first two would give their group different outcomes, or when two
promoted groups tie in everything the ranking compares (`orderIndependent_iff`).
-/

namespace MontrSecure

open Text

/-! ## What is compared -/

/-- A probable finding in the report, its merged candidates as a set. -/
structure RankedFinding where
  rootCauseId : EntityId
  location : SourceLocation
  exposure : Exposure
  reachabilityScore : ℚ
  exposureScore : ℚ
  impactScore : ℚ
  rank : ℕ
  mergedCandidateIds : Finset EntityId

/-- What the report says of a finding. -/
def ProbableFinding.ranked (f : ProbableFinding) : RankedFinding :=
  { rootCauseId := f.rootCauseId
    location := f.location
    exposure := f.exposure
    reachabilityScore := f.reachabilityScore
    exposureScore := f.exposureScore
    impactScore := f.impactScore
    rank := f.rank
    mergedCandidateIds := f.mergedCandidateIds.toFinset }

/-- The same candidates are demoted, and the same findings stand in the same order. -/
structure SameReport (out out' : Layer2Output) : Prop where
  demoted : ∀ c, c ∈ out.demoted ↔ c ∈ out'.demoted
  probable : out.probable.map (·.ranked) = out'.probable.map (·.ranked)

theorem SameReport.symm {out out' : Layer2Output} (h : SameReport out out') : SameReport out' out :=
  ⟨fun c => (h.demoted c).symm, h.probable.symm⟩

theorem SameReport.trans {out₁ out₂ out₃ : Layer2Output} (h : SameReport out₁ out₂)
    (h' : SameReport out₂ out₃) : SameReport out₁ out₃ :=
  ⟨fun c => (h.demoted c).trans (h'.demoted c), h.probable.trans h'.probable⟩

/-- `c` stands for its group before `best`. -/
def Beats (c best : CandidateFinding) : Prop :=
  severityWeight best.rawSeverity < severityWeight c.rawSeverity ∨
    severityWeight c.rawSeverity = severityWeight best.rawSeverity ∧
      c.location.line < best.location.line

namespace CorrelateInput

variable (input : CorrelateInput)

/-- The same run with the candidates in another order. -/
def reorder (candidates : List CandidateFinding) : CorrelateInput := { input with candidates }

/-- The runs that are compared: without a gateway, over candidates with different ids, with callbacks
that answer by what they are asked only. -/
structure Orderly : Prop where
  wellFormed : input.WellFormed
  gateway : input.gateway = none
  distinct : (input.candidates.map (·.id)).Nodup
  fpTuning : ∀ tuning ∈ input.fpTuning, ∀ n, tuning n = tuning 0
  priorConfirmedShapes : ∀ shapes ∈ input.priorConfirmedShapes, ∀ n, shapes n = shapes 0

/-- The order in which the candidates come has no part in the report. -/
def OrderIndependent : Prop :=
  ∀ candidates, candidates.Perm input.candidates → ∀ out out', correlate input = .ok out →
    correlate (input.reorder candidates) = .ok out' → SameReport out out'

/-! ## The condition -/

/-- What becomes of a group that `rep` stands for, when it is promoted. -/
structure Outcome where
  location : SourceLocation
  exposure : Exposure
  score : ScoreTriple

/-- The outcome of a representative: none when it is demoted. -/
def outcome (rep : CandidateFinding) : Option Outcome :=
  let g := groundCandidate rep input.appMap
  if g.demote || input.knownFalsePositive 0 rep then none
  else some { location := rep.location, exposure := g.exposure, score := scoreGrounding rep g }

/-- What the ranking compares of a group that `rep` stands for. -/
def rankKey (rep : CandidateFinding) (o : Outcome) : RankKey :=
  { combined := o.score.reachabilityScore * o.score.exposureScore * o.score.impactScore
    impact := o.score.impactScore
    reach := o.score.reachabilityScore
    severity := severityWeight rep.rawSeverity
    priorShapeMatched :=
      input.priorConfirmedShapes.any fun shapes =>
        shapes 0 { category := rep.category, file := o.location.file }
    category := rep.category
    rootCauseId := makeRootCauseId input.scanId rep.category (keyOf input.appMap rep) }

/-- No candidate with its key stands before it. -/
structure Leads (c : CandidateFinding) : Prop where
  mem : c ∈ input.candidates
  best : ∀ d ∈ input.candidates, keyOf input.appMap d = keyOf input.appMap c → ¬Beats d c

/-- Candidates that tie for a group give it one outcome, and promoted groups do not tie. -/
structure TiesAgree : Prop where
  outcome : ∀ c c', input.Leads c → input.Leads c' → keyOf input.appMap c = keyOf input.appMap c' →
    input.outcome c = input.outcome c'
  rankKey : ∀ c c' o o', input.Leads c → input.Leads c' →
    keyOf input.appMap c ≠ keyOf input.appMap c' → input.outcome c = some o →
      input.outcome c' = some o' → input.rankKey c o ≠ input.rankKey c' o'

end CorrelateInput

/-! ## Who leads -/

theorem severityWeight_injective : Function.Injective severityWeight := by
  intro s t h
  cases s <;> cases t <;> first | rfl | exact absurd h (by norm_num [severityWeight])

/-- The standing of a candidate in its group. -/
def CandidateFinding.standing (c : CandidateFinding) : ℚ ×ₗ ℕᵒᵈ :=
  toLex (severityWeight c.rawSeverity, OrderDual.toDual c.location.line)

theorem beats_iff {c best : CandidateFinding} : Beats c best ↔ best.standing < c.standing := by
  rw [CandidateFinding.standing, CandidateFinding.standing, Prod.Lex.toLex_lt_toLex, Beats]
  refine or_congr_right (and_congr_left' ?_)
  exact eq_comm

theorem betterOf_of_beats {c best : CandidateFinding} (h : Beats c best) : betterOf best c = c :=
  if_pos h

theorem betterOf_of_not_beats {c best : CandidateFinding} (h : ¬Beats c best) :
    betterOf best c = best :=
  if_neg h

/-- Nobody in the group stands before the representative. -/
theorem standing_le_pickRepresentative (head : CandidateFinding) (tail : List CandidateFinding) :
    ∀ c ∈ head :: tail, c.standing ≤ (pickRepresentative head tail).standing := by
  unfold pickRepresentative
  induction tail generalizing head with
  | nil =>
    intro c hc
    rw [List.mem_singleton.mp hc]
    rfl
  | cons d tail ih =>
    have hstep : head.standing ≤ (betterOf head d).standing ∧ d.standing ≤ (betterOf head d).standing := by
      by_cases h : Beats d head
      · rw [betterOf_of_beats h]
        exact ⟨(beats_iff.mp h).le, le_refl _⟩
      · rw [betterOf_of_not_beats h]
        exact ⟨le_refl _, not_lt.mp fun hlt => h (beats_iff.mpr hlt)⟩
    have hrest := ih (betterOf head d)
    intro c hc
    rw [List.foldl_cons]
    rcases List.mem_cons.mp hc with rfl | hc
    · exact hstep.1.trans (hrest _ List.mem_cons_self)
    · rcases List.mem_cons.mp hc with rfl | hc
      · exact hstep.2.trans (hrest _ List.mem_cons_self)
      · exact hrest c (List.mem_cons_of_mem _ hc)

/-- The first one stands for the group when nobody stands before it. -/
theorem pickRepresentative_of_first {head : CandidateFinding} {tail : List CandidateFinding}
    (h : ∀ c ∈ tail, ¬Beats c head) : pickRepresentative head tail = head := by
  unfold pickRepresentative
  induction tail with
  | nil => rfl
  | cons d tail ih =>
    rw [List.foldl_cons, betterOf_of_not_beats (h d List.mem_cons_self)]
    exact ih fun c hc => h c (List.mem_cons_of_mem _ hc)

/-! ## Keys name their category -/

/-- A key begins with its category. -/
theorem keyOf_eq (appMap : AppMap) (c : CandidateFinding) :
    ∃ rest, keyOf appMap c = c.category.name ++ ("@" ++ rest) := by
  have hsink : "@sink:" = "@" ++ "sink:" := rfl
  have hfile : "@file:" = "@" ++ "file:" := rfl
  have hpkg : "@pkg:" = "@" ++ "pkg:" := rfl
  have hloc : "@loc:" = "@" ++ "loc:" := rfl
  simp only [keyOf, dedupKey, hsink, hfile, hpkg, hloc, String.append_assoc]
  repeat' split
  all_goals exact ⟨_, rfl⟩

/-- Candidates with one key have one category. -/
theorem category_of_keyOf_eq {appMap : AppMap} {c d : CandidateFinding}
    (h : keyOf appMap c = keyOf appMap d) : c.category = d.category := by
  obtain ⟨rest, hc⟩ := keyOf_eq appMap c
  obtain ⟨rest', hd⟩ := keyOf_eq appMap d
  rw [hc, hd] at h
  have hbefore : ∀ category : Category, ∀ rest : String,
      (category.name ++ ("@" ++ rest)).toList.takeWhile (· ≠ '@') = category.name.toList := by
    intro category rest
    have hname : category.name.toList.all (· ≠ '@') = true := by
      cases category <;> decide
    rw [String.toList_append, List.takeWhile_append_of_pos (List.all_eq_true.mp hname)]
    simp
  have hnames := congrArg (fun s => s.toList.takeWhile (· ≠ '@')) h
  simp only [hbefore] at hnames
  exact Category.name_injective (String.toList_inj.mp hnames)

namespace CorrelateInput

variable {input : CorrelateInput} {candidates : List CandidateFinding}

/-! ## Runs on another order -/

theorem Orderly.reorder (h : input.Orderly) (hperm : candidates.Perm input.candidates) :
    (input.reorder candidates).Orderly :=
  { wellFormed :=
      { appMap := h.wellFormed.appMap
        scanId := h.wellFormed.scanId
        clientId := h.wellFormed.clientId
        candidates := fun c hc => h.wellFormed.candidates c (hperm.mem_iff.mp hc) }
    gateway := h.gateway
    distinct := (hperm.map _).nodup_iff.mpr h.distinct
    fpTuning := h.fpTuning
    priorConfirmedShapes := h.priorConfirmedShapes }

theorem leads_reorder (hperm : candidates.Perm input.candidates) {c : CandidateFinding} :
    (input.reorder candidates).Leads c ↔ input.Leads c := by
  constructor
  · rintro ⟨hmem, hbest⟩
    exact ⟨hperm.mem_iff.mp hmem, fun d hd => hbest d (hperm.mem_iff.mpr hd)⟩
  · rintro ⟨hmem, hbest⟩
    exact ⟨hperm.mem_iff.mpr hmem, fun d hd => hbest d (hperm.mem_iff.mp hd)⟩

/-- The representative of a group leads, and has the key of the group. -/
theorem leads_of_mem {group : RootCauseGroup}
    (h : group ∈ groupCandidates input.candidates input.appMap) :
    input.Leads group.representative ∧ keyOf input.appMap group.representative = group.key := by
  obtain ⟨hcandidates, hrep, -, -⟩ := of_mem_groupCandidates h
  have hrep' := hrep
  rw [hcandidates, List.mem_filter, decide_eq_true_eq] at hrep'
  obtain ⟨bucket, -, rfl⟩ := List.mem_map.mp h
  refine ⟨⟨hrep'.1, fun d hd hkey hbeats => ?_⟩, hrep'.2⟩
  have hmem : d ∈ bucket.head :: bucket.tail := by
    show d ∈ (groupOf input.candidates input.appMap bucket).candidates
    rw [hcandidates, List.mem_filter, decide_eq_true_eq]
    exact ⟨hd, hkey.trans hrep'.2⟩
  exact absurd (beats_iff.mp hbeats) (standing_le_pickRepresentative _ _ d hmem).not_gt

/-- Two that lead one group have one severity. -/
theorem Leads.rawSeverity_eq {c c' : CandidateFinding} (h : input.Leads c) (h' : input.Leads c')
    (hkey : keyOf input.appMap c = keyOf input.appMap c') : c.rawSeverity = c'.rawSeverity := by
  have hnot := h.best c' h'.mem hkey.symm
  have hnot' := h'.best c h.mem hkey
  rw [beats_iff, not_lt] at hnot hnot'
  have hstanding := le_antisymm hnot' hnot
  rw [CandidateFinding.standing, CandidateFinding.standing, EmbeddingLike.apply_eq_iff_eq,
    Prod.mk.injEq] at hstanding
  exact severityWeight_injective hstanding.1

/-- With different ids the grounding kept under an id is that of the candidate. -/
theorem cachedGrounding_of_distinct {appMap : AppMap} (h : (candidates.map (·.id)).Nodup)
    {c : CandidateFinding} (hc : c ∈ candidates) :
    cachedGrounding candidates appMap c = groundCandidate c appMap := by
  unfold cachedGrounding
  split
  · rename_i d hfind
    have hmem : d ∈ candidates := List.mem_reverse.mp (List.mem_of_find?_eq_some hfind)
    have hid : d.id = c.id := by simpa using List.find?_some hfind
    rw [List.inj_on_of_nodup_map h hmem hc hid]
  · rfl

/-! ## What the report shows of a group -/

/-- What the order and the text of the report are made of. -/
structure View where
  key : RankKey
  outcome : Outcome
  merged : Finset EntityId

/-- The ids of a group. -/
def mergedIds (group : RootCauseGroup) : Finset EntityId := (group.candidates.map (·.id)).toFinset

/-- The view of a pending finding. -/
def view (p : PendingProbable) : View :=
  { key := p.rankKey
    outcome :=
      { location := p.group.representative.location
        exposure := p.group.grounding.exposure
        score :=
          { reachabilityScore := p.reach, exposureScore := p.exposureScore, impactScore := p.impact } }
    merged := mergedIds p.group }

/-- The view of a group that is promoted with an outcome. -/
def promotedView (input : CorrelateInput) (group : RootCauseGroup) (o : Outcome) : View :=
  { key := input.rankKey group.representative o, outcome := o, merged := mergedIds group }

/-- The view of a group, when it is promoted. -/
def groupView (input : CorrelateInput) (group : RootCauseGroup) : Option View :=
  (input.outcome group.representative).map (input.promotedView group)

theorem Orderly.knownFalsePositive (h : input.Orderly) (n : ℕ) (rep : CandidateFinding) :
    input.knownFalsePositive n rep = input.knownFalsePositive 0 rep := by
  unfold CorrelateInput.knownFalsePositive
  cases htuning : input.fpTuning with
  | none => rfl
  | some tuning =>
    rw [Option.any_some, Option.any_some, h.fpTuning tuning htuning n]

theorem Orderly.usedGateway (h : input.Orderly) : input.usedGateway = none := by
  rw [CorrelateInput.usedGateway, h.gateway, ite_self]

/-- The loop promotes a group with the view it has, or demotes it. -/
theorem groupView_eq (h : input.Orderly) {group : RootCauseGroup}
    (hgroup : group ∈ groupCandidates input.candidates input.appMap) (n : ℕ) :
    input.groupView group =
      if input.demotes n group then none else some (view (input.pendingOf n group)) := by
  obtain ⟨-, hrep, -, hcached⟩ := of_mem_groupCandidates hgroup
  obtain ⟨hleads, hkey⟩ := leads_of_mem hgroup
  have hgrounding : group.grounding = groundCandidate group.representative input.appMap := by
    rw [hcached, cachedGrounding_of_distinct h.distinct hleads.mem]
  rw [groupView, outcome, demotes, h.knownFalsePositive n, hgrounding]
  split
  · rfl
  · have hshapes : (input.priorConfirmedShapes.any fun shapes =>
        shapes n { category := group.representative.category
                   file := group.representative.location.file }) =
        input.priorConfirmedShapes.any fun shapes =>
          shapes 0 { category := group.representative.category
                     file := group.representative.location.file } := by
      cases hprior : input.priorConfirmedShapes with
      | none => rfl
      | some shapes =>
        rw [Option.any_some, Option.any_some, h.priorConfirmedShapes shapes hprior n]
    simp only [Option.map_some, promotedView, view, pendingOf, enriched, h.usedGateway, PendingProbable.rankKey,
      rankKey, hkey, hgrounding, hshapes, scoreGrounding]

/-- The views of the pending findings are those of the promoted groups. -/
theorem pending_views (h : input.Orderly) :
    input.pending.map view =
      (groupCandidates input.candidates input.appMap).filterMap input.groupView := by
  have hzip : (groupCandidates input.candidates input.appMap).filterMap input.groupView =
      input.groups.filterMap fun g => input.groupView g.1 := by
    rw [← Function.comp_def input.groupView, ← List.filterMap_map, groups, List.zipIdx_map_fst]
  have hgroups : ∀ gs : List (RootCauseGroup × ℕ), (∀ g ∈ gs, g ∈ input.groups) →
      ((gs.filter fun g => !input.demotes g.2 g.1).map fun g =>
        view (input.pendingOf g.2 g.1)) = gs.filterMap fun g => input.groupView g.1 := by
    intro gs hgs
    induction gs with
    | nil => rfl
    | cons g gs ih =>
      have hview := groupView_eq h (group_of_mem_groups (hgs g List.mem_cons_self)) g.2
      have hrest := ih fun g' hg' => hgs g' (List.mem_cons_of_mem _ hg')
      cases hdemotes : input.demotes g.2 g.1 with
      | true =>
        rw [hdemotes, if_pos rfl] at hview
        rw [List.filter_cons_of_neg (by simp [hdemotes]), List.filterMap_cons, hview, hrest]
      | false =>
        rw [hdemotes, if_neg Bool.false_ne_true] at hview
        rw [List.filter_cons_of_pos (by simp [hdemotes]), List.map_cons,
          List.filterMap_cons, hview, hrest]
  rw [hzip, ← hgroups input.groups fun g hg => hg, pending, List.map_map]
  rfl

/-! ## Ties that agree leave no trace of the order -/

/-- The view of a group that `c` stands for. -/
def viewOf (input : CorrelateInput) (c : CandidateFinding) : Option View :=
  (input.outcome c).map fun o =>
    { key := input.rankKey c o
      outcome := o
      merged := ((input.candidates.filter (keyOf input.appMap · = keyOf input.appMap c)).map
        (·.id)).toFinset }

theorem groupView_eq_viewOf {group : RootCauseGroup}
    (h : group ∈ groupCandidates input.candidates input.appMap) :
    input.groupView group = input.viewOf group.representative := by
  have hmerged : mergedIds group = ((input.candidates.filter
      (keyOf input.appMap · = keyOf input.appMap group.representative)).map (·.id)).toFinset := by
    rw [mergedIds, (of_mem_groupCandidates h).1, (leads_of_mem h).2]
  rw [viewOf, ← hmerged]
  rfl

/-- Two that lead one group with one outcome give it one view. -/
theorem viewOf_eq {c c' : CandidateFinding} (h : input.Leads c) (h' : input.Leads c')
    (hkey : keyOf input.appMap c = keyOf input.appMap c')
    (houtcome : input.outcome c = input.outcome c') : input.viewOf c = input.viewOf c' := by
  have hrankKey : ∀ o, input.rankKey c o = input.rankKey c' o := by
    intro o
    rw [rankKey, rankKey, category_of_keyOf_eq hkey, h.rawSeverity_eq h' hkey, hkey]
  rw [viewOf, viewOf, houtcome, hkey]
  simp only [hrankKey]

theorem viewOf_reorder (hperm : candidates.Perm input.candidates) (c : CandidateFinding) :
    (input.reorder candidates).viewOf c = input.viewOf c := by
  have hmerged : ((candidates.filter (keyOf input.appMap · = keyOf input.appMap c)).map
      (·.id)).toFinset =
        ((input.candidates.filter (keyOf input.appMap · = keyOf input.appMap c)).map
          (·.id)).toFinset :=
    List.toFinset_eq_of_perm _ _ ((hperm.filter _).map _)
  rw [viewOf, viewOf, ← hmerged]
  rfl

/-- Groups of one key in two orders have one view. -/
theorem TiesAgree.groupView (hties : input.TiesAgree) (hperm : candidates.Perm input.candidates)
    {group group' : RootCauseGroup}
    (hgroup : group ∈ groupCandidates input.candidates input.appMap)
    (hgroup' : group' ∈ groupCandidates candidates input.appMap) (hkey : group.key = group'.key) :
    input.groupView group = (input.reorder candidates).groupView group' := by
  obtain ⟨hleads, hrep⟩ := leads_of_mem hgroup
  have hreorder : group' ∈ groupCandidates (input.reorder candidates).candidates
      (input.reorder candidates).appMap := hgroup'
  obtain ⟨hleads', hrep'⟩ := leads_of_mem hreorder
  rw [leads_reorder hperm] at hleads'
  have hsame : keyOf input.appMap group.representative = keyOf input.appMap group'.representative :=
    hrep.trans (hkey.trans hrep'.symm)
  rw [groupView_eq_viewOf hgroup, groupView_eq_viewOf hreorder, viewOf_reorder hperm]
  exact viewOf_eq hleads hleads' hsame (hties.outcome _ _ hleads hleads' hsame)

/-- The pending findings have the same views in both orders. -/
theorem TiesAgree.perm_views (h : input.Orderly) (hties : input.TiesAgree)
    (hperm : candidates.Perm input.candidates) :
    (input.pending.map view).Perm ((input.reorder candidates).pending.map view) := by
  rw [pending_views h, pending_views (h.reorder hperm)]
  show ((groupCandidates input.candidates input.appMap).filterMap input.groupView).Perm
    ((groupCandidates candidates input.appMap).filterMap (input.reorder candidates).groupView)
  rw [groupCandidates, groupCandidates, List.filterMap_map, List.filterMap_map]
  refine KeyGroup.perm_filterMap_group hperm.symm fun b hb b' hb' hkey => ?_
  exact hties.groupView hperm (List.mem_map_of_mem hb) (List.mem_map_of_mem hb') hkey

/-- A view with its group. -/
theorem exists_of_mem_views (h : input.Orderly) {v : View} (hv : v ∈ input.pending.map view) :
    ∃ group ∈ groupCandidates input.candidates input.appMap, ∃ o,
      input.outcome group.representative = some o ∧
        v = input.promotedView group o := by
  rw [pending_views h] at hv
  obtain ⟨group, hgroup, hview⟩ := List.mem_filterMap.mp hv
  obtain ⟨o, ho, rfl⟩ := Option.map_eq_some_iff.mp hview
  exact ⟨group, hgroup, o, ho, rfl⟩

/-- Groups of one key are the same. -/
theorem group_eq_of_key {group group' : RootCauseGroup}
    (h : group ∈ groupCandidates input.candidates input.appMap)
    (h' : group' ∈ groupCandidates input.candidates input.appMap) (hkey : group.key = group'.key) :
    group = group' :=
  List.inj_on_of_nodup_map nodup_keys_groupCandidates h h' hkey

/-- Views with one key are the same. -/
theorem TiesAgree.view_eq (h : input.Orderly) (hties : input.TiesAgree) {v v' : View}
    (hv : v ∈ input.pending.map view) (hv' : v' ∈ input.pending.map view) (hkey : v.key = v'.key) :
    v = v' := by
  obtain ⟨group, hgroup, o, ho, rfl⟩ := exists_of_mem_views h hv
  obtain ⟨group', hgroup', o', ho', rfl⟩ := exists_of_mem_views h hv'
  obtain ⟨hleads, hrep⟩ := leads_of_mem hgroup
  obtain ⟨hleads', hrep'⟩ := leads_of_mem hgroup'
  by_cases hgroups : group.key = group'.key
  · obtain rfl := group_eq_of_key hgroup hgroup' hgroups
    rw [ho, Option.some.injEq] at ho'
    rw [ho']
  · have hdifferent : keyOf input.appMap group.representative ≠
        keyOf input.appMap group'.representative := by
      rwa [hrep, hrep']
    exact absurd hkey (hties.rankKey _ _ o o' hleads hleads' hdifferent ho ho')

/-- The ranked findings have the same views in both orders. -/
theorem TiesAgree.sorted_views (h : input.Orderly) (hties : input.TiesAgree)
    (hperm : candidates.Perm input.candidates) :
    (input.pending.insertionSort Precedes).map view =
      ((input.reorder candidates).pending.insertionSort Precedes).map view := by
  have hsorted : ∀ ps : List PendingProbable, ((ps.insertionSort Precedes).map view).Pairwise
      fun v v' => v.key.place ≤ v'.key.place := by
    intro ps
    rw [List.pairwise_map]
    exact (pairwise_precedes ps).imp fun hab => precedes_iff.mp hab
  have hviews : ∀ ps : List PendingProbable,
      ((ps.insertionSort Precedes).map view).Perm (ps.map view) :=
    fun ps => (List.perm_insertionSort Precedes ps).map view
  have hboth := hties.perm_views h hperm
  refine List.Perm.eq_of_pairwise ?_ (hsorted _) (hsorted _)
    ((hviews _).trans (hboth.trans (hviews _).symm))
  intro v v' hv hv' hle hge
  have hmem : v ∈ input.pending.map view := (hviews _).mem_iff.mp hv
  have hmem' : v' ∈ input.pending.map view := hboth.mem_iff.mpr ((hviews _).mem_iff.mp hv')
  exact hties.view_eq h hmem hmem' (RankKey.place_injective (le_antisymm hle hge))

/-- What the report says of a view. -/
def View.ranked (v : View) (rank : ℕ) : RankedFinding :=
  { rootCauseId := v.key.rootCauseId
    location := v.outcome.location
    exposure := v.outcome.exposure
    reachabilityScore := round3 v.outcome.score.reachabilityScore
    exposureScore := round3 v.outcome.score.exposureScore
    impactScore := round3 v.outcome.score.impactScore
    rank
    mergedCandidateIds := v.merged }

/-- The report is made of the views in their order. -/
theorem ranked_probable (input : CorrelateInput) :
    input.probable.map (·.ranked) =
      ((input.pending.insertionSort Precedes).map view).mapIdx fun i v => v.ranked (i + 1) := by
  refine List.ext_getElem (by simp [probable]) fun i _ _ => ?_
  simp only [probable, List.getElem_map, List.getElem_mapIdx]
  rfl

/-- A candidate is demoted when the representative of its group has no outcome. -/
theorem mem_demoted_iff (h : input.Orderly) {c : CandidateFinding} :
    c ∈ input.demoted ↔ ∃ group ∈ groupCandidates input.candidates input.appMap,
      c ∈ group.candidates ∧ input.outcome group.representative = none := by
  have hdemotes : ∀ g ∈ input.groups,
      (input.demotes g.2 g.1 = true ↔ input.outcome g.1.representative = none) := by
    intro g hg
    have hview := groupView_eq h (group_of_mem_groups hg) g.2
    rw [groupView] at hview
    cases hdemotes : input.demotes g.2 g.1 with
    | true =>
      rw [hdemotes, if_pos rfl, Option.map_eq_none_iff] at hview
      simp [hview]
    | false =>
      rw [hdemotes, if_neg Bool.false_ne_true, Option.map_eq_some_iff] at hview
      obtain ⟨o, ho, -⟩ := hview
      simp [ho]
  constructor
  · intro hc
    obtain ⟨g, hg, hmem⟩ := List.mem_flatMap.mp hc
    obtain ⟨hg, hdemoted⟩ := List.mem_filter.mp hg
    exact ⟨g.1, group_of_mem_groups hg, hmem, (hdemotes g hg).mp hdemoted⟩
  · rintro ⟨group, hgroup, hmem, houtcome⟩
    obtain ⟨n, hn⟩ := List.mem_iff_getElem?.mp hgroup
    have hposition : (group, n) ∈ input.groups := mem_groups_iff.mpr hn
    exact List.mem_flatMap.mpr
      ⟨(group, n), List.mem_filter.mpr ⟨hposition, (hdemotes _ hposition).mpr houtcome⟩, hmem⟩

/-- The group of a candidate in an order has the key of the candidate. -/
theorem key_of_mem_candidates {group : RootCauseGroup}
    (h : group ∈ groupCandidates input.candidates input.appMap) {c : CandidateFinding}
    (hc : c ∈ group.candidates) : group.key = keyOf input.appMap c := by
  rw [(of_mem_groupCandidates h).1, List.mem_filter, decide_eq_true_eq] at hc
  exact hc.2.symm

/-- A candidate of a group is one of the candidates. -/
theorem mem_of_mem_candidates {group : RootCauseGroup}
    (h : group ∈ groupCandidates input.candidates input.appMap) {c : CandidateFinding}
    (hc : c ∈ group.candidates) : c ∈ input.candidates := by
  rw [(of_mem_groupCandidates h).1] at hc
  exact (List.mem_filter.mp hc).1

/-- The same candidates are demoted in both orders. -/
theorem TiesAgree.mem_demoted (h : input.Orderly) (hties : input.TiesAgree)
    (hperm : candidates.Perm input.candidates) (c : CandidateFinding) :
    c ∈ input.demoted ↔ c ∈ (input.reorder candidates).demoted := by
  -- The two groups of a candidate have one view, so both have an outcome or none has.
  have houtcome : ∀ group ∈ groupCandidates input.candidates input.appMap,
      ∀ group' ∈ groupCandidates candidates input.appMap, group.key = group'.key →
        (input.outcome group.representative = none ↔
          (input.reorder candidates).outcome group'.representative = none) := by
    intro group hgroup group' hgroup' hkey
    have hview := hties.groupView hperm hgroup hgroup' hkey
    rw [CorrelateInput.groupView, CorrelateInput.groupView] at hview
    rw [← Option.map_eq_none_iff, hview, Option.map_eq_none_iff]
  rw [mem_demoted_iff h, mem_demoted_iff (h.reorder hperm)]
  constructor
  · rintro ⟨group, hgroup, hmem, hnone⟩
    have hc := hperm.mem_iff.mpr (mem_of_mem_candidates hgroup hmem)
    obtain ⟨group', hgroup', hmem', hkey'⟩ := exists_mem_groupCandidates input.appMap hc
    have hkey := (key_of_mem_candidates hgroup hmem).trans hkey'.symm
    exact ⟨group', hgroup', hmem', (houtcome group hgroup group' hgroup' hkey).mp hnone⟩
  · rintro ⟨group', hgroup', hmem', hnone⟩
    have hc := hperm.mem_iff.mp (mem_of_mem_candidates hgroup' hmem')
    obtain ⟨group, hgroup, hmem, hkey⟩ := exists_mem_groupCandidates input.appMap hc
    have hkeys : group.key = group'.key := hkey.trans (key_of_mem_candidates hgroup' hmem').symm
    exact ⟨group, hgroup, hmem, (houtcome group hgroup group' hgroup' hkeys).mpr hnone⟩

/-- When the ties agree, the order of the candidates has no part in the report. -/
theorem TiesAgree.orderIndependent (h : input.Orderly) (hties : input.TiesAgree) :
    input.OrderIndependent := by
  intro candidates hperm out out' hout hout'
  rw [correlate_eq_ok h.wellFormed, Except.ok.injEq] at hout
  rw [correlate_eq_ok (h.reorder hperm).wellFormed, Except.ok.injEq] at hout'
  subst hout hout'
  refine ⟨hties.mem_demoted h hperm, ?_⟩
  rw [ranked_probable, ranked_probable, hties.sorted_views h hperm]

/-! ## What the order shows when they do not -/

/-- The candidate that comes first stands for its group, when it leads. -/
theorem exists_group_of_first (input : CorrelateInput) {c : CandidateFinding}
    {rest : List CandidateFinding} (h : input.candidates = c :: rest) (hleads : input.Leads c) :
    ∃ group ∈ groupCandidates input.candidates input.appMap, group.representative = c := by
  obtain ⟨bucket, hbucket, -, hkey⟩ :=
    KeyGroup.exists_mem_group (f := keyOf input.appMap) hleads.mem
  refine ⟨_, List.mem_map_of_mem hbucket, ?_⟩
  have hitems := KeyGroup.items_of_mem_group hbucket
  rw [hkey] at hitems
  have hmem : ∀ d ∈ bucket.items, ¬Beats d c := by
    intro d hd
    rw [hitems, List.mem_filter, decide_eq_true_eq] at hd
    exact hleads.best d hd.1 hd.2
  rw [h, List.filter_cons_of_pos (by simp)] at hitems
  obtain ⟨hhead, htail⟩ := List.cons.inj hitems
  show pickRepresentative bucket.head bucket.tail = c
  rw [hhead]
  exact pickRepresentative_of_first fun d hd => hmem d (List.mem_cons_of_mem _ hd)

/-- Some order has a given candidate first. -/
theorem exists_perm_first {c : CandidateFinding} (h : c ∈ candidates) :
    ∃ rest, (c :: rest).Perm candidates := by
  obtain ⟨before, after, rfl⟩ := List.append_of_mem h
  exact ⟨before ++ after, List.perm_middle.symm⟩

/-- Two orders of the candidates have one report. -/
theorem OrderIndependent.report (h : input.Orderly) (hind : input.OrderIndependent)
    {candidates candidates' : List CandidateFinding} (hperm : candidates.Perm input.candidates)
    (hperm' : candidates'.Perm input.candidates) :
    SameReport
      { probable := (input.reorder candidates).probable
        demoted := (input.reorder candidates).demoted }
      { probable := (input.reorder candidates').probable
        demoted := (input.reorder candidates').demoted } :=
  (hind candidates hperm _ _ (correlate_eq_ok h.wellFormed)
    (correlate_eq_ok (h.reorder hperm).wellFormed)).symm.trans
      (hind candidates' hperm' _ _ (correlate_eq_ok h.wellFormed)
        (correlate_eq_ok (h.reorder hperm').wellFormed))

/-- The id of a candidate is merged into its group only. -/
theorem mem_of_id_mem_mergedIds (h : input.Orderly) {group : RootCauseGroup}
    (hgroup : group ∈ groupCandidates input.candidates input.appMap) {c : CandidateFinding}
    (hc : c ∈ input.candidates) (hid : c.id ∈ mergedIds group) : c ∈ group.candidates := by
  obtain ⟨d, hd, hsame⟩ := List.mem_map.mp (List.mem_toFinset.mp hid)
  have hmem := mem_of_mem_candidates hgroup hd
  rwa [← List.inj_on_of_nodup_map h.distinct hmem hc hsame]

/-- A promoted group is in the report. -/
theorem exists_ranked (h : input.Orderly) {group : RootCauseGroup}
    (hgroup : group ∈ groupCandidates input.candidates input.appMap) {o : Outcome}
    (ho : input.outcome group.representative = some o) :
    ∃ rank, (input.promotedView group o).ranked rank ∈ input.probable.map (·.ranked) := by
  have hview : input.groupView group = some (input.promotedView group o) := by
    rw [groupView, ho, Option.map_some]
  have hmem := List.mem_filterMap.mpr ⟨group, hgroup, hview⟩
  rw [← pending_views h, ← ((List.perm_insertionSort Precedes input.pending).map view).mem_iff] at hmem
  obtain ⟨i, hi, hget⟩ := List.mem_iff_getElem.mp hmem
  refine ⟨i + 1, ?_⟩
  rw [ranked_probable, List.mem_mapIdx]
  exact ⟨i, hi, by rw [hget]⟩

/-- What is in the report is a promoted group. -/
theorem exists_of_mem_ranked (h : input.Orderly) {r : RankedFinding}
    (hr : r ∈ input.probable.map (·.ranked)) :
    ∃ group ∈ groupCandidates input.candidates input.appMap, ∃ o rank,
      input.outcome group.representative = some o ∧
        r = (input.promotedView group o).ranked rank := by
  rw [ranked_probable, List.mem_mapIdx] at hr
  obtain ⟨i, hi, rfl⟩ := hr
  have hmem : ((input.pending.insertionSort Precedes).map view)[i] ∈ input.pending.map view :=
    ((List.perm_insertionSort Precedes input.pending).map view).mem_iff.mp (List.getElem_mem hi)
  obtain ⟨group, hgroup, o, ho, hview⟩ := exists_of_mem_views h hmem
  exact ⟨group, hgroup, o, i + 1, ho, by rw [hview]⟩

section Tie

variable {c c' : CandidateFinding}

/-- The report tells outcomes of one category and severity apart. -/
theorem outcome_of_ranked {o o' : Outcome} (ho : input.outcome c = some o)
    (ho' : input.outcome c' = some o') (hcategory : c.category = c'.category)
    (hseverity : c.rawSeverity = c'.rawSeverity) {v v' : View} {rank rank' : ℕ}
    (hv : v.outcome = o) (hv' : v'.outcome = o') (hranked : v.ranked rank = v'.ranked rank') :
    o = o' := by
  have hlocation := congrArg RankedFinding.location hranked
  have hexposure := congrArg RankedFinding.exposure hranked
  have hreach := congrArg RankedFinding.reachabilityScore hranked
  have hexposureScore := congrArg RankedFinding.exposureScore hranked
  have himpact := congrArg RankedFinding.impactScore hranked
  simp only [View.ranked, hv, hv'] at hlocation hexposure hreach hexposureScore himpact
  have hscore : ∀ d p, input.outcome d = some p →
      p.score = scoreGrounding d (groundCandidate d input.appMap) := by
    intro d p hp
    simp only [outcome] at hp
    split at hp
    · cases hp
    · rw [← Option.some.inj hp]
  have hscores : o.score = o'.score := by
    rw [hscore c o ho, hscore c' o' ho'] at hreach hexposureScore himpact ⊢
    exact scoreGrounding_of_round3 hcategory hseverity hreach hexposureScore himpact
  cases o
  cases o'
  simp only at hlocation hexposure hscores
  rw [hlocation, hexposure, hscores]

/-- In some order of the candidates `c` stands for its group. -/
theorem exists_order_of_leads (hleads : input.Leads c) :
    ∃ candidates, candidates.Perm input.candidates ∧
      ∃ group ∈ groupCandidates (input.reorder candidates).candidates
        (input.reorder candidates).appMap, group.representative = c := by
  obtain ⟨rest, hperm⟩ := exists_perm_first hleads.mem
  refine ⟨c :: rest, hperm, ?_⟩
  exact exists_group_of_first (input.reorder (c :: rest)) rfl ((leads_reorder hperm).mpr hleads)

/-- Of two that tie for a group, none is promoted alone. -/
theorem OrderIndependent.outcome_eq_none (h : input.Orderly) (hind : input.OrderIndependent)
    (hleads : input.Leads c) (hleads' : input.Leads c')
    (hkey : keyOf input.appMap c = keyOf input.appMap c') (hnone : input.outcome c = none) :
    input.outcome c' = none := by
  obtain ⟨candidates, hperm, group, hgroup, rfl⟩ := exists_order_of_leads hleads
  obtain ⟨candidates', hperm', group', hgroup', rfl⟩ := exists_order_of_leads hleads'
  -- The first order demotes the first candidate, so the second order does.
  have hdemoted : group.representative ∈ (input.reorder candidates).demoted :=
    (mem_demoted_iff (h.reorder hperm)).mpr
      ⟨group, hgroup, (of_mem_groupCandidates hgroup).2.1, hnone⟩
  have hdemoted' := ((hind.report h hperm hperm').demoted _).mp hdemoted
  obtain ⟨group₂, hgroup₂, hmem₂, hnone₂⟩ := (mem_demoted_iff (h.reorder hperm')).mp hdemoted'
  have hkey₂ : group₂.key = group'.key := by
    rw [key_of_mem_candidates hgroup₂ hmem₂,
      key_of_mem_candidates hgroup' (of_mem_groupCandidates hgroup').2.1]
    exact hkey
  obtain rfl := group_eq_of_key hgroup₂ hgroup' hkey₂
  exact hnone₂

/-- Two that tie for a group give it one outcome. -/
theorem OrderIndependent.outcome_eq (h : input.Orderly) (hind : input.OrderIndependent)
    (hleads : input.Leads c) (hleads' : input.Leads c')
    (hkey : keyOf input.appMap c = keyOf input.appMap c') : input.outcome c = input.outcome c' := by
  cases ho : input.outcome c with
  | none => rw [hind.outcome_eq_none h hleads hleads' hkey ho]
  | some o =>
    cases ho' : input.outcome c' with
    | none =>
      rw [hind.outcome_eq_none h hleads' hleads hkey.symm ho'] at ho
      cases ho
    | some o' =>
      have hcategory := category_of_keyOf_eq hkey
      have hseverity := hleads.rawSeverity_eq hleads' hkey
      obtain ⟨candidates, hperm, group, hgroup, rfl⟩ := exists_order_of_leads hleads
      obtain ⟨candidates', hperm', group', hgroup', rfl⟩ := exists_order_of_leads hleads'
      -- The first order reports the group as the first candidate has it, so the second order does.
      obtain ⟨rank, hranked⟩ := exists_ranked (h.reorder hperm) hgroup ho
      rw [(hind.report h hperm hperm').probable] at hranked
      obtain ⟨group₂, hgroup₂, o₂, rank₂, ho₂, hsame⟩ :=
        exists_of_mem_ranked (h.reorder hperm') hranked
      -- It is the group of the second candidate there: the first candidate is in both.
      have hid : group.representative.id ∈ mergedIds group₂ := by
        have hmerged : mergedIds group = mergedIds group₂ :=
          congrArg RankedFinding.mergedCandidateIds hsame
        rw [← hmerged]
        exact List.mem_toFinset.mpr (List.mem_map_of_mem (of_mem_groupCandidates hgroup).2.1)
      have hmem₂ := mem_of_id_mem_mergedIds (h.reorder hperm') hgroup₂
        (hperm'.mem_iff.mpr hleads.mem) hid
      have hkey₂ : group₂.key = group'.key := by
        rw [key_of_mem_candidates hgroup₂ hmem₂,
          key_of_mem_candidates hgroup' (of_mem_groupCandidates hgroup').2.1]
        exact hkey
      obtain rfl := group_eq_of_key hgroup₂ hgroup' hkey₂
      obtain rfl : o₂ = o' := Option.some.inj (ho₂.symm.trans ho')
      rw [outcome_of_ranked ho ho' hcategory hseverity rfl rfl hsame]

/-- Groups of one key in two orders have one view. -/
theorem OrderIndependent.groupView (h : input.Orderly) (hind : input.OrderIndependent)
    (hleads : input.Leads c) {group : RootCauseGroup}
    (hgroup : group ∈ groupCandidates input.candidates input.appMap)
    (hkey : group.key = keyOf input.appMap c) : input.groupView group = input.viewOf c := by
  obtain ⟨hrep, hrepKey⟩ := leads_of_mem hgroup
  have hsame := hrepKey.trans hkey
  rw [groupView_eq_viewOf hgroup]
  exact viewOf_eq hrep hleads hsame (hind.outcome_eq h hrep hleads hsame)

end Tie

/-! ## Groups that tie in the ranking -/

/-- The merged candidates, in the order of the report. -/
theorem merged_ranked (input : CorrelateInput) :
    (input.probable.map (·.ranked)).map (·.mergedCandidateIds) =
      ((input.pending.insertionSort Precedes).map view).map (·.merged) := by
  rw [ranked_probable]
  refine List.ext_getElem (by simp) fun i _ _ => ?_
  simp only [List.getElem_map, List.getElem_mapIdx]
  rfl

/-- No two findings of the report merge the same candidates. -/
theorem nodup_merged_ranked (h : input.Orderly) :
    ((input.probable.map (·.ranked)).map (·.mergedCandidateIds)).Nodup := by
  rw [merged_ranked, List.map_map,
    ((List.perm_insertionSort Precedes input.pending).map _).nodup_iff, ← List.map_map,
    pending_views h]
  have hgroups : ((groupCandidates input.candidates input.appMap).map (·.key)).Nodup :=
    nodup_keys_groupCandidates
  rw [List.Nodup, List.pairwise_map] at hgroups ⊢
  rw [List.pairwise_filterMap]
  refine hgroups.imp_of_mem fun {group group'} hgroup hgroup' hkey v hv v' hv' hmerged => hkey ?_
  rw [groupView, Option.map_eq_some_iff] at hv hv'
  obtain ⟨o, -, rfl⟩ := hv
  obtain ⟨o', -, rfl⟩ := hv'
  obtain ⟨-, hrep, -⟩ := of_mem_groupCandidates hgroup
  have hid : group.representative.id ∈ mergedIds group' := by
    have hsame : mergedIds group = mergedIds group' := hmerged
    rw [← hsame]
    exact List.mem_toFinset.mpr (List.mem_map_of_mem hrep)
  have hmem := mem_of_id_mem_mergedIds h hgroup' (mem_of_mem_candidates hgroup hrep) hid
  rw [key_of_mem_candidates hgroup hrep, key_of_mem_candidates hgroup' hmem]

/-- The first two groups of an order, when the first two candidates have different keys. -/
theorem groups_of_first_two (input : CorrelateInput) {c c' : CandidateFinding}
    {rest : List CandidateFinding} (h : input.candidates = c :: c' :: rest)
    (hkey : keyOf input.appMap c ≠ keyOf input.appMap c') :
    ∃ group group' groups, groupCandidates input.candidates input.appMap = group :: group' :: groups ∧
      group.key = keyOf input.appMap c ∧ group'.key = keyOf input.appMap c' := by
  obtain ⟨keys, hkeys⟩ : (KeyGroup.group (keyOf input.appMap) [c, c']).map KeyGroup.key <+:
      (KeyGroup.group (keyOf input.appMap) ([c, c'] ++ rest)).map KeyGroup.key :=
    KeyGroup.keys_group_prefix rest
  have hfirst : (KeyGroup.group (keyOf input.appMap) [c, c']).map KeyGroup.key =
      [keyOf input.appMap c, keyOf input.appMap c'] := by
    simp [KeyGroup.group, KeyGroup.insert, hkey]
  rw [hfirst] at hkeys
  have hall : (groupCandidates input.candidates input.appMap).map (·.key) =
      keyOf input.appMap c :: keyOf input.appMap c' :: keys := by
    rw [groupCandidates, List.map_map, h]
    exact hkeys.symm
  rcases hgroups : groupCandidates input.candidates input.appMap with _ | ⟨group, _ | ⟨group', groups⟩⟩
  · simp [hgroups] at hall
  · simp [hgroups] at hall
  · rw [hgroups, List.map_cons, List.map_cons, List.cons.injEq, List.cons.injEq] at hall
    exact ⟨group, group', groups, rfl, hall.1, hall.2.1⟩

/-- A list without repetitions does not have two of its members in both orders. -/
theorem not_nodup_of_sublists {α : Type*} {a b : α} {l : List α} (h : [a, b].Sublist l)
    (h' : [b, a].Sublist l) : ¬l.Nodup := by
  induction l with
  | nil => cases h
  | cons x l ih =>
    intro hnodup
    obtain ⟨hx, hnodup⟩ := List.nodup_cons.mp hnodup
    cases h with
    | cons _ h =>
      cases h' with
      | cons _ h' => exact ih h h' hnodup
      | cons_cons _ h' => exact hx (h.subset (List.mem_cons_of_mem _ List.mem_cons_self))
    | cons_cons _ h =>
      cases h' with
      | cons _ h' => exact hx (h'.subset (List.mem_cons_of_mem _ List.mem_cons_self))
      | cons_cons _ h' => exact hx (h.subset List.mem_cons_self)

/-- Two promoted groups with one rank key stand in the order in which they are first seen. -/
theorem sublist_merged_of_first_two (input : CorrelateInput) (h : input.Orderly)
    {group group' : RootCauseGroup} {groups : List RootCauseGroup}
    (hgroups : groupCandidates input.candidates input.appMap = group :: group' :: groups) {v v' : View}
    (hv : input.groupView group = some v) (hv' : input.groupView group' = some v')
    (hkey : v.key = v'.key) :
    [v.merged, v'.merged].Sublist ((input.probable.map (·.ranked)).map (·.mergedCandidateIds)) := by
  have hviews := pending_views h
  rw [hgroups, List.filterMap_cons, hv, List.filterMap_cons, hv'] at hviews
  match hpending : input.pending with
  | [] | [_] => simp [hpending] at hviews
  | p :: p' :: ps =>
    rw [hpending, List.map_cons, List.map_cons, List.cons.injEq, List.cons.injEq] at hviews
    obtain ⟨rfl, rfl, -⟩ := hviews
    have hprecedes : Precedes p p' := precedes_iff.mpr (le_of_eq (congrArg RankKey.place hkey))
    have hsorted : [p, p'].Sublist (input.pending.insertionSort Precedes) := by
      refine List.pair_sublist_insertionSort hprecedes ?_
      rw [hpending]
      exact ((List.nil_sublist ps).cons_cons p').cons_cons p
    rw [merged_ranked, List.map_map]
    exact hsorted.map fun p => (view p).merged

theorem OrderIndependent.reorder (h : input.Orderly) (hind : input.OrderIndependent)
    (hperm : candidates.Perm input.candidates) : (input.reorder candidates).OrderIndependent := by
  intro candidates' hperm' out out' hout hout'
  have hperm₂ : candidates'.Perm input.candidates := hperm'.trans hperm
  have hreport := hind.report h hperm hperm₂
  rw [correlate_eq_ok (h.reorder hperm).wellFormed, Except.ok.injEq] at hout
  have hok := correlate_eq_ok (h.reorder hperm₂).wellFormed
  rw [← hout]
  exact Except.ok.inj (hok.symm.trans hout') ▸ hreport

/-- An order with `c` and `c'` first reports their groups in that order when the groups tie. -/
theorem OrderIndependent.sublist_merged (h : input.Orderly) (hind : input.OrderIndependent)
    {c c' : CandidateFinding} {rest : List CandidateFinding}
    (hperm : (c :: c' :: rest).Perm input.candidates) (hleads : input.Leads c)
    (hleads' : input.Leads c') (hkey : keyOf input.appMap c ≠ keyOf input.appMap c') {v v' : View}
    (hv : input.viewOf c = some v) (hv' : input.viewOf c' = some v') (htie : v.key = v'.key) :
    [v.merged, v'.merged].Sublist
      (((input.reorder (c :: c' :: rest)).probable.map (·.ranked)).map (·.mergedCandidateIds)) := by
  obtain ⟨group, group', groups, hgroups, hgroup, hgroup'⟩ :=
    groups_of_first_two (input.reorder (c :: c' :: rest)) rfl hkey
  have hview : ∀ d ∈ [c, c'], input.Leads d → ∀ g ∈ groupCandidates
      (input.reorder (c :: c' :: rest)).candidates (input.reorder (c :: c' :: rest)).appMap,
        g.key = keyOf input.appMap d →
          (input.reorder (c :: c' :: rest)).groupView g = input.viewOf d := by
    intro d _ hd g hg hgkey
    rw [(hind.reorder h hperm).groupView (h.reorder hperm) ((leads_reorder hperm).mpr hd) hg hgkey]
    exact viewOf_reorder hperm d
  refine sublist_merged_of_first_two _ (h.reorder hperm) hgroups ?_ ?_ htie
  · rw [hview c (by simp) hleads group (by rw [hgroups]; simp) hgroup, hv]
  · rw [hview c' (by simp) hleads' group' (by rw [hgroups]; simp) hgroup', hv']

/-- Promoted groups do not tie in the ranking. -/
theorem OrderIndependent.rankKey_ne (h : input.Orderly) (hind : input.OrderIndependent)
    {c c' : CandidateFinding} {o o' : Outcome} (hleads : input.Leads c) (hleads' : input.Leads c')
    (hkey : keyOf input.appMap c ≠ keyOf input.appMap c') (ho : input.outcome c = some o)
    (ho' : input.outcome c' = some o') : input.rankKey c o ≠ input.rankKey c' o' := by
  intro htie
  have hview : ∀ d p, input.outcome d = some p →
      ∃ v, input.viewOf d = some v ∧ v.key = input.rankKey d p := by
    intro d p hp
    rw [viewOf, hp]
    exact ⟨_, rfl, rfl⟩
  obtain ⟨v, hv, hvkey⟩ := hview c o ho
  obtain ⟨v', hv', hvkey'⟩ := hview c' o' ho'
  have hkeys : v.key = v'.key := by rw [hvkey, hvkey', htie]
  -- Two orders, with `c` first and with `c'` first.
  obtain ⟨rest, hrest⟩ := exists_perm_first hleads.mem
  have hmem : c' ∈ rest := by
    rcases List.mem_cons.mp (hrest.mem_iff.mpr hleads'.mem) with hsame | hmem
    · exact absurd (congrArg (keyOf input.appMap) hsame).symm hkey
    · exact hmem
  obtain ⟨rest', hrest'⟩ := exists_perm_first hmem
  have hperm : (c :: c' :: rest').Perm input.candidates := (hrest'.cons c).trans hrest
  have hperm' : (c' :: c :: rest').Perm input.candidates := (List.Perm.swap c c' rest').trans hperm
  have hfirst := hind.sublist_merged h hperm hleads hleads' hkey hv hv' hkeys
  have hsecond := hind.sublist_merged h hperm' hleads' hleads hkey.symm hv' hv hkeys.symm
  rw [← (hind.report h hperm hperm').probable] at hsecond
  exact not_nodup_of_sublists hfirst hsecond (nodup_merged_ranked (h.reorder hperm))

/-- The order of the candidates has no part in the report exactly when ties agree. -/
theorem orderIndependent_iff (h : input.Orderly) : input.OrderIndependent ↔ input.TiesAgree := by
  constructor
  · intro hind
    exact
      { outcome := fun _ _ hleads hleads' hkey => hind.outcome_eq h hleads hleads' hkey
        rankKey := fun _ _ _ _ hleads hleads' hkey ho ho' => hind.rankKey_ne h hleads hleads' hkey ho ho' }
  · exact fun hties => hties.orderIndependent h

end CorrelateInput

/-- Two reports of one sink that tie; only one of them shows a call of a sanitizer. -/
def tiedDuplicate : List CandidateFinding :=
  [queryCandidate "raw" 9 .high "db.query(q)", queryCandidate "safe" 9 .high "parseInt(q)"]

theorem tiedDuplicate_orderly : (queryInput tiedDuplicate).Orderly :=
  { wellFormed := queryInput_wellFormed (by decide +kernel)
    gateway := rfl
    distinct := by decide
    fpTuning := by simp [queryInput]
    priorConfirmedShapes := by simp [queryInput] }

theorem orderIndependent_iff_of_tiedDuplicate :
    (queryInput tiedDuplicate).OrderIndependent ↔ (queryInput tiedDuplicate).TiesAgree :=
  CorrelateInput.orderIndependent_iff tiedDuplicate_orderly

/-- The report that comes first decides whether both are demoted. -/
theorem not_orderIndependent_of_tiedDuplicate :
    (queryInput tiedDuplicate).Orderly ∧ ¬(queryInput tiedDuplicate).OrderIndependent := by
  refine ⟨tiedDuplicate_orderly, fun hind => ?_⟩
  have hleads : ∀ c ∈ tiedDuplicate, (queryInput tiedDuplicate).Leads c := by
    intro c hc
    refine ⟨hc, fun d hd _ hbeats => ?_⟩
    have hstanding : ∀ e ∈ tiedDuplicate, e.rawSeverity = .high ∧ e.location.line = 9 := by
      decide
    obtain ⟨hc, hc'⟩ := hstanding c hc
    obtain ⟨hd, hd'⟩ := hstanding d hd
    rw [Beats, hc, hd, hc', hd'] at hbeats
    exact hbeats.elim (lt_irrefl _) fun h => lt_irrefl _ h.2
  have houtcome := hind.outcome_eq tiedDuplicate_orderly
    (hleads (queryCandidate "raw" 9 .high "db.query(q)") (by simp [tiedDuplicate]))
    (hleads (queryCandidate "safe" 9 .high "parseInt(q)") (by simp [tiedDuplicate]))
    (by decide +kernel)
  have hraw : ((queryInput tiedDuplicate).outcome
      (queryCandidate "raw" 9 .high "db.query(q)")).isSome = true := by decide +kernel
  have hsafe : ((queryInput tiedDuplicate).outcome
      (queryCandidate "safe" 9 .high "parseInt(q)")).isSome = false := by decide +kernel
  rw [houtcome, hsafe] at hraw
  cases hraw

end MontrSecure
