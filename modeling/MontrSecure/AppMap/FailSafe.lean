import MontrSecure.AppMap.ModelPasses
import MontrSecure.Js.Parse
import Mathlib.Data.List.Forall2

/-!
# The passes of the model are fail-safe where they read what they expect

Both passes add to what the deterministic pass found. They return, and what they return fits its schema,
exactly where a reply holds no boundary that is `null`, no auth gate that is not a text and no suggestions that
are not an array.
-/

namespace MontrSecure

/-! ## Labels -/

/-- A route before it is labelled. -/
def LabelledRoute.ofRoute (r : Route) : LabelledRoute := { original := r, route := r }

/-- A boundary labels the routes it speaks of when it names a state. -/
def labels (b : Json) (r : Route) : Bool := (boundaryState b).isSome && speaksOf b r

/-- The boundary that labels a route: the first one that does, of a route whose auth state is unknown. -/
def labelOf (boundaries : List Json) (r : Route) : Option Json :=
  if r.authState = .unknown then boundaries.find? (labels · r) else none

/-- A route with its label. -/
def labelWith (boundaries : List Json) (r : Route) : LabelledRoute :=
  match labelOf boundaries r with
  | some b => applyBoundary b (.ofRoute r)
  | none => .ofRoute r

theorem labels_of_labelOf {boundaries : List Json} {r : Route} {b : Json} (h : labelOf boundaries r = some b) :
    labels b r = true ∧ r.authState = .unknown := by
  unfold labelOf at h
  split at h
  · rename_i hunknown
    exact ⟨List.find?_some (p := (labels · r)) h, hunknown⟩
  · cases h

theorem boundaryState_ne_unknown {b : Json} {state : AuthState} (h : boundaryState b = some state) :
    state ≠ .unknown := by
  have hmem := List.mem_of_find?_eq_some h
  rintro rfl
  simp at hmem

example : boundaryState .null = none := by decide +kernel

theorem setGate_route_authState (target : LabelledRoute) (gate : Json) :
    (target.setGate gate).route.authState = target.route.authState := by
  cases gate <;> rfl

theorem setGate_original (target : LabelledRoute) (gate : Json) :
    (target.setGate gate).original = target.original := by
  cases gate <;> rfl

theorem applyBoundary_original (b : Json) (target : LabelledRoute) :
    (applyBoundary b target).original = target.original := by
  unfold applyBoundary
  repeat' split
  all_goals simp [setGate_original]

/-- A boundary leaves a route alone that it does not label, or whose state is known. -/
theorem applyBoundary_of_not {b : Json} {target : LabelledRoute}
    (h : labels b target.original = false ∨ target.original.authState ≠ .unknown ∨
      target.route.authState ≠ .unknown) :
    applyBoundary b target = target := by
  unfold applyBoundary
  cases hstate : boundaryState b with
  | none => rfl
  | some state =>
    refine if_neg fun hcond => ?_
    simp only [Bool.and_eq_true, decide_eq_true_eq] at hcond
    obtain ⟨⟨horiginal, hspeaks⟩, hroute⟩ := hcond
    rcases h with h | h | h
    · simp [labels, hstate, hspeaks] at h
    · exact h horiginal
    · exact h hroute

/-- A boundary gives a state to a route that it labels. -/
theorem applyBoundary_authState {b : Json} {r : Route} (h : labels b r = true)
    (hunknown : r.authState = .unknown) :
    (applyBoundary b (.ofRoute r)).route.authState ≠ .unknown := by
  obtain ⟨hsome, hspeaks⟩ := Bool.and_eq_true_iff.mp h
  obtain ⟨state, hstate⟩ := Option.isSome_iff_exists.mp hsome
  have hknown := boundaryState_ne_unknown hstate
  simp only [applyBoundary, hstate, LabelledRoute.ofRoute, hunknown, hspeaks, decide_true, Bool.and_self,
    if_true]
  cases boundaryGate b with
  | none => exact hknown
  | some gate =>
    by_cases hungated : r.ungated = true
    · show (if r.ungated then _ else _ : LabelledRoute).route.authState ≠ _
      rw [if_pos hungated, setGate_route_authState]
      exact hknown
    · show (if r.ungated then _ else _ : LabelledRoute).route.authState ≠ _
      rw [if_neg hungated]
      exact hknown

/-- Boundaries leave a route alone whose state is known. -/
theorem foldl_applyBoundary_of_known (boundaries : List Json) {target : LabelledRoute}
    (h : target.original.authState ≠ .unknown ∨ target.route.authState ≠ .unknown) :
    boundaries.foldl (fun t b => applyBoundary b t) target = target := by
  induction boundaries with
  | nil => rfl
  | cons b boundaries ih => rw [List.foldl_cons, applyBoundary_of_not (.inr h), ih]

/-- All boundaries, one after the other, do to a route what the one does that labels it. -/
theorem foldl_applyBoundary (boundaries : List Json) (r : Route) :
    boundaries.foldl (fun t b => applyBoundary b t) (.ofRoute r) = labelWith boundaries r := by
  by_cases hunknown : r.authState = .unknown
  · unfold labelWith labelOf
    rw [if_pos hunknown]
    induction boundaries with
    | nil => rfl
    | cons b boundaries ih =>
      rw [List.foldl_cons]
      by_cases hlabels : labels b r = true
      · rw [List.find?_cons_of_pos (p := (labels · r)) hlabels]
        exact foldl_applyBoundary_of_known _ (.inr (applyBoundary_authState hlabels hunknown))
      · rw [List.find?_cons_of_neg (p := (labels · r)) hlabels, applyBoundary_of_not (.inl (Bool.not_eq_true _ ▸ hlabels))]
        exact ih
  · rw [labelWith, labelOf, if_neg hunknown]
    exact foldl_applyBoundary_of_known _ (.inl hunknown)

/-- The loop over the boundaries throws at `null`, and only there. -/
theorem labelRoutes_eq (boundaries : List Json) (targets : List LabelledRoute) :
    labelRoutes boundaries targets =
      if boundaries.any (· matches .null) then none
      else some (targets.map fun t => boundaries.foldl (fun t b => applyBoundary b t) t) := by
  induction boundaries generalizing targets with
  | nil => simp [labelRoutes]
  | cons b boundaries ih =>
    cases b <;> simp [labelRoutes, ih, Function.comp_def]

/-! ## What the labelled map is -/

/-- Two routes are the same but for the auth of a route whose auth state was unknown. -/
def SameButAuth (r s : Route) : Prop :=
  { s with authState := r.authState, authGate := r.authGate } = r ∧ (r.authState ≠ .unknown → s = r)

theorem sameButAuth_refl (r : Route) : SameButAuth r r := ⟨rfl, fun _ => rfl⟩

theorem sameButAuth_setGate {r : Route} {target : LabelledRoute} (hunknown : r.authState = .unknown)
    (h : SameButAuth r target.route) (gate : Json) : SameButAuth r (target.setGate gate).route := by
  refine ⟨?_, fun hknown => absurd hunknown hknown⟩
  cases gate <;> exact h.1

theorem sameButAuth_labelWith (boundaries : List Json) (r : Route) :
    SameButAuth r (labelWith boundaries r).route := by
  unfold labelWith
  split
  · rename_i b hlabel
    have hunknown := (labels_of_labelOf hlabel).2
    have hstate : ∀ state, SameButAuth r { r with authState := state } := fun state =>
      ⟨rfl, fun hknown => absurd hunknown hknown⟩
    unfold applyBoundary
    split
    · exact sameButAuth_refl r
    · rename_i state _
      by_cases hcond : ((LabelledRoute.ofRoute r).original.authState = .unknown &&
          speaksOf b (LabelledRoute.ofRoute r).original &&
            (LabelledRoute.ofRoute r).route.authState = .unknown) = true
      · rw [if_pos hcond]
        cases boundaryGate b with
        | none => exact hstate state
        | some gate =>
          dsimp only
          by_cases hungated : r.ungated = true
          · exact (if_pos hungated).symm ▸ sameButAuth_setGate hunknown (hstate state) gate
          · exact (if_neg hungated).symm ▸ hstate state
      · rw [if_neg hcond]
        exact sameButAuth_refl r
  · exact sameButAuth_refl r

/-- The schema of routes does not read what labels change. -/
theorem SameButAuth.valid_eq {r s : Route} (h : SameButAuth r s) : s.valid = r.valid := by
  rw [← h.1]
  rfl

/-- A boundary sets a stray auth gate where its gate is not a text and the route has none. -/
theorem strayGate_labelWith (boundaries : List Json) (r : Route) :
    (labelWith boundaries r).strayGate.isNone ↔
      ∀ b, labelOf boundaries r = some b → r.ungated = true → boundaryGate b matches none | some (.str _) := by
  unfold labelWith
  split
  · rename_i b hlabel
    have hlabels := labels_of_labelOf hlabel
    obtain ⟨hsome, hspeaks⟩ := Bool.and_eq_true_iff.mp hlabels.1
    obtain ⟨state, hstate⟩ := Option.isSome_iff_exists.mp hsome
    simp only [hlabel, Option.some.injEq, forall_eq']
    simp only [applyBoundary, hstate, LabelledRoute.ofRoute, hlabels.2, hspeaks, decide_true, Bool.and_self,
      if_true]
    cases boundaryGate b with
    | none => simp
    | some gate =>
      dsimp only
      by_cases hungated : r.ungated = true
      · cases gate <;> simp [LabelledRoute.setGate, hungated]
      · simp [hungated]
  · rename_i hlabel
    simp [hlabel, LabelledRoute.ofRoute]

/-! ## What the threat model is -/

/-- A value that is an array, or for which the source takes the empty one. -/
def arrayOrNothing : Option Json → Bool
  | none | some .null | some (.arr _) => true
  | some _ => false

theorem suggested_isSome (key : String) (suggestion : Json) :
    (suggested key suggestion).isSome = arrayOrNothing (suggestion.property key) := by
  unfold suggested arrayOrNothing
  split <;> simp_all

theorem Category.mem_options (category : Category) : category ∈ Category.options := by
  cases category <;> decide

/-- A threat model has every entry of another one; what it adds speaks of routes that exist and of categories
of the taxonomy. -/
structure Extends (routes : List Route) (baseline model : ThreatModel) : Prop where
  trustBoundaries : model.trustBoundaries = baseline.trustBoundaries
  attackSurface : model.attackSurface = baseline.attackSurface
  abuseCases : ∃ extra, model.abuseCases = baseline.abuseCases ++ extra ∧
    ∀ c ∈ extra, (∀ p ∈ c.routePaths, ∃ r ∈ routes, r.path = p) ∧
      ∀ category ∈ c.categories, category ∈ Category.options
  scopeHints : ∃ extra, model.scopeHints =
      { baseline.scopeHints with
        priorityCategories := baseline.scopeHints.priorityCategories ++ extra } ∧
    ∀ hint ∈ extra, hint.category ∈ Category.options

theorem extends_refl (routes : List Route) (baseline : ThreatModel) : Extends routes baseline baseline :=
  ⟨rfl, rfl, ⟨[], (List.append_nil _).symm, by simp⟩, ⟨[], by simp, by simp⟩⟩

theorem nonEmptyText_ne {key text : String} {j : Json} (h : nonEmptyText key j = some text) : text ≠ "" :=
  of_decide_eq_true (Option.filter_eq_some_iff.mp h).2

/-- A suggested abuse case passes its schema and names routes that exist. -/
theorem suggestedCase_spec {routePaths : List String} {c : Json} {abuseCase : AbuseCase}
    (h : suggestedCase routePaths c = some abuseCase) :
    abuseCase.valid = true ∧ ∀ p ∈ abuseCase.routePaths, p ∈ routePaths := by
  unfold suggestedCase at h
  split at h
  · rename_i title description htitle hdescription
    rw [← Option.some.inj h]
    refine ⟨valid_abuseCase (nonEmptyText_ne htitle) (nonEmptyText_ne hdescription), fun p hp => ?_⟩
    exact of_decide_eq_true (List.mem_filter.mp hp).2
  · cases h

theorem suggestedHint_rationale {existing : List Category} {h : Json} {hint : PriorityCategoryHint}
    (hhint : suggestedHint existing h = some hint) : hint.rationale ≠ "" := by
  unfold suggestedHint at hhint
  split at hhint
  · rename_i name rationale _ hrationale
    obtain ⟨category, -, heq⟩ := Option.map_eq_some_iff.mp hhint
    rw [← heq]
    exact nonEmptyText_ne hrationale
  · cases hhint

/-- The schema accepts what is added to a baseline that it accepts. -/
theorem valid_enriched {baseline : ThreatModel} {cases : List AbuseCase} {hints : List PriorityCategoryHint}
    (hbaseline : baseline.valid = true) (hcases : ∀ c ∈ cases, c.valid = true)
    (hhints : ∀ h ∈ hints, h.rationale ≠ "") : (enriched baseline cases hints).valid = true := by
  simp only [ThreatModel.valid, ScopeHints.valid, Bool.and_eq_true, List.all_eq_true] at hbaseline ⊢
  obtain ⟨⟨⟨hboundaries, hsurface⟩, habuse⟩, hpriority⟩ := hbaseline
  refine ⟨⟨⟨hboundaries, hsurface⟩, fun c hc => ?_⟩, fun h hh => ?_⟩
  · obtain hc | hc := List.mem_append.mp hc
    · exact habuse c hc
    · exact hcases c hc
  · obtain hh | hh := List.mem_append.mp hh
    · exact hpriority h hh
    · exact decide_eq_true (hhints h hh)

/-- Enriching returns when both suggestions are arrays or nothing, and only then; it extends the baseline. -/
theorem enrich_spec {routes : List Route} {baseline : ThreatModel} (hbaseline : baseline.valid = true)
    (suggestion : Json) :
    (arrayOrNothing (suggestion.property "abuseCases") = true ∧
        arrayOrNothing (suggestion.property "additionalPriorityCategories") = true →
      ∃ model, enrich (routes.map (·.path)) baseline suggestion = some model ∧ model.valid = true ∧
        Extends routes baseline model) ∧
    (∀ model, enrich (routes.map (·.path)) baseline suggestion = some model →
      arrayOrNothing (suggestion.property "abuseCases") = true ∧
        arrayOrNothing (suggestion.property "additionalPriorityCategories") = true) := by
  rw [← suggested_isSome, ← suggested_isSome]
  unfold enrich
  cases suggested "abuseCases" suggestion with
  | none => simp
  | some cases =>
    cases suggested "additionalPriorityCategories" suggestion with
    | none => simp
    | some hints =>
      refine ⟨fun _ => ?_, fun _ _ => ⟨rfl, rfl⟩⟩
      dsimp only
      generalize hextra : (cases.filterMap (suggestedCase (routes.map (·.path)))).take 8 = extraAbuseCases
      generalize hpriority : (hints.filterMap _).take 5 = extraPriority
      have hcases : ∀ c ∈ extraAbuseCases,
          c.valid = true ∧ ∀ p ∈ c.routePaths, p ∈ routes.map (·.path) := by
        intro c hc
        rw [← hextra] at hc
        obtain ⟨j, -, hj⟩ := List.mem_filterMap.mp (List.mem_of_mem_take hc)
        exact suggestedCase_spec hj
      have hhints : ∀ h ∈ extraPriority, h.rationale ≠ "" := by
        intro h hh
        rw [← hpriority] at hh
        obtain ⟨j, -, hj⟩ := List.mem_filterMap.mp (List.mem_of_mem_take hh)
        exact suggestedHint_rationale hj
      by_cases hempty : (extraAbuseCases.isEmpty && extraPriority.isEmpty) = true
      · rw [if_pos hempty]
        exact ⟨baseline, rfl, hbaseline, extends_refl routes baseline⟩
      · have hvalid := valid_enriched hbaseline (fun c hc => (hcases c hc).1) hhints
        rw [if_neg hempty, if_pos hvalid]
        refine ⟨_, rfl, hvalid, rfl, rfl, ⟨extraAbuseCases, rfl, fun c hc => ⟨fun p hp => ?_, ?_⟩⟩,
          ⟨extraPriority, rfl, ?_⟩⟩
        · exact List.mem_map.mp ((hcases c hc).2 p hp)
        · exact fun category _ => category.mem_options
        · exact fun hint _ => hint.category.mem_options

/-! ## Both passes -/

section Passes

variable (parseJson : String → Option Json) (appMap : AppMap)

/-- The boundaries that are read: those of a reply, when there is something to label. -/
def boundariesRead (reply : GatewayReply) : List Json :=
  match reply with
  | .content text _ => if appMap.hasGaps then parseBoundaries parseJson text else []
  | _ => []

/-- The suggestions that are read: those of a reply, when there is a route. -/
def suggestionRead (reply : GatewayReply) : Json :=
  match reply with
  | .content text _ => if appMap.routes.isEmpty then .obj [] else parseSuggestion parseJson text
  | _ => .obj []

theorem any_null_iff {boundaries : List Json} :
    boundaries.any (· matches .null) = true ↔ Json.null ∈ boundaries := by
  rw [List.any_eq_true]
  constructor
  · rintro ⟨b, hb, hnull⟩
    cases b <;> first | exact hb | cases hnull
  · exact fun h => ⟨.null, h, rfl⟩

/-- The labelling throws at a boundary that is `null`; else each route has its label. -/
theorem labelAuthBoundaries_map (reply : GatewayReply) :
    (labelAuthBoundaries parseJson appMap reply).map (·.appMap) =
      if (boundariesRead parseJson appMap reply).any (· matches .null) then none
      else some
        { base := appMap, routes := appMap.routes.map (labelWith (boundariesRead parseJson appMap reply)) } := by
  have hkept : some (unlabelled appMap) =
      some { base := appMap, routes := appMap.routes.map (labelWith []) } := by
    refine congrArg (fun routes => some (LabelledMap.mk appMap routes)) ?_
    refine List.map_congr_left fun r _ => ?_
    rw [← foldl_applyBoundary]
    rfl
  cases reply with
  | absent | aborted | rejected => exact hkept
  | content text usage =>
    unfold labelAuthBoundaries boundariesRead
    dsimp only
    cases appMap.hasGaps with
    | false => exact hkept
    | true =>
      simp only [Bool.not_true, Bool.false_eq_true, if_false, if_true, labelRoutes_eq]
      split
      · rfl
      · refine congrArg (fun routes => some (LabelledMap.mk appMap routes)) ?_
        rw [unlabelled, List.map_map]
        exact List.map_congr_left fun r _ => foldl_applyBoundary _ r

theorem buildDeterministicThreatModel_eq :
    buildDeterministicThreatModel appMap = some (deterministicThreatModel appMap) :=
  if_pos valid_deterministicThreatModel

/-- The threat model is the baseline, enriched with what is read. -/
theorem deriveThreatModel_map (reply : GatewayReply) :
    (deriveThreatModel parseJson appMap reply).map (·.threatModel) =
      enrich (appMap.routes.map (·.path)) (deterministicThreatModel appMap)
        (suggestionRead parseJson appMap reply) := by
  unfold deriveThreatModel
  rw [buildDeterministicThreatModel_eq, Option.bind_some]
  cases reply with
  | absent | aborted | rejected => rfl
  | content text usage =>
    unfold suggestionRead
    dsimp only
    split
    · rfl
    · rw [Option.map_map]
      exact Option.map_id'

/-- Both passes return, the App Map they make fits its schema, and it has what it had but for the auth of routes
whose auth state was unknown, and the baseline of a threat model. -/
def PassesSafely (labelReply deriveReply : GatewayReply) : Prop :=
  ∃ labelled derived baseline,
    labelAuthBoundaries parseJson appMap labelReply = some labelled ∧
    deriveThreatModel parseJson labelled.appMap.appMap deriveReply = some derived ∧
    buildDeterministicThreatModel labelled.appMap.appMap = some baseline ∧
    labelled.appMap.valid = true ∧ derived.threatModel.valid = true ∧
    (∃ routes, labelled.appMap.appMap = { appMap with routes } ∧
      List.Forall₂ SameButAuth appMap.routes routes) ∧
    Extends labelled.appMap.appMap.routes baseline derived.threatModel

/-- What is read is what the passes expect: boundaries that are not `null`, of which the one that labels a
route without a gate has none but a text, and suggestions that are arrays. -/
structure RepliesFit (labelReply deriveReply : GatewayReply) : Prop where
  boundaries : Json.null ∉ boundariesRead parseJson appMap labelReply
  gates : ∀ r ∈ appMap.routes, ∀ b ∈ labelOf (boundariesRead parseJson appMap labelReply) r,
    r.ungated = true → boundaryGate b matches none | some (.str _)
  abuseCases :
    arrayOrNothing ((suggestionRead parseJson appMap deriveReply).property "abuseCases") = true
  priorities : arrayOrNothing
    ((suggestionRead parseJson appMap deriveReply).property "additionalPriorityCategories") = true

variable {parseJson} {appMap}

/-- A map with labelled routes fits its schema when no gate is stray. -/
theorem valid_labelled (h : appMap.valid = true) (boundaries : List Json) :
    (LabelledMap.mk appMap (appMap.routes.map (labelWith boundaries))).valid = true ↔
      ∀ r ∈ appMap.routes, (labelWith boundaries r).strayGate.isNone = true := by
  have hroutes : ((appMap.routes.map (labelWith boundaries)).map (·.route)).all (·.valid) =
      appMap.routes.all (·.valid) := by
    rw [List.map_map, List.all_map]
    exact congrArg appMap.routes.all (funext fun r => (sameButAuth_labelWith boundaries r).valid_eq)
  have hmap : (LabelledMap.mk appMap (appMap.routes.map (labelWith boundaries))).appMap.valid = true := by
    rw [← h]
    simp only [AppMap.valid, LabelledMap.appMap, hroutes]
    rfl
  simp [LabelledMap.valid, hmap]

/-- Both passes are safe exactly when the replies fit. -/
theorem passesSafely_iff (h : appMap.valid = true) (labelReply deriveReply : GatewayReply) :
    PassesSafely parseJson appMap labelReply deriveReply ↔
      RepliesFit parseJson appMap labelReply deriveReply := by
  have hlabel := labelAuthBoundaries_map parseJson appMap labelReply
  generalize hboundaries : boundariesRead parseJson appMap labelReply = boundaries at hlabel
  generalize hm : LabelledMap.mk appMap (appMap.routes.map (labelWith boundaries)) = m at hlabel
  have hread : suggestionRead parseJson m.appMap deriveReply =
      suggestionRead parseJson appMap deriveReply := by
    simp [← hm, suggestionRead, LabelledMap.appMap]
  have hderive := deriveThreatModel_map parseJson m.appMap deriveReply
  have hspec := @enrich_spec m.appMap.routes (deterministicThreatModel m.appMap)
    valid_deterministicThreatModel (suggestionRead parseJson m.appMap deriveReply)
  rw [← hderive, hread] at hspec
  have hvalid := valid_labelled h boundaries
  rw [hm] at hvalid
  constructor
  · rintro ⟨labelled, derived, -, hlabelled, hderived, -, hfits, -⟩
    rw [hlabelled, Option.map_some] at hlabel
    split at hlabel
    · cases hlabel
    · rename_i hnull
      rw [Option.some.inj hlabel] at hfits hderived
      rw [hderived] at hspec
      obtain ⟨hcases, hpriorities⟩ := hspec.2 _ rfl
      refine ⟨fun hmem => hnull (any_null_iff.mpr (hboundaries ▸ hmem)), fun r hr => ?_, hcases, hpriorities⟩
      rw [hboundaries]
      exact (strayGate_labelWith boundaries r).mp (hvalid.mp hfits r hr)
  · rintro ⟨hnull, hgates, hcases, hpriorities⟩
    rw [hboundaries] at hnull hgates
    rw [if_neg fun hany => hnull (any_null_iff.mp hany)] at hlabel
    obtain ⟨labelled, hlabelled, hmap⟩ := Option.map_eq_some_iff.mp hlabel
    obtain ⟨model, hmodel, hmodelValid, hextends⟩ := hspec.1 ⟨hcases, hpriorities⟩
    obtain ⟨derived, hderived, heq⟩ := Option.map_eq_some_iff.mp hmodel
    refine ⟨labelled, derived, deterministicThreatModel m.appMap, hlabelled, hmap ▸ hderived,
      hmap ▸ buildDeterministicThreatModel_eq m.appMap, ?_, heq ▸ hmodelValid, ?_, ?_⟩
    · rw [hmap]
      exact hvalid.mpr fun r hr => (strayGate_labelWith boundaries r).mpr (hgates r hr)
    · rw [hmap, ← hm]
      refine ⟨_, rfl, ?_⟩
      rw [List.map_map, List.forall₂_map_right_iff, List.forall₂_same]
      exact fun r _ => sameButAuth_labelWith boundaries r
    · rw [hmap, heq]
      exact hextends

end Passes

/-- An App Map with a route that can be labelled. -/
private def shopMap : AppMap :=
  { id := "am", clientId := "c", repo := "r", branch := "main", commitSha := "c0ffee1", createdAt := 0
    routes := [{ path := "/cart", method := .get }] }

private def cartReply : GatewayReply :=
  .content "[\x7b\"route\": \"/cart\", \"authState\": \"authenticated\", \"authGate\": \"session\"\x7d]" none

private def suggestionReply : GatewayReply :=
  .content "\x7b\"abuseCases\": [null, 7]\x7d" none

/-- A boundary with a gate that is a text, and suggestions of any shape in an array. -/
theorem passesSafely_of_cart :
    PassesSafely (parseJson fractionReader) shopMap cartReply suggestionReply := by
  refine (passesSafely_iff (by decide +kernel) cartReply suggestionReply).mpr
    { boundaries := fun h => ?_
      gates := by decide +kernel
      abuseCases := by decide +kernel
      priorities := by decide +kernel }
  have hany := any_null_iff.mpr h
  revert hany
  decide +kernel

/-- The labelling throws at a reply that is an array with `null` in it. -/
theorem labelAuthBoundaries_null : ∃ (appMap : AppMap) (labelReply deriveReply : GatewayReply),
    appMap.valid = true ∧ ¬PassesSafely (parseJson fractionReader) appMap labelReply deriveReply := by
  refine ⟨shopMap, .content "[null]" none, .absent, by decide +kernel, ?_⟩
  rintro ⟨labelled, -, -, hlabelled, -⟩
  have hthrows : (labelAuthBoundaries (parseJson fractionReader) shopMap (.content "[null]" none)).isNone = true := by
    decide +kernel
  rw [hlabelled] at hthrows
  cases hthrows

end MontrSecure
