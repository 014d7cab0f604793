import MontrSecure.AppMap.Coverage
import MontrSecure.Report.RuleReadBack
import MontrSecure.Text.Splitting

/-!
# A live rule on its own transcript

`evaluateDetectionRuleAgainstScenario` of `packages/confirm/src/purple-loop.ts`, on the rule that was made from the
same transcript. The values of the rule were decoded and cut to a length, and the requests are decoded in another way,
so that a rule can miss the attack that it was made from. `fired_sigmaRule_iff` says when it fires.
-/

namespace MontrSecure

namespace Purple

open Text Text.Regex
open Confirm (HttpExchange)

/-! ## Evaluating a rule on a transcript -/

/-- `DetectionRule`, with its text. -/
structure ScenarioRule extends DetectionRule where
  content : List ℕ

/-- `Pick<ScenarioRunResult, "transcript" | "probed">`. -/
structure ScenarioRun where
  transcript : List HttpExchange
  probed : Bool

/-- `SigmaRuleEvaluation`. -/
structure SigmaRuleEvaluation where
  rule : ScenarioRule
  fired : Bool
  matchedFields : List String
  matchedExchange : Option HttpExchange := none
  reason : List ℕ

/-- The request of an exchange. -/
def evaluable (exchange : HttpExchange) : EvaluableRequest where
  method := exchange.method
  url := exchange.url
  bodySnippet := exchange.requestSnippet

variable (rt : PurpleRuntime)

/-- The loop over the exchanges, from the best miss so far. -/
def evaluateExchanges (rule : ScenarioRule) (parsed : ParsedSigmaRule) :
    List HttpExchange → Option (SigmaEvalOutcome × HttpExchange) → SigmaRuleEvaluation
  | [], bestMiss =>
    { rule
      fired := false
      matchedFields := (bestMiss.map (·.1.matchedFields)).getD []
      matchedExchange := bestMiss.map (·.2)
      reason := (bestMiss.map (·.1.reason)).getD
        (units "no scenario request matched this rule's selection conditions") }
  | exchange :: rest, bestMiss =>
    let outcome := evaluateSigmaRule rt parsed (evaluable exchange)
    if outcome.fired then
      { rule
        fired := true
        matchedFields := outcome.matchedFields
        matchedExchange := some exchange
        reason := outcome.reason }
    else
      evaluateExchanges rule parsed rest
        (if bestMiss.all fun best => best.1.matchedFields.length < outcome.matchedFields.length then
          some (outcome, exchange)
        else bestMiss)

/-- `evaluateDetectionRuleAgainstScenario`. -/
def evaluateDetectionRuleAgainstScenario (rule : ScenarioRule) (scenarioRun : ScenarioRun) : SigmaRuleEvaluation :=
  if rule.format ≠ .sigma then
    { rule
      fired := false
      matchedFields := []
      reason := units ("this evaluator structurally assesses \"sigma\"-format rules only; rule " ++ rule.id ++
        " is format \"" ++ rule.format.name ++ "\"") }
  else if scenarioRun.transcript = [] then
    { rule
      fired := false
      matchedFields := []
      reason :=
        if scenarioRun.probed then units "scenario probed but produced no transcript entries"
        else units ("scenario ran in gate-only/authorize mode (no transport supplied) — no request was ever sent, " ++
          "so there is nothing to evaluate the rule against") }
  else evaluateExchanges rt rule (parseSigmaRule rule.content) scenarioRun.transcript none

variable {rt} {rule : ScenarioRule} {parsed : ParsedSigmaRule}

theorem fired_evaluateExchanges_iff (transcript : List HttpExchange)
    (bestMiss : Option (SigmaEvalOutcome × HttpExchange)) :
    (evaluateExchanges rt rule parsed transcript bestMiss).fired = true ↔
      ∃ exchange ∈ transcript, (evaluateSigmaRule rt parsed (evaluable exchange)).fired = true := by
  induction transcript generalizing bestMiss with
  | nil => simp [evaluateExchanges]
  | cons exchange rest ih =>
    rw [evaluateExchanges, List.exists_mem_cons_iff]
    split
    · rename_i hfired
      exact iff_of_true rfl (.inl hfired)
    · rename_i hfired
      rw [ih, or_iff_right hfired]

/-- A rule fires on a transcript when it fires on one of its requests. -/
theorem fired_evaluateDetectionRuleAgainstScenario_iff (hformat : rule.format = .sigma)
    {transcript : List HttpExchange} (htranscript : transcript ≠ []) (probed : Bool) :
    (evaluateDetectionRuleAgainstScenario rt rule ⟨transcript, probed⟩).fired = true ↔
      ∃ exchange ∈ transcript,
        (evaluateSigmaRule rt (parseSigmaRule rule.content) (evaluable exchange)).fired = true := by
  rw [evaluateDetectionRuleAgainstScenario, if_neg (not_not.mpr hformat), if_neg htranscript]
  exact fired_evaluateExchanges_iff transcript none

/-- The query of a request as the markers are looked for in it. -/
def queryText (rt : PurpleRuntime) (url : RequestUrl) : List ℕ :=
  let search := units url.search
  let rawQuery := if search.head? = some (unit '?') then search.tail else search
  (rt.decodeURIComponent rawQuery).getD rawQuery

/-- A rule fires on a request when it is one for a route, and the parts of the request answer it. -/
theorem fired_evaluateSigmaRule_iff (request : EvaluableRequest) :
    (evaluateSigmaRule rt parsed request).fired = true ↔
      parsed.kind = .route ∧ ∃ url, rt.parseUrl request.url = some url ∧
        (evaluateRequest rt parsed (units request.method) (units url.pathname) (queryText rt url)
          (units (request.bodySnippet.getD ""))).fired = true := by
  unfold evaluateSigmaRule
  cases hkind : parsed.kind with
  | fileFallback => simp
  | route =>
    rw [if_neg (by decide)]
    cases hurl : rt.parseUrl request.url with
    | none => simp
    | some url => simp [queryText]

/-- Where no marker is empty, a hit is a marker in the text. -/
theorem hit_iff {markers : List (List ℕ)} (hne : ∀ marker ∈ markers, marker ≠ []) {text : List ℕ} :
    hit rt markers text ↔ ∃ marker ∈ markers, containsMarker rt text marker = true := by
  rw [hit, Option.any_eq_true]
  constructor
  · rintro ⟨marker, hfind, -⟩
    exact ⟨marker, List.mem_of_find?_eq_some hfind, List.find?_some hfind⟩
  · intro hmarker
    obtain ⟨marker, hfind⟩ := Option.isSome_iff_exists.mp (List.find?_isSome.mpr hmarker)
    exact ⟨marker, hfind, decide_eq_true (hne marker (List.mem_of_find?_eq_some hfind))⟩

/-! ## A path matches itself -/

theorem mem_segmentLanguage_self {seg : List ℕ} (h : unit '/' ∉ seg) : seg ∈ segmentLanguage seg := by
  unfold segmentLanguage
  split
  · rename_i hdynamic
    refine ⟨?_, fun c hc => decide_eq_true fun hslash => h (hslash ▸ hc)⟩
    rintro rfl
    exact absurd hdynamic (by decide)
  · exact rfl

theorem intercalate_mem_segmentsLanguage (segs : List (List ℕ)) (h : ∀ seg ∈ segs, unit '/' ∉ seg) :
    [unit '/'].intercalate segs ∈ segmentsLanguage segs := by
  induction segs with
  | nil => exact rfl
  | cons seg segs ih =>
    obtain ⟨hseg, hsegs⟩ := List.forall_mem_cons.mp h
    cases segs with
    | nil =>
      rw [List.intercalate_singleton]
      exact mem_segmentLanguage_self hseg
    | cons seg' segs =>
      rw [List.intercalate_cons_cons, List.append_assoc]
      exact Language.append_mem_mul (mem_segmentLanguage_self hseg) (Language.append_mem_mul rfl (ih hsegs))

/-- A path begins as it does itself, whatever its segments look like. -/
theorem pathMatchesStartsWith_self (path : List ℕ) : pathMatchesStartsWith path path = true := by
  refine (pathMatchesStartsWith_iff path path).mpr ⟨path, ?_, List.prefix_rfl⟩
  have hself := intercalate_mem_segmentsLanguage (path.splitOn (unit '/')) fun seg => not_mem_of_mem_splitOn
  rwa [List.intercalate_splitOn] at hself

end Purple

namespace Sigma

open Text Text.Marks
open Purple
open LiveContext (buildRuleContext)
open Confirm (HttpExchange)

/-! ## What is read of a rule -/

section

variable (ruleRt : RuleRuntime) (finding : ConfirmedFinding) (ctx : RuleContext) (mitreTechniques : List String)

/-- The path that is read of a rule for a route: its own, unless a text before it ends in its key. -/
def readPath : List ℕ :=
  (marks.shadow (units "cs-uri-stem|startswith:") (headPieces ruleRt finding ctx) pathGap).getD (units ctx.path)

/-- The method that is read, if any. -/
def readMethod : Option (List ℕ) :=
  marks.firstBehind (units "cs-method:") (routePieces ruleRt finding ctx mitreTechniques)

/-- The markers that are read for the query. -/
def readQuery : List (List ℕ) :=
  listRead "cs-uri-query|contains:" (frontPieces ruleRt finding ctx) (ctx.markers.map units)

/-- The markers that are read for the body. -/
def readBody : List (List ℕ) :=
  listRead "cs-body|contains:" (bodyFrontPieces ruleRt finding ctx) (ctx.markers.map units)

/-- A request has the path and the method that are read, and one of the markers where there are any. -/
structure Answers (rt : PurpleRuntime) (exchange : HttpExchange) (url : RequestUrl) : Prop where
  path : pathMatchesStartsWith (readPath ruleRt finding ctx) (units url.pathname) = true
  method : ∀ m ∈ readMethod ruleRt finding ctx mitreTechniques,
    rt.toUpperCase m = rt.toUpperCase (units exchange.method)
  payload : readQuery ruleRt finding ctx = [] ∧ readBody ruleRt finding ctx = [] ∨
    (∃ marker ∈ readQuery ruleRt finding ctx, containsMarker rt (queryText rt url) marker = true) ∨
    ∃ marker ∈ readBody ruleRt finding ctx,
      containsMarker rt (units (exchange.requestSnippet.getD "")) marker = true

/-- No text of a rule names the file event, and a request of the transcript answers what is read. -/
structure FiresOn (rt : PurpleRuntime) (transcript : List HttpExchange) : Prop where
  event : ∀ piece ∈ routePieces ruleRt finding ctx mitreTechniques, ¬NamesFileEvent piece.2
  answered : ∃ exchange ∈ transcript, ∃ url, rt.parseUrl exchange.url = some url ∧
    Answers ruleRt finding ctx mitreTechniques rt exchange url

/-- The rule of format `sigma` of `generateDetectionRules`. -/
def sigmaRule (id : EntityId) : ScenarioRule where
  id := id
  findingId := finding.id
  format := .sigma
  mitreTechniques := mitreTechniques
  content := buildSigmaRule ruleRt finding ctx mitreTechniques

end

variable {ruleRt : RuleRuntime} {finding : ConfirmedFinding} {ctx : RuleContext} {mitreTechniques : List String}

theorem ne_nil_of_mem_listRead {key : String} {before : List (List ℕ × List ℕ)} {texts : List (List ℕ)}
    {marker : List ℕ} (h : marker ∈ listRead key before texts) : marker ≠ [] := by
  unfold listRead at h
  split at h
  · cases h
  · have hlistable : marks.Listable marker := by simpa using List.mem_takeWhile_imp h
    exact hlistable.1

/-- What `parseSigmaRule` reads of a rule for a route. -/
theorem parseSigmaRule_buildSigmaRule (hkind : ctx.kind ≠ .fileFallback)
    (hevent : isFileEvent (buildSigmaRule ruleRt finding ctx mitreTechniques) = false) :
    (parseSigmaRule (buildSigmaRule ruleRt finding ctx mitreTechniques)).pathStartsWith =
        some (readPath ruleRt finding ctx) ∧
      (parseSigmaRule (buildSigmaRule ruleRt finding ctx mitreTechniques)).method =
        readMethod ruleRt finding ctx mitreTechniques ∧
      (parseSigmaRule (buildSigmaRule ruleRt finding ctx mitreTechniques)).queryContains =
        readQuery ruleRt finding ctx ∧
      (parseSigmaRule (buildSigmaRule ruleRt finding ctx mitreTechniques)).bodyContains =
        readBody ruleRt finding ctx := by
  obtain ⟨-, hpath, hmethod, hquery, hbody⟩ := parseSigmaRule_route hevent
  have hfirst : extractOne (buildSigmaRule ruleRt finding ctx mitreTechniques) "cs-method:" =
      readMethod ruleRt finding ctx mitreTechniques := by
    rw [buildSigmaRule_route hkind]
    exact extractOne_document (isKey_of_mem (by decide)) plain_routePieces (by decide)
  exact ⟨hpath.trans (extractOne_path hkind), hmethod.trans hfirst, hquery.trans (extractList_query hkind),
    hbody.trans (extractList_body hkind)⟩

/-- A rule for a route fires on a transcript exactly when no text of it names the file event and a request answers. -/
theorem fired_iff_firesOn {rt : PurpleRuntime} (hkind : ctx.kind ≠ .fileFallback) (id : EntityId)
    {transcript : List HttpExchange} (htranscript : transcript ≠ []) (probed : Bool) :
    (evaluateDetectionRuleAgainstScenario rt (sigmaRule ruleRt finding ctx mitreTechniques id)
        ⟨transcript, probed⟩).fired = true ↔
      FiresOn ruleRt finding ctx mitreTechniques rt transcript := by
  rw [fired_evaluateDetectionRuleAgainstScenario_iff rfl htranscript]
  simp only [sigmaRule, fired_evaluateSigmaRule_iff]
  cases hevent : isFileEvent (buildSigmaRule ruleRt finding ctx mitreTechniques) with
  | true =>
    obtain ⟨piece, hpiece, hnames⟩ := (isFileEvent_route_iff hkind).mp hevent
    refine iff_of_false ?_ fun h => h.event piece hpiece hnames
    rintro ⟨exchange, -, hroute, -⟩
    rw [(parseSigmaRule_file hevent).1] at hroute
    cases hroute
  | false =>
    have hanswers : ∀ (exchange : HttpExchange) (url : RequestUrl),
        (evaluateRequest rt (parseSigmaRule (buildSigmaRule ruleRt finding ctx mitreTechniques))
            (units exchange.method) (units url.pathname) (queryText rt url)
            (units (exchange.requestSnippet.getD ""))).fired = true ↔
          Answers ruleRt finding ctx mitreTechniques rt exchange url := by
      intro exchange url
      obtain ⟨hpath, hmethod, hquery, hbody⟩ := parseSigmaRule_buildSigmaRule hkind hevent
      have hqueryNe : ∀ marker ∈ readQuery ruleRt finding ctx, marker ≠ [] := fun _ => ne_nil_of_mem_listRead
      have hbodyNe : ∀ marker ∈ readBody ruleRt finding ctx, marker ≠ [] := fun _ => ne_nil_of_mem_listRead
      rw [fired_evaluateRequest_iff, hpath, hmethod, hquery, hbody, hit_iff hqueryNe, hit_iff hbodyNe]
      simp only [Option.any_some, Option.all_eq_true, decide_eq_true_eq]
      exact ⟨fun h => ⟨h.1, h.2.1, h.2.2⟩, fun h => ⟨h.path, h.method, h.payload⟩⟩
    constructor
    · rintro ⟨exchange, hexchange, -, url, hurl, hfired⟩
      exact ⟨(isFileEvent_route_eq_false_iff hkind).mp hevent, exchange, hexchange, url, hurl,
        (hanswers exchange url).mp hfired⟩
    · rintro ⟨-, exchange, hexchange, url, hurl, hanswer⟩
      exact ⟨exchange, hexchange, (parseSigmaRule_route hevent).1, url, hurl, (hanswers exchange url).mpr hanswer⟩

/-! ## The rule of a live finding -/

/-- The runtime of the evaluator, with the URLs that the context of the rule was made with. -/
def withUrls (rt : PurpleRuntime) (urls : UrlRuntime) : PurpleRuntime :=
  { rt with parseUrl := fun raw => (urls.parseUrl raw).map (·.toRequestUrl) }

section

variable {urls : UrlRuntime} {target : String} {transcript : List HttpExchange} {appMap : Option AppMap}

/-- The context of a live finding is the last request. -/
theorem buildRuleContext_live (finding : ConfirmedFinding) (target : String) (appMap : Option AppMap)
    {primary : HttpExchange} {primaryUrl : LiveUrl} (hlast : transcript.getLast? = some primary)
    (hurl : urls.parseUrl primary.url = some primaryUrl) :
    (buildRuleContext urls finding (.live target transcript) appMap).kind = .liveRequest ∧
      (buildRuleContext urls finding (.live target transcript) appMap).method =
        (if primary.method ≠ "" then primary.method else "ANY") ∧
      (buildRuleContext urls finding (.live target transcript) appMap).path =
        (if primaryUrl.pathname ≠ "" then primaryUrl.pathname else "/") := by
  have hlive : LiveContext.buildFromLiveProof urls finding target transcript =
      some (buildRuleContext urls finding (.live target transcript) appMap) := by
    simp only [buildRuleContext, LiveContext.buildFromLiveProof, hlast, LiveContext.safeUrl, hurl, Option.some_or,
      Option.bind_eq_bind, Option.bind_some]
    rfl
  simp only [LiveContext.buildFromLiveProof, hlast, LiveContext.safeUrl, hurl, Option.some_or, Option.bind_eq_bind,
    Option.bind_some] at hlive
  rw [← Option.some.inj hlive]
  exact ⟨rfl, rfl, rfl⟩

/-- The context of a live finding is never scoped to a file. -/
theorem kind_buildRuleContext_live (htranscript : transcript ≠ [])
    (hurls : ∀ exchange ∈ transcript, (urls.parseUrl exchange.url).isSome) :
    (buildRuleContext urls finding (.live target transcript) appMap).kind ≠ .fileFallback := by
  obtain ⟨primaryUrl, hurl⟩ := Option.isSome_iff_exists.mp (hurls _ (List.getLast_mem htranscript))
  rw [(buildRuleContext_live finding target appMap (List.getLast?_eq_some_getLast htranscript) hurl).1]
  decide

/-- What is read of a rule without ambiguous texts is what was written. -/
theorem reads_of_unambiguous (hkind : ctx.kind ≠ .fileFallback)
    (h : Unambiguous ruleRt finding ctx mitreTechniques) :
    readPath ruleRt finding ctx = units ctx.path ∧
      readMethod ruleRt finding ctx mitreTechniques = (if ctx.method = "ANY" then none else some (units ctx.method)) ∧
      readQuery ruleRt finding ctx = ctx.markers.map units ∧ readBody ruleRt finding ctx = ctx.markers.map units := by
  have hevent := (isFileEvent_route_eq_false_iff hkind).mpr (h.event hkind)
  have hreads := (readsBack_iff_unambiguous fun hfile => absurd hfile hkind).mpr h
  obtain ⟨hpath, hmethod, hquery, hbody⟩ := parseSigmaRule_buildSigmaRule hkind hevent
  obtain ⟨-, hpath', hmethod', hquery', hbody'⟩ := hreads.route hkind
  exact ⟨Option.some.inj (hpath.symm.trans hpath'), hmethod.symm.trans hmethod', hquery.symm.trans hquery',
    hbody.symm.trans hbody'⟩

/-- A rule without ambiguous texts fires when the last request shows one of its markers to the evaluator, or when it
has none: the path and the method of the request are those of the rule. -/
theorem firesOn_of_unambiguous {rt : PurpleRuntime} {primary : HttpExchange} {primaryUrl : LiveUrl}
    (hlast : transcript.getLast? = some primary) (hurl : urls.parseUrl primary.url = some primaryUrl)
    (hpathname : primaryUrl.pathname ≠ "")
    (h : Unambiguous ruleRt finding (buildRuleContext urls finding (.live target transcript) appMap) mitreTechniques)
    (hshown : (buildRuleContext urls finding (.live target transcript) appMap).markers = [] ∨
      ∃ marker ∈ (buildRuleContext urls finding (.live target transcript) appMap).markers,
        containsMarker rt (queryText (withUrls rt urls) primaryUrl.toRequestUrl) (units marker) = true ∨
          containsMarker rt (units (primary.requestSnippet.getD "")) (units marker) = true) :
    FiresOn ruleRt finding (buildRuleContext urls finding (.live target transcript) appMap) mitreTechniques
      (withUrls rt urls) transcript := by
  obtain ⟨hlive, hmethod, hpath⟩ := buildRuleContext_live finding target appMap hlast hurl
  generalize buildRuleContext urls finding (.live target transcript) appMap = ctx at *
  have hkind : ctx.kind ≠ .fileFallback := by
    rw [hlive]
    decide
  obtain ⟨hreadPath, hreadMethod, hreadQuery, hreadBody⟩ := reads_of_unambiguous hkind h
  refine ⟨h.event hkind, primary, List.mem_of_getLast? hlast, primaryUrl.toRequestUrl, ?_, ?_, ?_, ?_⟩
  · exact congrArg (Option.map _) hurl
  · rw [hreadPath, hpath, if_pos hpathname]
    exact pathMatchesStartsWith_self _
  · intro m hm
    rw [hreadMethod] at hm
    by_cases hany : ctx.method = "ANY"
    · rw [if_pos hany] at hm
      cases hm
    · rw [if_neg hany] at hm
      have hpinned : primary.method ≠ "" := by
        intro hempty
        rw [hempty] at hmethod
        exact hany hmethod
      rw [← Option.some.inj hm, hmethod, if_pos hpinned]
  · rw [hreadQuery, hreadBody]
    obtain hnone | ⟨marker, hmarker, hquery | hbody⟩ := hshown
    · exact .inl ⟨by rw [hnone, List.map_nil], by rw [hnone, List.map_nil]⟩
    · exact .inr (.inl ⟨units marker, List.mem_map_of_mem hmarker, hquery⟩)
    · exact .inr (.inr ⟨units marker, List.mem_map_of_mem hmarker, hbody⟩)

end

/-- A finding in a search. -/
def searchFinding : ConfirmedFinding where
  id := "cf_9"
  scanId := "scan_1"
  clientId := "acme"
  title := "Injection in the search"
  category := .sqlInjection
  severity := .high
  exposure := .public_
  location := { file := "app/search/route.ts", line := 5 }
  impact := "Any row can be read."
  proofType := .live
  proofArtifact := .null
  createdAt := 1709210096007

/-- The digest of the seed of its rule. -/
def searchDigest : List (Fin 16) :=
  [10, 15, 6, 13, 12, 6, 7, 7, 3, 9, 5, 13, 14, 9, 12, 13, 4, 3, 6, 3, 14, 15, 2, 6, 5, 6, 5, 1, 7, 13, 7, 9, 15, 7,
    0, 2, 11, 12, 12, 6]

/-- A search for a text, as it stands in the query. -/
def searchRequest (raw : String) : HttpExchange where
  method := "GET"
  url := "https://app.example/search?q=" ++ raw
  status := 200

/-- Its URL, where the text is decoded as a form is. -/
def searchUrls (raw text : String) : UrlRuntime where
  parseUrl url :=
    if url = (searchRequest raw).url then
      some { pathname := "/search", search := "?q=" ++ raw, searchParams := [("q", text)] }
    else none
  resolveUrl _ _ := none

/-- The runtime of the evaluator for a search without percent signs. -/
def searchRuntime (raw text : String) : PurpleRuntime :=
  withUrls { toLowerCase := List.map asciiLower, toUpperCase := List.map asciiUpper, decodeURIComponent := some
             parseUrl := fun _ => none } (searchUrls raw text)

/-- The context of its rule. -/
def searchContext (raw text : String) : RuleContext :=
  buildRuleContext (searchUrls raw text) searchFinding (.live "https://app.example" [searchRequest raw]) none

end Sigma

end MontrSecure
