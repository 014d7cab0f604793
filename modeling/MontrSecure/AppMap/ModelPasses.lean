import MontrSecure.AppMap.ThreatModel
import MontrSecure.Confirm.Scenarios
import MontrSecure.Correlation.Scoring

/-!
# What the model adds to an App Map

`packages/appmap/src/llm.ts` labels the auth boundaries that the deterministic pass left unknown, and
`deriveThreatModel` of `threat-model.ts` appends abuse cases and priority categories to the baseline. Both
read a reply that can be any text, outside the blocks that catch errors.
-/

namespace MontrSecure

open Confirm (trim methodName)

/-- What asking the gateway comes to. -/
inductive GatewayReply where
  /-- There is no gateway. -/
  | absent
  /-- The signal is set. -/
  | aborted
  /-- `complete` throws. -/
  | rejected
  | content (text : String) (usage : Option TokenUsage)

/-! ## Replies -/

/-- What stands before the first fence and what stands after it. -/
def splitFence : List Char → Option (List Char × List Char)
  | [] => none
  | c :: rest =>
    if "```".toList.isPrefixOf (c :: rest) then some ([], rest.drop 2)
    else (splitFence rest).map fun s => (c :: s.1, s.2)

/-- `(?:json)?`, in either case. -/
def skipJson (s : List Char) : List Char :=
  if (s.take 4).map Char.toLower = "json".toList then s.drop 4 else s

/-- `unfence`. -/
def unfence (text : String) : String :=
  let fenced := (splitFence text.toList).bind fun s =>
    splitFence ((skipJson s.2).dropWhile isTrimmed)
  trim ((fenced.map fun s => String.ofList s.1).getD text)

example : unfence "Here: ```JSON\n [1] ``` and ```" = "[1]" := by decide +kernel

/-- A value that counts as true. -/
def Json.truthy : Json → Bool
  | .null => false
  | .bool b => b
  | .num q => q ≠ 0
  | .str s => s ≠ ""
  | .arr _ | .obj _ => true

/-- The text of a property that is one. -/
def Json.textProperty (key : String) (j : Json) : Option String :=
  match j.property key with
  | some (.str s) => some s
  | _ => none

variable (parseJson : String → Option Json)

/-- `parseBoundaries`, over `JSON.parse`. -/
def parseBoundaries (content : String) : List Json :=
  match parseJson (unfence content) with
  | none => []
  | some parsed =>
    match parsed.property "authBoundaries", parsed with
    | some (.arr items), _ => items
    | _, .arr items => items
    | _, _ => []

/-! ## Auth boundaries -/

/-- A route while it is labelled: what it was, what it is and the auth gate that is not a text, if it was
given one. -/
structure LabelledRoute where
  original : Route
  route : Route
  strayGate : Option Json := none

/-- The state a boundary labels routes with. -/
def boundaryState (b : Json) : Option AuthState :=
  [AuthState.public_, .authenticated, .roleGated].find? fun state => b.textProperty "authState" = some state.name

/-- A route is one of the routes that a boundary speaks of. -/
def speaksOf (b : Json) (r : Route) : Bool :=
  r.path ≠ "" && b.textProperty "route" = some r.path &&
    (!(b.property "method").any Json.truthy || b.textProperty "method" = some (methodName r.method))

/-- `target.authGate`, where it is falsy. -/
def Route.ungated (r : Route) : Bool := r.authGate.all (· = "")

/-- The auth gate of a boundary, where it is truthy. -/
def boundaryGate (b : Json) : Option Json := (b.property "authGate").filter Json.truthy

/-- `target.authGate = b.authGate`. -/
def LabelledRoute.setGate (target : LabelledRoute) : Json → LabelledRoute
  | .str s => { target with route := { target.route with authGate := some s } }
  | gate => { target with strayGate := some gate }

/-- One boundary on one route. -/
def applyBoundary (b : Json) (target : LabelledRoute) : LabelledRoute :=
  match boundaryState b with
  | none => target
  | some state =>
    if target.original.authState = .unknown && speaksOf b target.original &&
        target.route.authState = .unknown then
      let labelled := { target with route := { target.route with authState := state } }
      match boundaryGate b with
      | some gate => if target.route.ungated then labelled.setGate gate else labelled
      | none => labelled
    else target

/-- The loop of `labelAuthBoundaries` over the boundaries, unless a property of `null` is read. -/
def labelRoutes : List Json → List LabelledRoute → Option (List LabelledRoute)
  | [], targets => some targets
  | .null :: _, _ => none
  | b :: boundaries, targets => labelRoutes boundaries (targets.map (applyBoundary b))

/-- An App Map with labelled routes. -/
structure LabelledMap where
  base : AppMap
  routes : List LabelledRoute

/-- The App Map, for what its schema lets hold. -/
def LabelledMap.appMap (m : LabelledMap) : AppMap := { m.base with routes := m.routes.map (·.route) }

/-- `AppMapSchema` accepts. -/
def LabelledMap.valid (m : LabelledMap) : Bool :=
  m.appMap.valid && m.routes.all (·.strayGate.isNone)

/-- The routes as they are. -/
def unlabelled (appMap : AppMap) : LabelledMap :=
  { base := appMap, routes := appMap.routes.map fun r => { original := r, route := r } }

/-- `AuthLabelResult`. -/
structure AuthLabelResult where
  appMap : LabelledMap
  called : Bool
  usage : Option TokenUsage := none

/-- There is a route to label. -/
def AppMap.hasGaps (appMap : AppMap) : Bool := appMap.routes.any (·.authState = .unknown)

/-- `labelAuthBoundaries`, unless it throws. -/
def labelAuthBoundaries (appMap : AppMap) (reply : GatewayReply) : Option AuthLabelResult :=
  match reply with
  | .absent | .aborted | .rejected => some { appMap := unlabelled appMap, called := false }
  | .content text usage =>
    if !appMap.hasGaps then some { appMap := unlabelled appMap, called := false }
    else
      (labelRoutes (parseBoundaries parseJson text) (unlabelled appMap).routes).map fun routes =>
        { appMap := { base := appMap, routes }, called := true, usage }

/-! ## Threat models -/

/-- `CategorySchema.options`. -/
def Category.options : List Category :=
  [.sqlInjection, .nosqlInjection, .commandInjection, .xss, .ssrf, .pathTraversal, .insecureDeserialization,
    .hardcodedSecret, .vulnerableDependency, .permissiveCors, .missingSecurityHeaders, .insecureCookie,
    .weakCrypto, .brokenAccessControl, .brokenAuthentication, .openRedirect, .xxe, .csrf,
    .sensitiveDataExposure, .insufficientLogging, .idor, .massAssignment, .rateLimitMissing, .promptInjection,
    .insecureConfiguration, .other]

/-- The category a text names: membership in `VALID_CATEGORIES`. -/
def Category.ofName (s : String) : Option Category := Category.options.find? (·.name = s)

/-- `buildDeterministicThreatModel`, unless its schema throws. -/
def buildDeterministicThreatModel (appMap : AppMap) : Option ThreatModel :=
  let model := deterministicThreatModel appMap
  if model.valid then some model else none

/-- `parseSuggestion`. -/
def parseSuggestion (content : String) : Json :=
  match parseJson (unfence content) with
  | some (.obj fields) => .obj fields
  | some (.arr items) => .arr items
  | _ => .obj []

/-- A member of a suggestion as an array, unless `filter` is not a function of it. -/
def suggested (key : String) (suggestion : Json) : Option (List Json) :=
  match suggestion.property key with
  | none | some .null => some []
  | some (.arr items) => some items
  | some _ => none

/-- `isNonEmptyString`, of a property. -/
def nonEmptyText (key : String) (j : Json) : Option String := (j.textProperty key).filter (· ≠ "")

/-- `stringArray`, of a property. -/
def stringArray (key : String) (j : Json) : List String :=
  match j.property key with
  | some (.arr items) => items.filterMap fun item => match item with
    | .str s => some s
    | _ => none
  | _ => []

/-- An abuse case that is suggested. -/
def suggestedCase (routePaths : List String) (c : Json) : Option AbuseCase :=
  match nonEmptyText "title" c, nonEmptyText "description" c with
  | some title, some description =>
    some
      { title, description
        routePaths := (stringArray "routePaths" c).filter (· ∈ routePaths)
        categories := (stringArray "categories" c).filterMap Category.ofName }
  | _, _ => none

/-- A priority that is suggested and not there yet. -/
def suggestedHint (existing : List Category) (h : Json) : Option PriorityCategoryHint :=
  match nonEmptyText "category" h, nonEmptyText "rationale" h with
  | some name, some rationale =>
    ((Category.ofName name).filter (· ∉ existing)).map fun category => { category, rationale }
  | _, _ => none

/-- `ThreatModelResult`. -/
structure ThreatModelResult where
  threatModel : ThreatModel
  called : Bool
  usage : Option TokenUsage := none

/-- The baseline with what is suggested. -/
def enriched (baseline : ThreatModel) (extraAbuseCases : List AbuseCase)
    (extraPriority : List PriorityCategoryHint) : ThreatModel :=
  { baseline with
    abuseCases := baseline.abuseCases ++ extraAbuseCases
    scopeHints :=
      { baseline.scopeHints with
        priorityCategories := baseline.scopeHints.priorityCategories ++ extraPriority }
    generatedByLlm := true }

/-- The part of `deriveThreatModel` after the reply. -/
def enrich (routePaths : List String) (baseline : ThreatModel) (suggestion : Json) : Option ThreatModel :=
  match suggested "abuseCases" suggestion, suggested "additionalPriorityCategories" suggestion with
  | some cases, some hints =>
    let existing := baseline.scopeHints.priorityCategories.map (·.category)
    let extraAbuseCases := (cases.filterMap (suggestedCase routePaths)).take 8
    let extraPriority := (hints.filterMap (suggestedHint existing)).take 5
    if extraAbuseCases.isEmpty && extraPriority.isEmpty then some baseline
    else
      let model := enriched baseline extraAbuseCases extraPriority
      if model.valid then some model else none
  | _, _ => none

/-- `deriveThreatModel`, unless it throws. -/
def deriveThreatModel (appMap : AppMap) (reply : GatewayReply) : Option ThreatModelResult :=
  (buildDeterministicThreatModel appMap).bind fun baseline =>
    match reply with
    | .absent | .aborted | .rejected => some { threatModel := baseline, called := false }
    | .content text usage =>
      if appMap.routes.isEmpty then some { threatModel := baseline, called := false }
      else
        (enrich (appMap.routes.map (·.path)) baseline (parseSuggestion parseJson text)).map fun threatModel =>
          { threatModel, called := true, usage }

end MontrSecure
