import MontrSecure.Contracts.Schemas
import Mathlib.Data.List.Sort

/-!
# Threat models

The part of `packages/appmap/src/threat-model.ts` that needs no model: trust boundaries, the plausibility of
categories, abuse cases and scope hints, from the routes, models, sinks and stores of the App Map.
-/

namespace MontrSecure

/-- The token of an auth state. -/
def AuthState.name : AuthState → String
  | public_ => "public"
  | authenticated => "authenticated"
  | roleGated => "role_gated"
  | unknown => "unknown"

/-- `CATEGORY_TO_STRIDE`. -/
def categoryToStride : Category → List StrideCategory
  | .sqlInjection | .nosqlInjection => [.tampering, .informationDisclosure]
  | .commandInjection | .insecureDeserialization | .vulnerableDependency | .massAssignment
  | .promptInjection => [.tampering, .elevationOfPrivilege]
  | .xss => [.spoofing, .tampering, .informationDisclosure]
  | .ssrf | .hardcodedSecret => [.informationDisclosure, .elevationOfPrivilege]
  | .pathTraversal | .permissiveCors | .missingSecurityHeaders | .weakCrypto =>
    [.informationDisclosure, .tampering]
  | .insecureCookie => [.spoofing, .informationDisclosure]
  | .brokenAccessControl | .idor => [.elevationOfPrivilege, .informationDisclosure]
  | .brokenAuthentication => [.spoofing, .elevationOfPrivilege]
  | .openRedirect => [.spoofing]
  | .xxe => [.informationDisclosure, .denialOfService]
  | .csrf => [.spoofing, .tampering]
  | .sensitiveDataExposure => [.informationDisclosure]
  | .insufficientLogging => [.repudiation]
  | .rateLimitMissing => [.denialOfService]
  | .insecureConfiguration => [.tampering, .elevationOfPrivilege, .informationDisclosure]
  | .other => []

/-- `strideForCategory`. -/
def strideForCategory (category : Category) (plausibility : SurfacePlausibility) : List StrideCategory :=
  if plausibility = .none then [] else categoryToStride category

/-- Texts with commas between them. -/
abbrev commas (texts : List String) : String := ", ".intercalate texts

/-- The elements without repetitions, as `[...new Set(l)]`. -/
abbrev distinctTexts (l : List String) : List String := l.eraseDups

/-! ## Sinks and routes -/

section Baseline

variable (appMap : AppMap)

/-- `sinksOfKind`. -/
def sinksOfKind (kinds : List TaintSinkKind) : List TaintSink :=
  appMap.taintSinks.filter (·.kind ∈ kinds)

/-- `describeSink`. -/
def describeSink (sink : TaintSink) : String :=
  let loc := s!"{sink.location.file}:{sink.location.line}"
  match sink.description.filter (· ≠ "") with
  | some description => s!"{loc} ({description})"
  | none => loc

/-- The first sinks, described. -/
def describeSinks (sinks : List TaintSink) : String := "; ".intercalate ((sinks.take 3).map describeSink)

/-- `routePathForFile`. -/
def routePathForFile (file : String) : Option String :=
  (appMap.routes.find? fun r => r.handler.any (·.file = file)).map (·.path)

/-- The models a route uses. -/
def Route.models (r : Route) : List RouteModelRef := r.referencedModels.getD []

/-- `modelRefsWithOp`. -/
def modelRefsWithOp (r : Route) (op : RouteModelOperation) : List RouteModelRef :=
  r.models.filter (op ∈ ·.operations)

/-! ## Trust boundaries -/

/-- Callers of these routes are not verified. -/
def AuthState.weak (state : AuthState) : Bool := state = .public_ || state = .unknown

/-- The findings of a boundary with routes that write or delete models. -/
def writeStride (state : AuthState) (routes : List Route) : List StrideFinding :=
  let models := distinctTexts
    ((routes.flatMap fun r => modelRefsWithOp r .write ++ modelRefsWithOp r .delete).map (·.modelName))
  let routeList := commas (routes.map (·.path))
  if routes = [] then []
  else
    [{ category := .tampering
       rationale := s!"Route(s) {routeList} write/delete ORM model(s) {commas models} behind " ++
         s!"{state.name} auth (A18 route->model links), so an unverified caller can modify persisted " ++
         "data directly." },
      { category := .elevationOfPrivilege
        rationale := s!"The same write/delete access on {commas models} from route(s) {routeList} is " ++
          "reachable without proving any role, so a caller with no privileges at all can perform " ++
          "a state-changing action normally reserved for an authenticated/authorized user." },
      { category := .repudiation
        rationale := "Because " ++ (if state = .public_ then "no identity is required"
            else "the caller's identity could not be resolved") ++
          s!" on route(s) {routeList}, a write/delete performed through " ++
          "them cannot be attributed to an actor after the fact." }]

/-- The finding of a boundary with routes that read models. -/
def readStride (state : AuthState) (routes : List Route) : List StrideFinding :=
  let models := distinctTexts ((routes.flatMap fun r => modelRefsWithOp r .read).map (·.modelName))
  if routes = [] then []
  else
    [{ category := .informationDisclosure
       rationale := s!"Route(s) {commas (routes.map (·.path))} read ORM model(s) {commas models} behind " ++
         s!"{state.name} auth; " ++
         "without a per-caller ownership check, one caller could read another's records." }]

/-- `strideForTrustBoundary`. -/
def strideForTrustBoundary (state : AuthState) (routePaths : List String) : List StrideFinding :=
  let routes := appMap.routes.filter fun r => r.authState = state && r.path ∈ routePaths
  if state.weak then
    { category := .spoofing
      rationale := s!"{routePaths.length} route(s) in this boundary accept requests with no verified caller " ++
        s!"identity (authState \"{state.name}\": {commas routePaths}), so a request cannot be " ++
        "reliably attributed to a real principal." } ::
      (writeStride state (routes.filter fun r =>
          modelRefsWithOp r .write ≠ [] || modelRefsWithOp r .delete ≠ []) ++
        readStride state (routes.filter fun r => modelRefsWithOp r .read ≠ []))
  else []

/-- `AUTH_BOUNDARY_LABELS`. -/
def authBoundaryLabel : AuthState → String
  | .public_ => "Public unauthenticated routes"
  | .authenticated => "Authenticated user-scoped routes"
  | .roleGated => "Role-gated / admin routes"
  | .unknown => "Routes with unresolved auth boundary"

/-- The boundary of the routes with an auth state. -/
def stateBoundary (state : AuthState) : Option TrustBoundary :=
  let unique := distinctTexts ((appMap.routes.filter (·.authState = state)).map (·.path))
  if unique = [] then none
  else some
    { name := authBoundaryLabel state
      description := s!"{unique.length} route(s) classified \"{state.name}\": {commas unique}."
      routePaths := unique, stride := strideForTrustBoundary appMap state unique }

/-- The boundary of the calls to third parties. -/
def externalBoundary : Option TrustBoundary :=
  let names := commas ((distinctTexts (appMap.thirdPartyCalls.map (·.name))).take 5)
  let calls := appMap.thirdPartyCalls.length
  if calls = 0 then none
  else some
    { name := "External API integrations"
      description := s!"{calls} outbound third-party call(s): {names}."
      stride :=
        [{ category := .informationDisclosure
           rationale := s!"{calls} outbound call(s) to {names} " ++
             "leave this app's trust boundary; any tainted or sensitive value passed to one of " ++
             "them is disclosed to a third party outside this app's control." }] }

/-- `buildTrustBoundaries`. -/
def buildTrustBoundaries : List TrustBoundary :=
  [AuthState.public_, .authenticated, .roleGated, .unknown].filterMap (stateBoundary appMap) ++
    (externalBoundary appMap).toList

/-! ## Weak auth -/

/-- `WeakAuthFanOut`. -/
structure WeakAuthFanOut where
  flaggedRoutePaths : List String := []
  flaggedModels : List String := []
  resolved : Bool := false

/-- A reference that changes a model. -/
def RouteModelRef.changes (m : RouteModelRef) : Bool := .write ∈ m.operations || .delete ∈ m.operations

/-- `weakAuthModelFanOut`. -/
def weakAuthModelFanOut : WeakAuthFanOut :=
  let resolvedRoutes := appMap.routes.filter fun r => r.authState.weak && r.models.any (·.changes)
  let weakRoutes := appMap.routes.filter (·.authState.weak)
  if resolvedRoutes ≠ [] then
    { flaggedRoutePaths := resolvedRoutes.map (·.path)
      flaggedModels := distinctTexts
        ((resolvedRoutes.flatMap fun r => r.models.filter (·.changes)).map (·.modelName))
      resolved := true }
  else if appMap.ormModels = [] ∨ weakRoutes = [] then {}
  else
    { flaggedRoutePaths := weakRoutes.map (·.path), flaggedModels := appMap.ormModels.map (·.name) }

/-! ## The attack surface -/

/-- `push` of `buildAttackSurfaceBaseline`. -/
def surface (category : Category) (plausibility : SurfacePlausibility) (rationale : String) :
    AttackSurfaceEntry :=
  { category, plausibility, rationale, stride := strideForCategory category plausibility }

/-- The entry of a category that its sinks speak for. -/
def sinkSurface (category : Category) (plausibility : SurfacePlausibility) (kinds : List TaintSinkKind)
    (what : String) : List AttackSurfaceEntry :=
  let sinks := sinksOfKind appMap kinds
  if sinks = [] then []
  else [surface category plausibility s!"{sinks.length} {what} detected: {describeSinks sinks}."]

/-- The entry of NoSQL injection. -/
def nosqlSurface : List AttackSurfaceEntry :=
  let sqlSinks := sinksOfKind appMap [.sqlQuery, .ormRawQuery]
  if !appMap.dataStores.any (·.kind = .mongodb) then
    [surface .nosqlInjection .none ("No MongoDB (or other non-relational) data store detected in the App Map; " ++
      "NoSQL-operator injection has no reachable target.")]
  else if sqlSinks = [] then []
  else
    [surface .nosqlInjection .medium (
      s!"A MongoDB data store is present alongside {sqlSinks.length} raw-query sink(s); " ++
      "confirm whether any of them build Mongo operator queries from tainted input.")]

/-- The entry of server-side request forgery. -/
def ssrfSurface : AttackSurfaceEntry :=
  let sinks := sinksOfKind appMap [.httpClient]
  if sinks = [] ∧ appMap.thirdPartyCalls = [] then
    surface .ssrf .none "No outbound HTTP client sink and no third-party call detected in the App Map."
  else
    surface .ssrf (if sinks ≠ [] then .medium else .low) (
      s!"{sinks.length} outbound HTTP client sink(s) and {appMap.thirdPartyCalls.length} " ++
      "third-party call(s) detected; confirm none accept a tainted URL/host.")

/-- The entries that deserialization speaks for. -/
def deserializeSurface : List AttackSurfaceEntry :=
  let sinks := sinksOfKind appMap [.deserialize]
  if sinks = [] then
    [surface .insecureDeserialization .none
        "No deserialize-kind taint sink detected anywhere in the App Map.",
      surface .xxe .none ("No deserialize/XML-parsing sink detected; XXE requires a reachable XML parser, " ++
        "which the structural map shows no evidence of.")]
  else
    [surface .insecureDeserialization .high
        s!"{sinks.length} deserialize sink(s) detected: {describeSinks sinks}.",
      surface .xxe .medium ("Deserialization sink(s) present; if any of them parses XML this app has real " ++
        "XXE surface — confirm the parser.")]

/-- The entry of secrets. -/
def secretSurface : List AttackSurfaceEntry :=
  match appMap.envSecretSurfaces with
  | [] => []
  | first :: rest =>
    [surface .hardcodedSecret .medium (
      s!"{rest.length + 1} secret/config surface(s) detected (e.g. " ++
      s!"{first.name}); confirm none are hardcoded rather than injected.")]

/-- The entry of cross-site request forgery. -/
def csrfSurface : List AttackSurfaceEntry :=
  let sources := appMap.taintSources.filter (·.kind = .cookie)
  if sources = [] then []
  else
    [surface .csrf .medium (s!"{sources.length} cookie-derived taint source(s) detected; confirm " ++
      "state-changing routes carry CSRF protection.")]

/-- The entries of weak auth. -/
def accessSurface : List AttackSurfaceEntry :=
  let fanOut := weakAuthModelFanOut appMap
  let routes := commas fanOut.flaggedRoutePaths
  let models := commas fanOut.flaggedModels
  let rationale :=
    if fanOut.resolved then
      s!"Route(s) {routes} write/delete ORM model(s) " ++
        s!"{models} behind public/unresolved auth (A18 route→model links)."
    else
      s!"{fanOut.flaggedRoutePaths.length} public/unresolved-auth route(s) " ++
        s!"({routes}) share the app with {fanOut.flaggedModels.length} " ++
        s!"ORM model(s) ({models}), but route→model ownership links are not " ++
        "resolved for this stack — cannot rule out unauthorized cross-tenant access."
  let plausibility := if fanOut.resolved then .high else .medium
  if fanOut.flaggedRoutePaths = [] then []
  else [surface .idor plausibility rationale, surface .brokenAccessControl plausibility rationale]

/-- The entry of routes whose auth is not resolved. -/
def authenticationSurface : List AttackSurfaceEntry :=
  let routes := appMap.routes.filter (·.authState = .unknown)
  if routes = [] then []
  else
    [surface .brokenAuthentication .medium (
      s!"{routes.length} route(s) have an unresolved auth boundary: " ++
      s!"{commas ((routes.take 5).map (·.path))}.")]

/-- The entry of routes that write models. -/
def assignmentSurface : List AttackSurfaceEntry :=
  let routes := appMap.routes.filter fun r => r.models.any (.write ∈ ·.operations)
  if routes = [] then []
  else
    [surface .massAssignment .medium (s!"{routes.length} route(s) write an ORM model directly " ++
      s!"({commas ((routes.take 5).map (·.path))}); confirm field-level allowlisting.")]

/-- `buildAttackSurfaceBaseline`. -/
def buildAttackSurfaceBaseline : List AttackSurfaceEntry :=
  sinkSurface appMap .sqlInjection .high [.sqlQuery, .ormRawQuery] "raw/SQL query sink(s)" ++
    nosqlSurface appMap ++
    sinkSurface appMap .commandInjection .high [.commandExec, .eval] "shell-exec/eval sink(s)" ++
    sinkSurface appMap .xss .high [.htmlRender, .templateRender] "HTML/template render sink(s)" ++
    [ssrfSurface appMap] ++
    sinkSurface appMap .pathTraversal .high [.fsRead, .fsWrite] "filesystem sink(s)" ++
    deserializeSurface appMap ++
    sinkSurface appMap .openRedirect .medium [.redirect] "redirect sink(s)" ++
    sinkSurface appMap .weakCrypto .medium [.crypto] "crypto-related call site(s)" ++
    secretSurface appMap ++ csrfSurface appMap ++ accessSurface appMap ++ authenticationSurface appMap ++
    assignmentSurface appMap

/-! ## Abuse cases and hints -/

/-- Where a route exposes a sink. -/
def routeSuffix (start : String) (route : Option String) : String :=
  match route with
  | some route => start ++ route
  | none => ""

/-- A case of SQL injection through a sink. -/
def sqlAbuseCase (sink : TaintSink) : AbuseCase :=
  let route := (routePathForFile appMap sink.location.file).filter (· ≠ "")
  { title := "Raw-query SQL injection" ++ routeSuffix " via " route
    description := "An attacker submits crafted input that reaches the raw/SQL sink at " ++
      describeSink sink ++ routeSuffix ", exposed by route " route ++ "."
    routePaths := route.toList, categories := [.sqlInjection] }

/-- A case of script injection through a sink. -/
def scriptAbuseCase (sink : TaintSink) : AbuseCase :=
  let route := (routePathForFile appMap sink.location.file).filter (· ≠ "")
  { title := "Reflected/stored script execution" ++ routeSuffix " via " route
    description := s!"Untrusted input reaches the render sink at {describeSink sink}" ++
      routeSuffix ", exposed by route " route ++
      ", letting an attacker run script in another user's session."
    routePaths := route.toList, categories := [.xss] }

/-- `buildDeterministicAbuseCases`. -/
def buildDeterministicAbuseCases : List AbuseCase :=
  let fanOut := weakAuthModelFanOut appMap
  ((sinksOfKind appMap [.sqlQuery, .ormRawQuery]).take 3).map (sqlAbuseCase appMap) ++
    ((sinksOfKind appMap [.htmlRender, .templateRender]).take 3).map (scriptAbuseCase appMap) ++
    if fanOut.flaggedRoutePaths = [] then []
    else
      [{ title := "Cross-tenant object access via weakly-authenticated route"
         description :=
           s!"A caller on route(s) {commas fanOut.flaggedRoutePaths} may reach another tenant's " ++
           s!"{commas fanOut.flaggedModels} record(s) by supplying a foreign identifier: " ++
           (if fanOut.resolved then "the route writes/deletes the model behind"
             else "auth for these routes is") ++ " public/unresolved."
         routePaths := fanOut.flaggedRoutePaths, categories := [.idor, .brokenAccessControl] }]

/-- `PLAUSIBILITY_ORDER`. -/
def SurfacePlausibility.order : SurfacePlausibility → ℕ
  | high => 0
  | medium => 1
  | low => 2
  | none => 3

/-- `buildScopeHints`. -/
def buildScopeHints (attackSurface : List AttackSurfaceEntry) : ScopeHints :=
  { priorityCategories :=
      ((attackSurface.filter fun e => e.plausibility = .high || e.plausibility = .medium).insertionSort
        fun a b => a.plausibility.order ≤ b.plausibility.order).map fun e =>
          { category := e.category, rationale := e.rationale }
    priorityRoutePaths := distinctTexts (weakAuthModelFanOut appMap).flaggedRoutePaths
    zeroSurfaceCategories := (attackSurface.filter (·.plausibility = .none)).map (·.category) }

/-- `buildDeterministicThreatModel`, before its schema has checked it. -/
def deterministicThreatModel : ThreatModel :=
  let attackSurface := buildAttackSurfaceBaseline appMap
  { trustBoundaries := buildTrustBoundaries appMap, attackSurface
    abuseCases := buildDeterministicAbuseCases appMap, scopeHints := buildScopeHints appMap attackSurface }

end Baseline

/-! ## The schema accepts it -/

section Valid

variable {appMap : AppMap}

theorem valid_stateBoundary {state : AuthState} {b : TrustBoundary} (h : stateBoundary appMap state = some b) :
    b.valid = true := by
  have hwrite : ∀ routes, ∀ f ∈ writeStride state routes, f.rationale ≠ "" := by
    intro routes f hf
    unfold writeStride at hf
    split at hf
    · cases hf
    · simp only [List.mem_cons, List.not_mem_nil, or_false] at hf
      obtain rfl | rfl | rfl := hf <;> simp
  have hread : ∀ routes, ∀ f ∈ readStride state routes, f.rationale ≠ "" := by
    intro routes f hf
    unfold readStride at hf
    split at hf
    · cases hf
    · rw [List.mem_singleton.mp hf]
      simp
  have hstride : ∀ paths, ∀ f ∈ strideForTrustBoundary appMap state paths, f.rationale ≠ "" := by
    intro paths f hf
    unfold strideForTrustBoundary at hf
    split at hf
    · obtain rfl | hf := List.mem_cons.mp hf
      · simp
      · obtain hf | hf := List.mem_append.mp hf
        · exact hwrite _ f hf
        · exact hread _ f hf
    · cases hf
  unfold stateBoundary at h
  dsimp only at h
  split at h
  · cases h
  · rw [← Option.some.inj h]
    have hname : authBoundaryLabel state ≠ "" := by
      cases state <;> decide
    simpa [TrustBoundary.valid, hname] using hstride _

theorem valid_externalBoundary {b : TrustBoundary} (h : externalBoundary appMap = some b) :
    b.valid = true := by
  unfold externalBoundary at h
  dsimp only at h
  split at h
  · cases h
  · rw [← Option.some.inj h]
    simp [TrustBoundary.valid]

theorem valid_surface {category : Category} {plausibility : SurfacePlausibility} {rationale : String}
    (h : rationale ≠ "") : (surface category plausibility rationale).valid = true :=
  decide_eq_true h

theorem valid_buildAttackSurfaceBaseline : ∀ e ∈ buildAttackSurfaceBaseline appMap, e.valid = true := by
  have hsink : ∀ category plausibility kinds what, ∀ e ∈ sinkSurface appMap category plausibility kinds what,
      e.valid = true := by
    intro category plausibility kinds what e he
    unfold sinkSurface at he
    dsimp only at he
    split at he
    · cases he
    · rw [List.mem_singleton.mp he]
      exact valid_surface (by simp)
  have hnosql : ∀ e ∈ nosqlSurface appMap, e.valid = true := by
    intro e he
    unfold nosqlSurface at he
    dsimp only at he
    split at he
    · rw [List.mem_singleton.mp he]
      exact valid_surface (by simp)
    · split at he
      · cases he
      · rw [List.mem_singleton.mp he]
        exact valid_surface (by simp)
  have hssrf : (ssrfSurface appMap).valid = true := by
    unfold ssrfSurface
    dsimp only
    split
    · exact valid_surface (by decide)
    · exact valid_surface (by simp)
  have hdeserialize : ∀ e ∈ deserializeSurface appMap, e.valid = true := by
    intro e he
    unfold deserializeSurface at he
    dsimp only at he
    split at he <;>
    · simp only [List.mem_cons, List.not_mem_nil, or_false] at he
      obtain rfl | rfl := he <;> exact valid_surface (by simp)
  have hsecret : ∀ e ∈ secretSurface appMap, e.valid = true := by
    intro e he
    unfold secretSurface at he
    split at he
    · cases he
    · rw [List.mem_singleton.mp he]
      exact valid_surface (by simp)
  have hcsrf : ∀ e ∈ csrfSurface appMap, e.valid = true := by
    intro e he
    unfold csrfSurface at he
    dsimp only at he
    split at he
    · cases he
    · rw [List.mem_singleton.mp he]
      exact valid_surface (by simp)
  have haccess : ∀ e ∈ accessSurface appMap, e.valid = true := by
    intro e he
    unfold accessSurface at he
    dsimp only at he
    split at he
    · cases he
    · simp only [List.mem_cons, List.not_mem_nil, or_false] at he
      obtain rfl | rfl := he <;>
      · refine valid_surface ?_
        split <;> simp [toString]
  have hauthentication : ∀ e ∈ authenticationSurface appMap, e.valid = true := by
    intro e he
    unfold authenticationSurface at he
    dsimp only at he
    split at he
    · cases he
    · rw [List.mem_singleton.mp he]
      exact valid_surface (by simp)
  have hassignment : ∀ e ∈ assignmentSurface appMap, e.valid = true := by
    intro e he
    unfold assignmentSurface at he
    dsimp only at he
    split at he
    · cases he
    · rw [List.mem_singleton.mp he]
      exact valid_surface (by simp)
  intro e he
  simp only [buildAttackSurfaceBaseline, List.mem_append, List.mem_singleton] at he
  grind

theorem valid_abuseCase {c : AbuseCase} (htitle : c.title ≠ "") (hdescription : c.description ≠ "") :
    c.valid = true := by
  simp [AbuseCase.valid, htitle, hdescription]

theorem valid_sqlAbuseCase (sink : TaintSink) : (sqlAbuseCase appMap sink).valid = true := by
  refine valid_abuseCase ?_ ?_ <;>
  · unfold sqlAbuseCase
    simp

theorem valid_scriptAbuseCase (sink : TaintSink) : (scriptAbuseCase appMap sink).valid = true := by
  refine valid_abuseCase ?_ ?_ <;>
  · unfold scriptAbuseCase
    simp

theorem valid_buildDeterministicAbuseCases : ∀ c ∈ buildDeterministicAbuseCases appMap, c.valid = true := by
  intro c hc
  unfold buildDeterministicAbuseCases at hc
  obtain hc | hc := List.mem_append.mp hc
  · obtain hc | hc := List.mem_append.mp hc
    · obtain ⟨sink, -, hsink⟩ := List.mem_map.mp hc
      exact hsink ▸ valid_sqlAbuseCase sink
    · obtain ⟨sink, -, hsink⟩ := List.mem_map.mp hc
      exact hsink ▸ valid_scriptAbuseCase sink
  · split at hc
    · cases hc
    · rw [List.mem_singleton.mp hc]
      refine valid_abuseCase ?_ ?_ <;> simp [toString]

theorem valid_buildScopeHints {attackSurface : List AttackSurfaceEntry}
    (h : ∀ e ∈ attackSurface, e.valid = true) : (buildScopeHints appMap attackSurface).valid = true := by
  refine List.all_eq_true.mpr fun hint hmem => ?_
  unfold buildScopeHints at hmem
  obtain ⟨e, he, hhint⟩ := List.mem_map.mp hmem
  exact hhint ▸ h e (List.mem_filter.mp ((List.mem_insertionSort _).mp he)).1

theorem valid_buildTrustBoundaries : ∀ b ∈ buildTrustBoundaries appMap, b.valid = true := by
  intro b hb
  unfold buildTrustBoundaries at hb
  obtain hb | hb := List.mem_append.mp hb
  · obtain ⟨state, -, hstate⟩ := List.mem_filterMap.mp hb
    exact valid_stateBoundary hstate
  · exact valid_externalBoundary (Option.mem_toList.mp hb)

/-- The baseline passes its schema, whatever the App Map. -/
theorem valid_deterministicThreatModel : (deterministicThreatModel appMap).valid = true := by
  have hparts : (deterministicThreatModel appMap).valid = ((buildTrustBoundaries appMap).all (·.valid) &&
      (buildAttackSurfaceBaseline appMap).all (·.valid) &&
        (buildDeterministicAbuseCases appMap).all (·.valid) &&
          (buildScopeHints appMap (buildAttackSurfaceBaseline appMap)).valid) := rfl
  rw [hparts, List.all_eq_true.mpr valid_buildTrustBoundaries,
    List.all_eq_true.mpr valid_buildAttackSurfaceBaseline,
    List.all_eq_true.mpr valid_buildDeterministicAbuseCases,
    valid_buildScopeHints valid_buildAttackSurfaceBaseline]
  rfl

end Valid

end MontrSecure
