import MontrSecure.Report.RuleContext

/-!
# Detection coverage

`packages/appmap/src/coverage-analysis.ts`: the route that a confirmed finding belongs to, and whether what that route
logs gives a detection rule something to match. The route of the rule is resolved by other means (`route.ts`): it is
the first with a handler in the file of the finding, where the one here is the nearest.
-/

namespace MontrSecure

open Confirm (methodName)

/-- `DetectionRuleFormat`. -/
inductive DetectionRuleFormat where
  | sigma
  | otel
  | siemQuery
  deriving DecidableEq

/-- The token of a format. -/
def DetectionRuleFormat.name : DetectionRuleFormat → String
  | sigma => "sigma"
  | otel => "otel"
  | siemQuery => "siem_query"

/-- `DetectionRule`, as far as coverage reads it. -/
structure DetectionRule where
  id : EntityId
  findingId : EntityId
  format : DetectionRuleFormat
  mitreTechniques : List String := []

/-- `DetectionStatus`. -/
inductive DetectionStatus where
  | detected
  | undetected
  | unknown
  deriving DecidableEq

/-- `CoverageVerdict`. -/
structure CoverageVerdict where
  detected : DetectionStatus
  reasoning : String
  detectionRuleId : Option EntityId := none

/-! ## The route of a finding -/

/-- The line of the handler of a route. -/
def Route.handlerLine (r : Route) : ℕ := (r.handler.map (·.line)).getD 0

/-- How far the handler of a route is from a line. -/
def Route.distance (line : ℕ) (r : Route) : ℕ := ((r.handlerLine : ℤ) - line).natAbs

/-- The first of some routes that are nearest to a line. -/
def nearestRoute (line : ℕ) : List Route → Option Route
  | [] => none
  | r :: rest => some (rest.foldl (fun best r => if r.distance line < best.distance line then r else best) r)

/-- `routeForFinding`. -/
def routeForFinding (appMap : AppMap) (finding : ConfirmedFinding) : Option Route :=
  match appMap.routesIn finding.location.file with
  | [] => none
  | [r] => some r
  | candidates =>
    let before := candidates.filter fun r => r.handlerLine ≤ finding.location.line
    nearestRoute finding.location.line (if before ≠ [] then before else candidates)

/-! ## Verdicts -/

/-- `telemetryForRoute`. -/
def telemetryForRoute (appMap : AppMap) (route : Option Route) : Option RouteTelemetry :=
  route.bind fun route => appMap.telemetrySurfaces.bind fun surfaces =>
    surfaces.routes.find? fun rt => rt.path = route.path ∧ rt.method = route.method

/-- A text between backticks. -/
def inBackticks (text : String) : String := "\x60" ++ text ++ "\x60"

/-- `evaluateCoverageForFinding`. -/
def evaluateCoverageForFinding (appMap : AppMap) (finding : ConfirmedFinding) (existingRules : List DetectionRule) :
    CoverageVerdict :=
  let rule := existingRules.find? (·.findingId = finding.id)
  let place := finding.location.file ++ ":" ++ toString finding.location.line
  let named (r : DetectionRule) := r.id ++ ", format " ++ r.format.name
  match routeForFinding appMap finding with
  | none =>
    match rule with
    | some r =>
      { detected := .unknown
        reasoning := "A detection rule (" ++ named r ++ ") exists for this finding, but the finding at " ++ place ++
          " could not be linked to a specific route in the App Map, so whether the target's telemetry actually covers" ++
          " the request path this finding lives on cannot be determined."
        detectionRuleId := some r.id }
    | none =>
      { detected := .undetected
        reasoning := "No detection rule exists for this finding, and the finding at " ++ place ++
          " could not be linked to a specific route in the App Map — there is no route-scoped telemetry surface to" ++
          " evaluate at all." }
  | some route =>
    let subject := "Route " ++ methodName route.method ++ " " ++ route.path
    match telemetryForRoute appMap (some route) with
    | none =>
      { detected := .unknown
        reasoning := subject ++ " was never analyzed for per-route logging presence (per-route call detection is" ++
          " TypeScript/JavaScript-only today — see packages/appmap/src/telemetry-surfaces.ts), so whether this route's" ++
          " handler logs anything cannot be determined from the App Map." ++
          match rule with
          | some r => " A detection rule (" ++ named r ++ ") exists, but its real-world coverage of this route cannot be" ++
              " confirmed without that signal."
          | none => " No detection rule exists for this finding either."
        detectionRuleId := rule.map (·.id) }
    | some telemetry =>
      if !telemetry.hasLoggingCall then
        { detected := .undetected
          reasoning := subject ++ "'s handler (" ++ (route.handler.map (·.file)).getD finding.location.file ++ ":" ++
            toString ((route.handler.map (·.line)).getD finding.location.line) ++ ") makes NO logging call at all —" ++
            " this route is a blind spot regardless of " ++
            (match rule with
            | some r => "the existing detection rule (" ++ r.id ++ ")"
            | none => "whether a detection rule exists") ++
            ": there is no telemetry here for any rule to ever match against."
          detectionRuleId := rule.map (·.id) }
      else
        match rule with
        | none =>
          { detected := .undetected
            reasoning := subject ++ " has " ++
              (if telemetry.loggerKind = some .structured then
                "structured logging (e.g. " ++ inBackticks (telemetry.sample.getD "a logger call") ++ ")"
              else "console-only logging (e.g. " ++ inBackticks (telemetry.sample.getD "a console call") ++ ")") ++
              ", but no detection rule exists yet for this finding (category " ++ finding.category.name ++
              ") — the telemetry exists but nothing is watching it." }
        | some r =>
          if telemetry.loggerKind = some .console then
            { detected := .unknown
              reasoning := subject ++ " logs via unstructured console output (e.g. " ++
                inBackticks (telemetry.sample.getD "console.log(...)") ++ ") rather than a structured logging library," ++
                " and a detection rule (" ++ named r ++ ") exists for this finding — but a bare console call carries no" ++
                " reliable structured fields (event name, status code, user id) for the rule to match on, so whether it" ++
                " would actually fire cannot be determined from the App Map alone."
              detectionRuleId := some r.id }
          else
            { detected := .detected
              reasoning := subject ++ " logs via a structured logging call (e.g. " ++
                inBackticks (telemetry.sample.getD "logger.info(...)") ++ ") and a detection rule (" ++ named r ++
                (if r.mitreTechniques ≠ [] then ", MITRE " ++ ", ".intercalate r.mitreTechniques else "") ++
                ") exists for this finding (category " ++ finding.category.name ++
                ") — the existing telemetry gives the rule real structured fields to match against."
              detectionRuleId := some r.id }

/-! ## The route of the rule -/

section Nearest

variable {line : ℕ} {r : Route} {routes : List Route}

/-- One step of the search never goes farther away. -/
theorem distance_step (best r : Route) :
    (if r.distance line < best.distance line then r else best).distance line ≤ best.distance line := by
  split_ifs with h
  · exact h.le
  · exact le_refl _

theorem mem_nearestRoute (h : nearestRoute line routes = some r) : r ∈ routes := by
  rcases routes with _ | ⟨first, rest⟩
  · cases h
  · rw [nearestRoute, Option.some.injEq] at h
    rw [← h]
    clear h
    induction rest generalizing first with
    | nil => simp
    | cons next rest ih =>
      rw [List.foldl_cons]
      by_cases hnext : next.distance line < first.distance line
      · rw [if_pos hnext]
        exact List.mem_cons_of_mem _ (ih next)
      · rw [if_neg hnext]
        rcases List.mem_cons.mp (ih first) with heq | hmem
        · rw [heq]
          exact List.mem_cons_self
        · exact List.mem_cons_of_mem _ (List.mem_cons_of_mem _ hmem)

/-- No route is nearer than the one that is found. -/
theorem distance_nearestRoute_le (h : nearestRoute line routes = some r) :
    ∀ s ∈ routes, r.distance line ≤ s.distance line := by
  rcases routes with _ | ⟨first, rest⟩
  · cases h
  · rw [nearestRoute, Option.some.injEq] at h
    rw [← h]
    clear h
    induction rest generalizing first with
    | nil => simp
    | cons next rest ih =>
      rw [List.foldl_cons]
      intro s hs
      have hbest := ih (if next.distance line < first.distance line then next else first)
      have hhead := hbest _ List.mem_cons_self
      rcases List.mem_cons.mp hs with rfl | hs
      · exact hhead.trans (distance_step s next)
      · rcases List.mem_cons.mp hs with rfl | hs
        · -- Where the next route is not taken, it is no nearer.
          refine hhead.trans ?_
          split_ifs with hnext
          · exact le_refl _
          · exact Nat.le_of_not_lt hnext
        · exact hbest s (List.mem_cons_of_mem _ hs)

/-- The first of some routes is found exactly when no other is nearer. -/
theorem nearestRoute_eq_head_iff : nearestRoute line (r :: routes) = some r ↔
    ∀ s ∈ routes, r.distance line ≤ s.distance line := by
  constructor
  · intro h s hs
    exact distance_nearestRoute_le h s (List.mem_cons_of_mem _ hs)
  · intro h
    rw [nearestRoute, Option.some.injEq]
    induction routes with
    | nil => rfl
    | cons next rest ih =>
      obtain ⟨hnext, hrest⟩ := List.forall_mem_cons.mp h
      rw [List.foldl_cons, if_neg (Nat.not_lt.mpr hnext)]
      exact ih hrest

end Nearest

/-- The handler of a route begins at a line or before it. -/
def Route.beginsBefore (line : ℕ) (r : Route) : Bool := r.handlerLine ≤ line

/-- The first route of the file of the finding begins at or before its line and no other that does is nearer, or no
route of the file does and no other is nearer. -/
def FirstIsNearest (appMap : AppMap) (finding : ConfirmedFinding) : Prop :=
  let line := finding.location.line
  ∀ first rest, appMap.routesIn finding.location.file = first :: rest → ∀ r ∈ rest,
    if first.beginsBefore line then r.beginsBefore line = true → first.distance line ≤ r.distance line
    else r.beginsBefore line = false ∧ first.distance line ≤ r.distance line

/-- Which route is found, when several have a handler in the file. -/
theorem some_eq_nearest_iff {line : ℕ} {first : Route} {rest : List Route} :
    (some first = nearestRoute line
      (if (first :: rest).filter (·.beginsBefore line) ≠ [] then (first :: rest).filter (·.beginsBefore line)
      else first :: rest)) ↔
      ∀ r ∈ rest, if first.beginsBefore line then r.beginsBefore line = true → first.distance line ≤ r.distance line
        else r.beginsBefore line = false ∧ first.distance line ≤ r.distance line := by
  by_cases hfirst : first.beginsBefore line = true
  · have hbefore : (first :: rest).filter (·.beginsBefore line) = first :: rest.filter (·.beginsBefore line) :=
      List.filter_cons_of_pos hfirst
    rw [hbefore, if_pos (List.cons_ne_nil _ _), eq_comm, nearestRoute_eq_head_iff]
    simp [hfirst]
  · have hbefore : (first :: rest).filter (·.beginsBefore line) = rest.filter (·.beginsBefore line) :=
      List.filter_cons_of_neg hfirst
    simp only [hbefore, hfirst]
    by_cases hnone : rest.filter (·.beginsBefore line) = []
    · have hall : ∀ r ∈ rest, r.beginsBefore line = false := by simpa [List.filter_eq_nil_iff] using hnone
      rw [if_neg (not_not.mpr hnone), eq_comm, nearestRoute_eq_head_iff]
      constructor
      · exact fun h r hr => ⟨hall r hr, h r hr⟩
      · exact fun h r hr => (h r hr).2
    · -- The route that is found begins before the line, and the first does not.
      rw [if_pos hnone]
      constructor
      · intro h
        have hmem := List.mem_filter.mp (mem_nearestRoute h.symm)
        exact absurd hmem.2 hfirst
      · intro h
        obtain ⟨r, hr⟩ := List.exists_mem_of_ne_nil _ hnone
        obtain ⟨hmem, hr⟩ := List.mem_filter.mp hr
        have hnot := (h r hmem).1
        rw [hr] at hnot
        cases hnot

/-- A detection rule is about the route that coverage is evaluated for exactly when the first route of the file is the
nearest. -/
theorem sameRoute_iff (appMap : AppMap) (finding : ConfirmedFinding) :
    (buildFromStaticProof finding (some appMap)).route = routeForFinding appMap finding ↔
      FirstIsNearest appMap finding := by
  rw [route_buildFromStaticProof, resolveRoute_eq_head?, FirstIsNearest, routeForFinding]
  rcases appMap.routesIn finding.location.file with _ | ⟨first, _ | ⟨second, rest⟩⟩
  · simp
  · constructor
    · intro _ first' rest' heq r hr
      obtain ⟨rfl, rfl⟩ := List.cons.inj heq
      cases hr
    · exact fun _ => rfl
  · have hiff := @some_eq_nearest_iff finding.location.line first (second :: rest)
    refine hiff.trans ⟨fun h first' rest' heq => ?_, fun h => h first (second :: rest) rfl⟩
    obtain ⟨rfl, rfl⟩ := List.cons.inj heq
    exact h

/-- Two routes with handlers in one file, of which the second one logs. -/
private def twoRoutes : AppMap where
  id := "am"
  clientId := "c"
  repo := "r"
  branch := "main"
  commitSha := ""
  routes := [{ path := "/list", method := .get, handler := some { file := "app.ts", line := 5 } },
    { path := "/create", method := .post, handler := some { file := "app.ts", line := 40 } }]
  telemetrySurfaces := some {
    hasStructuredLogging := true
    routes := [{ path := "/list", method := .get, hasLoggingCall := false },
      { path := "/create", method := .post, hasLoggingCall := true, loggerKind := some .structured }] }
  createdAt := 0

/-- A finding in the handler of the second route. -/
private def inCreate : ConfirmedFinding where
  id := "f"
  scanId := "s"
  clientId := "c"
  title := "SQL Injection"
  category := .sqlInjection
  severity := .high
  exposure := .public_
  location := { file := "app.ts", line := 45 }
  impact := ""
  proofType := .static
  proofArtifact := .null
  createdAt := 0

/-- The rule is about a route that does not log, and the verdict about one that does. -/
theorem detected_on_other_route : ∃ (appMap : AppMap) (finding : ConfirmedFinding) (rules : List DetectionRule),
    finding.proofType = .static ∧ (evaluateCoverageForFinding appMap finding rules).detected = .detected ∧
      (buildFromStaticProof finding (some appMap)).route ≠ routeForFinding appMap finding := by
  refine ⟨twoRoutes, inCreate, [{ id := "rule", findingId := "f", format := .sigma }], rfl, by decide +kernel, fun h => ?_⟩
  have hpath := congrArg (Option.map Route.path) h
  revert hpath
  decide +kernel

end MontrSecure
