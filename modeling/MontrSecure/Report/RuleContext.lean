import MontrSecure.Confirm.Heuristics
import MontrSecure.Confirm.PurpleLoop
import MontrSecure.Confirm.Scenarios
import MontrSecure.Confirm.Static

/-!
# The context of a detection rule

`packages/report/src/detection-rules/context.ts` and `route.ts`: the route, the method and the markers that the rules
for a finding are rendered from, when no request was ever sent.
-/

namespace MontrSecure

open Confirm (dataflowSinkKinds isDataFlowConfirmable methodName)

/-- `RuleContextKind`. -/
inductive RuleContextKind where
  | liveRequest
  | staticRequest
  | fileFallback
  deriving DecidableEq

/-- `RuleContext`; the method is a token of `HttpMethod`, `ANY` or what a transcript has. -/
structure RuleContext where
  kind : RuleContextKind
  method : String
  path : String
  route : Option Route := none
  markers : List String
  bodyExample : Option String := none
  sinkKindLabel : Option TaintSinkKind := none
  fileTarget : Option String := none
  provenanceNote : String

/-- `CATEGORY_MARKERS`. -/
def categoryMarkers : Category → List String
  | .sqlInjection => ["' OR '1'='1", "' OR 1=1--", "UNION SELECT", "; DROP TABLE", "SLEEP(5)--"]
  | .nosqlInjection => ["\x7b\"$ne\":null\x7d", "\x7b\"$gt\":\"\"\x7d", "$where", "$regex"]
  | .commandInjection => ["; cat /etc/passwd", "&& id", "| whoami", "$(id)", "\x60id\x60"]
  | .xss => ["<script>", "onerror=", "javascript:", "<img src=x onerror="]
  | .ssrf => ["169.254.169.254", "file://", "http://localhost", "http://127.0.0.1"]
  | .pathTraversal => ["../../../../etc/passwd", "..%2f..%2f", "....//"]
  | .openRedirect => ["//evil.", "http://evil.", "@evil.com"]
  | .insecureDeserialization => ["rO0AB", "__proto__", "\"@type\""]
  | .xxe => ["<!DOCTYPE", "<!ENTITY", "SYSTEM \"file:"]
  | _ => []

/-- The routes with a handler in a file. -/
def AppMap.routesIn (appMap : AppMap) (file : String) : List Route :=
  appMap.routes.filter fun r => r.handler.any (·.file = file)

/-- `resolveRoute`. -/
def resolveRoute (appMap : Option AppMap) (finding : ConfirmedFinding) : Option Route :=
  appMap.bind fun appMap => appMap.routes.find? fun r => r.handler.any (·.file = finding.location.file)

/-- `sinkKindLabelFor`. -/
def sinkKindLabelFor (category : Category) : Option TaintSinkKind :=
  if isDataFlowConfirmable category then (dataflowSinkKinds category).head? else none

/-- `buildFromStaticProof`. -/
def buildFromStaticProof (finding : ConfirmedFinding) (appMap : Option AppMap) : RuleContext :=
  let route := resolveRoute appMap finding
  let markers := categoryMarkers finding.category
  let sinkKindLabel := sinkKindLabelFor finding.category
  match route with
  | some r =>
    { kind := .staticRequest
      method := methodName r.method
      path := r.path
      route := some r
      markers, sinkKindLabel
      provenanceNote :=
        "a static data-flow proof (no requests fired); the route was resolved from the App Map" }
  | none =>
    { kind := .fileFallback
      method := "ANY"
      path := ""
      markers
      fileTarget := some finding.location.file
      sinkKindLabel
      provenanceNote := "a static data-flow proof (no requests fired); no App Map route matched " ++
        finding.location.file ++ ", so this rule is scoped to the file instead" }

/-- The rule is about the route that was resolved. -/
theorem route_buildFromStaticProof (finding : ConfirmedFinding) (appMap : Option AppMap) :
    (buildFromStaticProof finding appMap).route = resolveRoute appMap finding := by
  unfold buildFromStaticProof
  rcases h : resolveRoute appMap finding with _ | r
  · rfl
  · rfl

theorem resolveRoute_eq_head? (appMap : AppMap) (finding : ConfirmedFinding) :
    resolveRoute (some appMap) finding = (appMap.routesIn finding.location.file).head? := by
  rw [resolveRoute, Option.bind_some, AppMap.routesIn, List.head?_filter]

end MontrSecure

/-!
## The context of a live rule

`buildFromLiveProof` and `buildRuleContext` of `packages/report/src/detection-rules/context.ts`: the last exchange of
a transcript is compared with the first, and what differs in its query and its body are the markers.
-/

namespace MontrSecure

open Confirm (ProofArtifact HttpExchange takeUnits)
open Purple (RequestUrl)

/-- A URL with its query taken apart. -/
structure LiveUrl extends RequestUrl where
  searchParams : List (String × String)

/-- `new URL(raw)` and `new URL(raw, base)`, unless they throw. -/
structure UrlRuntime where
  parseUrl : String → Option LiveUrl
  resolveUrl : String → String → Option LiveUrl

namespace LiveContext

/-- `MAX_MARKER_LEN`. -/
def maxMarkerLen : ℕ := 160

/-- `truncate`; a `String` cannot be cut inside of a character. -/
def truncate (s : String) : String :=
  if maxMarkerLen < Text.length s then String.ofList (takeUnits maxMarkerLen s.toList) ++ "…" else s

variable (urls : UrlRuntime)

/-- `safeUrl`. -/
def safeUrl (raw base : String) : Option LiveUrl := (urls.parseUrl raw).or (urls.resolveUrl raw base)

/-- `searchParams.get(key)`. -/
def getParam (url : LiveUrl) (key : String) : Option String := url.searchParams.lookup key

/-- `diffQueryMarkers`. -/
def diffQueryMarkers (primary : LiveUrl) (baseline : Option LiveUrl) : List String :=
  (primary.searchParams.filter fun param =>
    param.2 ≠ "" && some param.2 ≠ baseline.bind (getParam · param.1)).map fun param => truncate param.2

/-- `diffBodyMarkers`; no body and an empty one are the same. -/
def diffBodyMarkers (primaryBody baselineBody : Option String) : List String :=
  match primaryBody.filter (· ≠ "") with
  | none => []
  | some body => if some body ≠ baselineBody then [truncate body] else []

/-- What is left of a query without its question mark. -/
def withoutMark (search : String) : String :=
  if search.toList.head? = some '?' then String.ofList search.toList.tail else search

/-- The markers of a transcript: what differs, or else all that was sent. -/
def liveMarkers (primary : HttpExchange) (baseline : Option HttpExchange) (primaryUrl : LiveUrl)
    (baselineUrl : Option LiveUrl) : List String :=
  let markers := diffQueryMarkers primaryUrl baselineUrl ++
    diffBodyMarkers primary.requestSnippet (baseline.bind HttpExchange.requestSnippet)
  if markers.isEmpty then
    (if primaryUrl.search ≠ "" then [truncate (withoutMark primaryUrl.search)] else []) ++
      ((primary.requestSnippet.filter (· ≠ "")).toList.map truncate)
  else markers

/-- `buildFromLiveProof`. -/
def buildFromLiveProof (finding : ConfirmedFinding) (target : String) (transcript : List HttpExchange) :
    Option RuleContext := do
  let primary ← transcript.getLast?
  let baseline := if 1 < transcript.length then transcript.head? else none
  let primaryUrl ← safeUrl urls primary.url target
  let baselineUrl := baseline.bind fun exchange => safeUrl urls exchange.url target
  return {
    kind := .liveRequest
    method := if primary.method ≠ "" then primary.method else "ANY"
    path := if primaryUrl.pathname ≠ "" then primaryUrl.pathname else "/"
    markers := liveMarkers primary baseline primaryUrl baselineUrl
    bodyExample := (primary.requestSnippet.filter (· ≠ "")).map truncate
    sinkKindLabel := sinkKindLabelFor finding.category
    provenanceNote := s!"a real live-DAST transcript ({transcript.length} exchange" ++
      (if transcript.length = 1 then "" else "s") ++ s!" captured against {target})" }

/-- `buildRuleContext`, for a finding with a proof. -/
def buildRuleContext (finding : ConfirmedFinding) (proof : ProofArtifact) (appMap : Option AppMap) : RuleContext :=
  match proof with
  | .live target transcript =>
    (buildFromLiveProof urls finding target transcript).getD (buildFromStaticProof finding appMap)
  | .static _ => buildFromStaticProof finding appMap

variable {urls} {finding : ConfirmedFinding} {appMap : Option AppMap}

theorem fileTarget_buildFromStaticProof :
    (buildFromStaticProof finding appMap).kind = .fileFallback →
      (buildFromStaticProof finding appMap).fileTarget.isSome := by
  unfold buildFromStaticProof
  rcases resolveRoute appMap finding with _ | route
  · exact fun _ => rfl
  · intro h
    cases h

/-- A live context is about a request. -/
theorem kind_buildFromLiveProof {target : String} {transcript : List HttpExchange} {ctx : RuleContext}
    (h : buildFromLiveProof urls finding target transcript = some ctx) : ctx.kind = .liveRequest := by
  simp only [buildFromLiveProof, Option.bind_eq_bind, Option.bind_eq_some_iff, pure, Option.some.injEq] at h
  obtain ⟨primary, -, primaryUrl, -, rfl⟩ := h
  rfl

/-- A context that is scoped to a file names the file. -/
theorem fileTarget_buildRuleContext (urls : UrlRuntime) (finding : ConfirmedFinding) (proof : ProofArtifact)
    (appMap : Option AppMap) :
    (buildRuleContext urls finding proof appMap).kind = .fileFallback →
      (buildRuleContext urls finding proof appMap).fileTarget.isSome := by
  rcases proof with proof | ⟨target, transcript⟩
  · exact fileTarget_buildFromStaticProof
  · rw [buildRuleContext]
    cases hlive : buildFromLiveProof urls finding target transcript with
    | none => exact fileTarget_buildFromStaticProof
    | some ctx =>
      intro hkind
      rw [Option.getD_some, kind_buildFromLiveProof hlive] at hkind
      cases hkind

end LiveContext

end MontrSecure
