import MontrSecure.Correlation.Taxonomy
import MontrSecure.Text.Regex
import MontrSecure.Text.Utf16

/-!
# Grounding

`packages/correlation/src/grounding.ts`: one candidate against the App Map. Is it on a registered
route, does a source reach the sink, is it corroborated, is it demoted?
-/

namespace MontrSecure

open Text

/-! ## Expressions -/

namespace Pattern

/-- `\w`. -/
def isWord (c : ℕ) : Bool :=
  unit '0' ≤ c && c ≤ unit '9' || unit 'A' ≤ c && c ≤ unit 'Z' || unit 'a' ≤ c && c ≤ unit 'z' ||
    c = unit '_'

/-- `\d`. -/
def isDigit (c : ℕ) : Bool := unit '0' ≤ c && c ≤ unit '9'

/-- `\s`. -/
def isSpace (c : ℕ) : Bool :=
  9 ≤ c && c ≤ 13 || c ∈ [0x20, 0xA0, 0x1680, 0x2028, 0x2029, 0x202F, 0x205F, 0x3000, 0xFEFF] ||
    0x2000 ≤ c && c ≤ 0x200A

/-- The lower case of an ASCII letter. -/
def lower (c : ℕ) : ℕ := if unit 'A' ≤ c && c ≤ unit 'Z' then c + 32 else c

/-- `\b`. -/
def boundary : Regex ℕ := .look fun before after => before.any isWord != after.any isWord

/-- A literal. -/
def lit (s : String) : Regex ℕ := .word (units s)

/-- A literal in lower case, under the flag `i`. -/
def litI (s : String) : Regex ℕ := .concat ((units s).map fun a => .sym fun b => lower b = a)

/-- `\w+`. -/
def wordChars : Regex ℕ := .plus (.sym isWord)

/-- `KNOWN_SANITIZER_CALL_RE`. -/
def knownSanitizerCall : Regex ℕ :=
  .concat
    [boundary,
      .oneOf
        [lit "DOMPurify.sanitize", lit "sanitizeHtml", lit "escapeHtml",
          .concat [lit "xssFilter", .opt (lit "s"), lit ".", wordChars],
          .concat
            [lit "validator.",
              .oneOf
                [lit "escape", lit "isEmail", lit "isURL", lit "isUUID", lit "isAlphanumeric",
                  lit "blacklist", lit "whitelist", lit "normalizeEmail"]],
          .concat [lit "mysql", .opt (lit "2"), lit ".escape"],
          lit "pg_escape_string", lit "encodeURIComponent", lit "parseInt", lit "Number",
          .concat
            [lit "z", .opt (lit "od"), lit ".", wordChars, lit "(",
              .star (.sym fun c => c ≠ unit '(' && c ≠ unit ')'), lit ").",
              .oneOf [lit "parse", lit "safeParse"]]],
      .star (.sym isSpace), lit "("]

/-- `CURATED_SAFE_MARKER_RE`. -/
def curatedSafeMarker : Regex ℕ :=
  .concat
    [boundary,
      .oneOf
        [.concat
            [litI "parameteri", .sym fun c => lower c = unit 's' || lower c = unit 'z', litI "ed"],
          litI "prepared", litI "sanitiz", litI "sanitis", litI "escap", litI "validated",
          litI "allowlist", litI "whitelist", litI "encoded", litI "bound param",
          litI "placeholder"],
      boundary]

/-- `[@a-z0-9/._-]`, under the flag `i`. -/
def isPackageChar (c : ℕ) : Bool :=
  isDigit c || unit 'a' ≤ lower c && lower c ≤ unit 'z' ||
    c ∈ [unit '@', unit '/', unit '.', unit '_', unit '-']

/-- `@\d` comes next. -/
def atDigit : List ℕ → Bool
  | c :: d :: _ => c = unit '@' && isDigit d
  | _ => false

/-- The group of `/([@a-z0-9/._-]+)@\d/i`: from the first place that has a match, as long as can
be. -/
def packageGroup : List ℕ → Option (List ℕ)
  | [] => none
  | c :: rest =>
    let text := c :: rest
    let run := text.takeWhile isPackageChar
    match ((List.range run.length).reverse.map (· + 1)).find? fun k => atDigit (text.drop k) with
    | some k => some (text.take k)
    | none => packageGroup rest

end Pattern

/-! ## The App Map by file -/

namespace AppMap

variable (appMap : AppMap)

/-- `routesInFile`. -/
def routesInFile (file : String) : List Route :=
  appMap.routes.filter fun route => route.handler.any fun h => h.file ≠ "" && h.file = file

/-- `sourcesInFile`. -/
def sourcesInFile (file : String) : List TaintSource :=
  appMap.taintSources.filter (·.location.file = file)

/-- `sinksInFile`. -/
def sinksInFile (file : String) : List TaintSink :=
  appMap.taintSinks.filter (·.location.file = file)

/-- `secretsInFile`. -/
def secretsInFile (file : String) : List EnvSecretSurface :=
  appMap.envSecretSurfaces.filter fun s => s.location.any (·.file = file)

/-- `entrypointsInFile`. -/
def entrypointsInFile (file : String) : List Entrypoint :=
  appMap.entrypoints.filter fun e => e.location.any (·.file = file)

/-- `flowsInFile`. -/
def flowsInFile (file : String) : List TaintFlowEdge :=
  appMap.taintFlows.filter (·.sinkLocation.file = file)

/-- `getRoute`: of several routes with an id, the map holds the last. -/
def getRoute (id : EntityId) : Option Route :=
  if id = "" then none else appMap.routes.reverse.find? (·.id = some id)

end AppMap

/-- The first of the nearest items. -/
def nearest {α : Type} (dist : α → ℕ) (items : List α) : Option α :=
  items.foldl
    (fun best item =>
      match best with
      | none => some item
      | some b => if dist item < dist b then some item else some b)
    none

/-- `Math.abs(a - b)`. -/
def lineDist (a b : ℕ) : ℕ := (a - b) + (b - a)

/-- `pickNearestRoute`. -/
def pickNearestRoute (routes : List Route) (line : ℕ) : Option Route :=
  nearest (fun route => lineDist ((route.handler.map (·.line)).getD line) line) routes

/-! ## Grounding -/

/-- `Grounding`: the verdict on one candidate. -/
structure Grounding where
  klass : FindingClass
  route : Option Route
  routeId : Option EntityId
  authState : AuthState
  exposure : Exposure
  authGate : Option String
  matchedSink : Option TaintSink
  matchedSource : Option TaintSource
  matchedSecretSurface : Option EnvSecretSurface
  matchedEntrypoint : Option Entrypoint
  matchedFlow : Option TaintFlowEdge
  sanitizerInterrupts : Bool
  taintReaches : Bool
  corroborated : Bool
  corroborationBasis : String
  demote : Bool
  demoteReason : Option String

/-- `exposureFromAuth`: public only when a public route is confirmed. -/
def exposureFromAuth (authState : AuthState) (hasRoute : Bool) : Exposure :=
  if hasRoute = true ∧ authState = .public_ then .public_ else .authed

/-- `extractPackageName`. -/
def extractPackageName (cand : CandidateFinding) : Option String :=
  (Pattern.packageGroup (units (cand.evidenceSnippet ++ " " ++ cand.title.getD ""))).map fun group =>
    String.ofList (group.map Char.ofNat)

/-- The route of a candidate: the nearest in its file, else one that a source of the file names. -/
def routeOf (cand : CandidateFinding) (appMap : AppMap) : Option Route :=
  match pickNearestRoute (appMap.routesInFile cand.location.file) cand.location.line with
  | some route => some route
  | none =>
    ((appMap.sourcesInFile cand.location.file).find? (·.routeId.isSome)).bind fun src =>
      src.routeId.bind appMap.getRoute

/-- The source on the path to the sink: one of the same route, else the first of the file. -/
def sourceOf (cand : CandidateFinding) (appMap : AppMap) (route : Option Route) :
    Option TaintSource :=
  let sourcesHere := appMap.sourcesInFile cand.location.file
  match route.bind (·.id) with
  | some id =>
    if id = "" then sourcesHere.head?
    else
      match sourcesHere.find? (·.routeId = some id) with
      | some source => some source
      | none => sourcesHere.head?
  | none => sourcesHere.head?

/-- A sanitizer or a safe marker is on the path, by its text. -/
def sanitizedByText (cand : CandidateFinding) (source : Option TaintSource)
    (sink : Option TaintSink) : Bool :=
  let sourceSinkText :=
    (source.bind (·.description)).getD "" ++ " " ++ (sink.bind (·.description)).getD ""
  let pathText := sourceSinkText ++ " " ++ cand.evidenceSnippet
  Pattern.knownSanitizerCall.test (units pathText) ||
    Pattern.curatedSafeMarker.test (units sourceSinkText)

/-- `groundCandidate`. -/
def groundCandidate (cand : CandidateFinding) (appMap : AppMap) : Grounding :=
  let klass := classifyCategory cand.category
  let file := cand.location.file
  let line := cand.location.line
  let route := routeOf cand appMap
  let matchedEntrypoint := (appMap.entrypointsInFile file).head?
  let authState := (route.map (·.authState)).getD .unknown
  let matchedSink :=
    if klass = .injection ∨ klass = .other then
      nearest (fun sink => lineDist sink.location.line line) (appMap.sinksInFile file)
    else none
  let matchedSource := if matchedSink.isSome then sourceOf cand appMap route else none
  -- A resolved flow is proof that the path is clean; the text is only asked without one.
  let matchedFlow :=
    if klass = .injection then
      nearest (fun flow => lineDist flow.sinkLocation.line line) (appMap.flowsInFile file)
    else none
  let heuristicSanitizerInterrupts :=
    klass = .injection && sanitizedByText cand matchedSource matchedSink
  let heuristicTaintReaches :=
    klass = .injection && matchedSink.isSome && matchedSource.isSome && !heuristicSanitizerInterrupts
  let sanitizerInterrupts :=
    if matchedFlow.isSome then false else klass = .injection && heuristicSanitizerInterrupts
  let taintReaches :=
    if matchedFlow.isSome then true else klass = .injection && heuristicTaintReaches
  let matchedSecretSurface :=
    if klass = .secret then
      nearest (fun s => lineDist ((s.location.map (·.line)).getD line) line)
        (appMap.secretsInFile file)
    else none
  let pkg := if klass = .dependency then extractPackageName cand else none
  let depCorroborated :=
    pkg.any fun pkg =>
      appMap.thirdPartyCalls.any fun tp =>
        includes tp.name pkg || tp.target.any fun target => includes target pkg
  let corroborated :=
    match klass with
    | .injection => matchedSink.isSome || matchedFlow.isSome || route.isSome
    | .config | .access => route.isSome || matchedEntrypoint.isSome
    | .secret => matchedSecretSurface.isSome || route.isSome
    | .dependency => depCorroborated
    | .other => route.isSome || matchedSink.isSome
  let corroborationBasis :=
    match klass with
    | .injection =>
      match matchedFlow, matchedSink, route with
      | some flow, _, _ =>
        "resolved taint flow" ++
          (match flow.throughFunction with
            | some f => if f = "" then "" else " via " ++ f
            | none => "") ++ " (" ++ flow.sinkKind.name ++ ")"
      | none, some sink, _ => "taint sink (" ++ sink.kind.name ++ ") on the App Map"
      | none, none, some route => "registered route " ++ route.path
      | none, none, none => "none"
    | .config | .access =>
      match route with
      | some route => "registered route " ++ route.path
      | none => "registered entry point"
    | .secret =>
      match matchedSecretSurface with
      | some s => "secret surface " ++ s.name
      | none => "registered route"
    | .dependency =>
      if depCorroborated then "imported/called dependency " ++ pkg.getD ""
      else "no import-graph reachability"
    | .other =>
      match route with
      | some route => "registered route " ++ route.path
      | none => "App Map surface"
  let neutralized := klass = .injection && sanitizerInterrupts
  { klass
    route
    routeId := route.bind (·.id)
    authState
    exposure := exposureFromAuth authState route.isSome
    authGate := route.bind (·.authGate)
    matchedSink
    matchedSource
    matchedSecretSurface
    matchedEntrypoint
    matchedFlow
    sanitizerInterrupts
    taintReaches
    corroborated
    corroborationBasis
    demote := !corroborated || neutralized
    demoteReason :=
      if !corroborated then
        some (if klass = .dependency then
          "vulnerable dependency is not reachable via the App Map import/third-party graph"
        else "location is not on a registered route, taint sink, or secret surface in the App Map")
      else if neutralized then
        some "a validator/sanitizer neutralizes the tainted input before it reaches the sink"
      else none }

end MontrSecure
