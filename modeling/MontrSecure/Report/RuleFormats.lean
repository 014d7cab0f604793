import MontrSecure.Confirm.PurpleLoop
import MontrSecure.Js.Stringify
import MontrSecure.Report.SigmaRules

/-!
# Three formats of a rule

`packages/report/src/detection-rules/otel.ts` and `siem.ts`: the OTTL condition and the SPL query of a rule, as texts
and as what they match. They compare the path of a request for equality, where the Sigma rule asks for a prefix
(`not_sameRequests`).
-/

namespace MontrSecure.Formats

open Text
open Sigma (asciiLower asciiRuntime asciiUpper RuleRuntime buildSigmaRule)
open Purple (PurpleRuntime evaluateRequest parseSigmaRule)

/-! ## Requests -/

/-- An HTTP request as it is logged, with its query decoded. -/
structure HttpRequest where
  method : String
  path : String
  query : String
  body : String

/-- The fields that the rules look at. -/
inductive Field where
  | path
  | method
  | query
  | body

def HttpRequest.get (req : HttpRequest) : Field → String
  | .path => req.path
  | .method => req.method
  | .query => req.query
  | .body => req.body

/-- `regexEscape`. -/
def regexEscape (s : String) : String :=
  String.ofList (s.toList.flatMap fun c =>
    if c ∈ ['.', '*', '+', '?', '^', '$', '\x7b', '\x7d', '(', ')', '|', '[', ']', '\\'] then ['\\', c] else [c])

/-- `markerRegex`. -/
def markerRegex (markers : List String) : String := "(?i)(" ++ "|".intercalate (markers.map regexEscape) ++ ")"

/-- A match of `markerRegex`: the expression spells the markers, in any case. -/
def isMatch (fold : Char → Char) (markers : List String) (text : String) : Bool :=
  markers.any fun m => (text.toList.map fold).tails.any fun t => (m.toList.map fold).isPrefixOf t

/-! ## OTTL -/

/-- An OTTL condition: equations, and matches of which one is enough, if there are any. -/
structure OttlCondition where
  clauses : List (Field × String)
  payload : List (Field × List String)

def otelAttribute : Field → String
  | .path => "url.path"
  | .method => "http.request.method"
  | .query => "url.query"
  | .body => "http.request.body.content"

/-- `JSON.stringify` of a text. -/
def jsonText (s : String) : String := String.ofList (quote s)

def OttlCondition.text (c : OttlCondition) : String :=
  let routeClause := " and ".intercalate (c.clauses.map fun clause =>
    s!"attributes[\"{otelAttribute clause.1}\"] == {jsonText clause.2}")
  if c.payload.isEmpty then
    "// OTTL condition (span or log_record) — route match only, no payload markers available.\n" ++ routeClause
  else
    let payloadClause := " or ".intercalate (c.payload.map fun clause =>
      s!"IsMatch(attributes[\"{otelAttribute clause.1}\"], {jsonText (markerRegex clause.2)})")
    "// OTTL condition (span or log_record) — evaluated by an OpenTelemetry Collector filter/transform processor.\n" ++
      s!"({routeClause}) and ({payloadClause})"

def OttlCondition.holds (fold : Char → Char) (c : OttlCondition) (req : HttpRequest) : Bool :=
  (c.clauses.all fun clause => req.get clause.1 = clause.2) &&
    (c.payload.isEmpty || c.payload.any fun clause => isMatch fold clause.2 (req.get clause.1))

/-- The condition that `buildOtelQuery` writes for a route. -/
def otelCondition (ctx : RuleContext) : OttlCondition where
  clauses := (.path, ctx.path) :: if ctx.method ≠ "ANY" then [(.method, ctx.method)] else []
  payload := if ctx.markers.length = 0 then [] else [(.query, ctx.markers), (.body, ctx.markers)]

/-- `buildOtelQuery`. -/
def buildOtelQuery (ctx : RuleContext) : String :=
  if ctx.kind = .fileFallback then
    "// OTTL condition (log_record) — file/config-class finding, no HTTP route.\n" ++
      "IsMatch(attributes[\"log.file.path\"], " ++ jsonText ("(?i)" ++ regexEscape (ctx.fileTarget.getD "")) ++ ")"
  else (otelCondition ctx).text

/-! ## SPL -/

/-- An SPL query: filters, and a match of the query or the body unless there are no markers. -/
structure SplQuery where
  filters : List (Field × String)
  markers : List String

def splField : Field → String
  | .path => "uri_path"
  | .method => "method"
  | .query => "uri_query"
  | .body => "body"

/-- `splQuote`. -/
def splQuote (s : String) : String :=
  "\"" ++ String.ofList (s.toList.flatMap fun c => if c = '\\' ∨ c = '"' then ['\\', c] else [c]) ++ "\""

/-- The value of a filter; a star stands for any text. -/
def wildcardMatch : List Char → List Char → Bool
  | [], text => text.isEmpty
  | '*' :: pattern, text => text.tails.any (wildcardMatch pattern)
  | c :: pattern, text => text.head? = some c && wildcardMatch pattern text.tail

def SplQuery.text (q : SplQuery) : String :=
  let filters := q.filters.map fun f => splField f.1 ++ "=" ++ splQuote f.2
  let base := "index=web sourcetype=access_combined " ++ " ".intercalate filters
  if q.markers.length = 0 then base
  else
    let pattern := splQuote (markerRegex q.markers)
    "\n".intercalate [base,
      s!"| eval montr_payload_match=if(match(uri_query, {pattern}) OR match(body, {pattern}), 1, 0)",
      "| where montr_payload_match=1"]

def SplQuery.holds (fold : Char → Char) (q : SplQuery) (req : HttpRequest) : Bool :=
  (q.filters.all fun f => wildcardMatch f.2.toList (req.get f.1).toList) &&
    (q.markers.length = 0 || isMatch fold q.markers req.query || isMatch fold q.markers req.body)

/-- The query that `buildSiemQuery` writes for a route. -/
def siemSearch (ctx : RuleContext) : SplQuery where
  filters := (.path, ctx.path) :: if ctx.method ≠ "ANY" then [(.method, ctx.method)] else []
  markers := ctx.markers

/-- `buildSiemQuery`. -/
def buildSiemQuery (ctx : RuleContext) : String :=
  if ctx.kind = .fileFallback then
    "index=file_integrity sourcetype=file_event TargetFilename=" ++ splQuote ("*" ++ ctx.fileTarget.getD "" ++ "*")
  else (siemSearch ctx).text

/-! ## The same requests -/

/-- The three formats of a rule match the same requests. -/
def SameRequests (ruleRt : RuleRuntime) (rt : PurpleRuntime) (fold : Char → Char) (finding : ConfirmedFinding)
    (ctx : RuleContext) (mitreTechniques : List String) : Prop :=
  ∀ req : HttpRequest,
    let sigma := evaluateRequest rt (parseSigmaRule (buildSigmaRule ruleRt finding ctx mitreTechniques))
      (units req.method) (units req.path) (units req.query) (units req.body)
    sigma.fired = (otelCondition ctx).holds fold req ∧
      (otelCondition ctx).holds fold req = (siemSearch ctx).holds fold req

variable {fold : Char → Char} {ctx : RuleContext}

theorem isMatch_self {m : String} {markers : List String} (h : m ∈ markers) : isMatch fold markers m = true := by
  refine List.any_eq_true.mpr ⟨m, h, List.any_eq_true.mpr ⟨m.toList.map fold, ?_, ?_⟩⟩
  · exact (List.mem_tails _ _).mpr List.suffix_rfl
  · exact List.isPrefixOf_iff_prefix.mpr List.prefix_rfl

/-- The OTTL condition asks for the path itself. -/
theorem path_of_holds {req : HttpRequest} (h : (otelCondition ctx).holds fold req = true) : req.path = ctx.path := by
  rw [OttlCondition.holds, Bool.and_eq_true, List.all_eq_true] at h
  exact of_decide_eq_true (h.1 (.path, ctx.path) List.mem_cons_self)

/-- It holds of some request. -/
theorem exists_holds (fold : Char → Char) (ctx : RuleContext) :
    ∃ req : HttpRequest, (otelCondition ctx).holds fold req = true := by
  refine ⟨{ method := ctx.method, path := ctx.path, query := ctx.markers.head?.getD "", body := "" }, ?_⟩
  rw [OttlCondition.holds, Bool.and_eq_true, List.all_eq_true]
  constructor
  · intro clause hclause
    simp only [otelCondition, List.mem_cons] at hclause
    obtain rfl | hclause := hclause
    · exact decide_eq_true rfl
    · split at hclause
      · obtain rfl := List.mem_singleton.mp hclause
        exact decide_eq_true rfl
      · cases hclause
  · rcases hmarkers : ctx.markers with _ | ⟨m, markers⟩
    · simp [otelCondition, hmarkers]
    · have hmatch : isMatch fold (m :: markers) m = true := isMatch_self List.mem_cons_self
      simp [otelCondition, hmarkers, HttpRequest.get, hmatch]

/-- A Sigma rule that fires on a request fires where the path is longer. -/
theorem fired_of_longer_path {rt : PurpleRuntime} {parsed : Purple.ParsedSigmaRule} {method path query body : List ℕ}
    (h : (evaluateRequest rt parsed method path query body).fired = true) (more : List ℕ) :
    (evaluateRequest rt parsed method (path ++ more) query body).fired = true := by
  rw [Purple.fired_evaluateRequest_iff] at h ⊢
  obtain ⟨hpath, hrest⟩ := h
  refine ⟨?_, hrest⟩
  obtain ⟨pattern, hpattern, hmatches⟩ := (Option.any_eq_true _ _).mp hpath
  exact (Option.any_eq_true _ _).mpr ⟨pattern, hpattern, Purple.pathMatchesStartsWith_append hmatches more⟩

/-- The formats of a rule never match the same requests: some request satisfies the OTTL condition, and when the Sigma
rule fires on it, it fires on longer paths too, which the condition does not accept. -/
theorem not_sameRequests (ruleRt : RuleRuntime) (rt : PurpleRuntime) (fold : Char → Char) (finding : ConfirmedFinding)
    (ctx : RuleContext) (mitreTechniques : List String) :
    ¬SameRequests ruleRt rt fold finding ctx mitreTechniques := by
  intro hsame
  obtain ⟨req, hreq⟩ := exists_holds fold ctx
  have hfired := (hsame req).1.trans hreq
  have hlonger := fired_of_longer_path hfired (units "/")
  rw [← units_append] at hlonger
  -- The same request, one slash further down.
  have hholds : (otelCondition ctx).holds fold { req with path := req.path ++ "/" } = true :=
    (hsame { req with path := req.path ++ "/" }).1.symm.trans hlonger
  have hpath : req.path ++ "/" = req.path := (path_of_holds hholds).trans (path_of_holds hreq).symm
  have hlength := congrArg (fun s : String => s.toList.length) hpath
  simp at hlength

/-- A finding on a route of an app. -/
def loginFinding : ConfirmedFinding where
  id := "cf_1"
  scanId := "scan_1"
  clientId := "acme"
  title := "Login without a check"
  category := .brokenAccessControl
  cwe := ["CWE-284"]
  owasp := some .a01
  severity := .high
  exposure := .public_
  location := { file := "app/login/route.ts", line := 12 }
  impact := "The users can be read."
  proofType := .static
  proofArtifact := .null
  createdAt := 1709210096007

/-- The rule context of a finding on a route without markers. -/
def loginContext : RuleContext where
  kind := .staticRequest
  method := "POST"
  path := "/login"
  markers := []
  provenanceNote := "a static data-flow proof (no requests fired); the route was resolved from the App Map"

/-- The digest of the seed of its rule. -/
def loginDigest : List (Fin 16) :=
  [4, 11, 0, 0, 4, 13, 12, 3, 14, 8, 2, 6, 3, 2, 13, 7, 0, 13, 2, 7, 11, 14, 0, 10, 10, 6, 15, 15, 1, 4, 7, 5, 15,
    4, 11, 15, 6, 0, 3, 3]

/-- On `POST /login/reset` the Sigma rule for `POST /login` fires, and the other two do not match. -/
theorem login_reset_differs :
    ¬SameRequests (asciiRuntime loginDigest)
      { toLowerCase := List.map asciiLower, toUpperCase := List.map asciiUpper, decodeURIComponent := some
        parseUrl := fun _ => none } Char.toLower loginFinding loginContext ["T1190"] := by
  intro hsame
  have hreset := (hsame { method := "POST", path := "/login/reset", query := "", body := "" }).1
  exact absurd hreset (by decide +kernel)

end MontrSecure.Formats
