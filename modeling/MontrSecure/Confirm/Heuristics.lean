import MontrSecure.Confirm.Scenarios

/-!
# Classification for static confirmation

`packages/confirm/src/taxonomy.ts` and the heuristics of `packages/confirm/src/heuristics`: which sinks a
category ends in, when a sink is dangerous, and the severity, impact and title of what is confirmed. A
language may add markers and patterns to those that always apply.
-/

namespace MontrSecure

/-- The token of a severity. -/
def Severity.token : Severity → String
  | info => "info"
  | low => "low"
  | medium => "medium"
  | high => "high"
  | critical => "critical"

/-- The token of an exposure. -/
def Exposure.token : Exposure → String
  | public_ => "public"
  | authed => "authed"

end MontrSecure

namespace MontrSecure.Confirm

/-- What the runtime does with texts: `toLowerCase` and `JSON.parse`, unless it throws. -/
structure TextRuntime where
  toLowerCase : String → String
  parseJson : String → Option Json

/-! ## Request parameters -/

/-- `[A-Za-z0-9_]`. -/
def isWordChar (c : Char) : Bool := c.isAlphanum || c = '_'

/-- What stands after a text. -/
def after (s : String) (cs : List Char) : Option (List Char) :=
  if s.toList.isPrefixOf cs then some (cs.drop s.toList.length) else none

/-- What stands after a quote. -/
def afterQuote : List Char → Option (List Char)
  | [] => none
  | c :: cs => if c = '\'' ∨ c = '"' then some cs else none

/-- What stands after one of some texts, where the rest goes on as `k` asks. -/
def afterOneOf (texts : List String) (k : List Char → Option (List Char)) (cs : List Char) :
    Option (List Char) :=
  texts.findSome? fun text => (after text cs).bind k

/-- A pattern whose only group is the name of a parameter: what stands before the name, and after it. -/
structure ParamPattern where
  /-- `\b` comes first. -/
  atBoundary : Bool := false
  opening : List Char → Option (List Char)
  closing : List Char → Bool := fun _ => true

namespace ParamPattern

variable (pattern : ParamPattern)

/-- The name, where the pattern matches right here. -/
def nameAt (before : Option Char) (cs : List Char) : Option String :=
  if pattern.atBoundary && before.any isWordChar then none
  else
    (pattern.opening cs).bind fun rest =>
      let name := rest.takeWhile isWordChar
      if name ≠ [] ∧ pattern.closing (rest.drop name.length) = true then some (String.ofList name)
      else none

/-- The name in the first match of a text, after the character `before`. -/
def nameIn (before : Option Char) : List Char → Option String
  | [] => pattern.nameAt before []
  | c :: cs => (pattern.nameAt before (c :: cs)).or (nameIn (some c) cs)

end ParamPattern

/-- `PARAM_PATTERNS`. -/
def basePatterns : List ParamPattern :=
  [{ opening := fun cs => (after ".get(" cs).bind afterQuote
     closing := fun cs =>
      match afterQuote cs with
      | some (')' :: _) => true
      | _ => false },
    { opening := after "searchParams." },
    { opening := after ".query." },
    { opening := after ".body." },
    { opening := after "params.", atBoundary := true },
    { opening := afterOneOf ["cookies", "cookie"] (after "."), atBoundary := true }]

/-! ## Languages -/

/-- `ResolvedHeuristics`. -/
structure ResolvedHeuristics where
  unsafeMarkers : List String := []
  safeMarkers : List String := []
  paramPatterns : List ParamPattern := []
  rawSinkKinds : List TaintSinkKind := []

/-- `ConfirmationHeuristics`: what a plugin adds, and for which languages. -/
structure ConfirmationHeuristics extends ResolvedHeuristics where
  appliesTo : List Language → Bool

/-- `typescriptHeuristics`. -/
def typescriptHeuristics : ConfirmationHeuristics where
  appliesTo languages := decide (.typescript ∈ languages ∨ .javascript ∈ languages)

/-- `pythonHeuristics`. -/
def pythonHeuristics : ConfirmationHeuristics where
  appliesTo languages := decide (.python ∈ languages)
  unsafeMarkers :=
    ["raw sql", "raw orm", "raw html", ".raw(", ".extra(", "os.system", "os.popen", "subprocess",
      "shell=true", "mark_safe", "render_template_string", "template injection", "|safe",
      "pickle.loads", "pickle.load", "yaml.load(", "marshal.loads", "ssrf", "server-side request",
      "open redirect", "path traversal"]
  safeMarkers :=
    ["bleach", "is_safe_url", "url_has_allowed_host", "yaml.safe_load", "get_object_or_404",
      "serializer.is_valid"]
  paramPatterns :=
    [{ opening := fun cs => (after "request." cs).bind
        (afterOneOf ["GET", "POST", "args", "form", "values", "query_params", "data", "files", "COOKIES",
          "cookies", "headers"] fun cs => (after ".get(" cs).bind afterQuote) },
      { opening := fun cs => (after "request." cs).bind
          (afterOneOf ["GET", "POST", "args", "form", "values", "query_params", "data", "files"]
            fun cs => (after "[" cs).bind afterQuote) }]

/-- `javaHeuristics`. -/
def javaHeuristics : ConfirmationHeuristics where
  appliesTo languages := decide (.java ∈ languages)
  unsafeMarkers :=
    ["raw sql", "string concatenation", "native query", "jpql", "createnativequery",
      "runtime.getruntime", "runtime.exec", ".exec(", "processbuilder", "os command",
      "objectinputstream", "readobject", "class.forname", "reflective class loading",
      "parseexpression", "spel expression", "sendredirect", "caller-influenced url"]
  safeMarkers :=
    ["setparameter", "criteriabuilder", "htmlutils.htmlescape", "htmlescape", "owasp encoder", "esapi",
      "policyfactory", "jsoup.clean", "@valid", "typedquery"]
  paramPatterns :=
    [{ opening := fun cs => (after "@" cs).bind
        (afterOneOf ["RequestParam", "PathVariable", "RequestHeader", "CookieValue", "RequestBody",
          "ModelAttribute"] fun cs =>
            if cs.head?.any isTrimmed then some (cs.dropWhile isTrimmed) else none) },
      { opening := fun cs => (after "get" cs).bind
          (afterOneOf ["Parameter", "ParameterValues", "Header", "Part"] fun cs =>
            (after "(" cs).bind fun cs => afterQuote (cs.dropWhile isTrimmed))
        closing := fun cs => (afterQuote cs).isSome }]

/-- `HEURISTICS`. -/
def allHeuristics : List ConfirmationHeuristics :=
  [typescriptHeuristics, pythonHeuristics, javaHeuristics]

/-- `resolveHeuristics`. -/
def resolveHeuristics (languages : List Language) : ResolvedHeuristics :=
  let active := allHeuristics.filter (·.appliesTo languages)
  { unsafeMarkers := active.flatMap (·.unsafeMarkers)
    safeMarkers := active.flatMap (·.safeMarkers)
    paramPatterns := active.flatMap (·.paramPatterns)
    rawSinkKinds := active.flatMap (·.rawSinkKinds) }

/-- `withLearnedSanitizers`. -/
def withLearnedSanitizers (toLowerCase : String → String) (base : ResolvedHeuristics)
    (learnedSanitizers : List String) : ResolvedHeuristics :=
  let markers := (learnedSanitizers.map fun m => toLowerCase (trim m)).filter fun m =>
    decide (3 ≤ Text.length m)
  { base with safeMarkers := base.safeMarkers ++ markers }

/-- `extractParam`. -/
def extractParam (extra : ResolvedHeuristics) (description : Option String) : Option String :=
  description.bind fun d =>
    if d = "" then none
    else (basePatterns ++ extra.paramPatterns).findSome? fun p => p.nameIn none d.toList

/-! ## Sinks -/

/-- `DATAFLOW_SINK_KINDS`. -/
def dataflowSinkKinds : Category → List TaintSinkKind
  | .sqlInjection => [.sqlQuery, .ormRawQuery]
  | .nosqlInjection => [.sqlQuery, .ormRawQuery]
  | .commandInjection => [.commandExec, .eval]
  | .xss => [.htmlRender, .templateRender, .httpResponse]
  | .ssrf => [.httpClient]
  | .pathTraversal => [.fsRead, .fsWrite]
  | .openRedirect => [.redirect]
  | .insecureDeserialization => [.deserialize]
  | .xxe => [.deserialize]
  | .hardcodedSecret | .vulnerableDependency | .permissiveCors | .missingSecurityHeaders | .insecureCookie
  | .weakCrypto | .brokenAccessControl | .brokenAuthentication | .csrf | .sensitiveDataExposure
  | .insufficientLogging | .idor | .massAssignment | .rateLimitMissing | .promptInjection
  | .insecureConfiguration | .other => []

/-- `isDataFlowConfirmable`. -/
def isDataFlowConfirmable (category : Category) : Bool := !(dataflowSinkKinds category).isEmpty

/-- `RAW_SINK_KINDS`. -/
def rawSinkKinds : List TaintSinkKind :=
  [.ormRawQuery, .commandExec, .eval, .deserialize, .htmlRender, .templateRender]

/-- `UNSAFE_MARKERS`. -/
def unsafeMarkers : List String :=
  ["unsafe", "queryrawunsafe", "executerawunsafe", "dangerouslysetinnerhtml", "innerhtml", "$\x7b",
    "eval(", "exec(", "child_process", "string interpolation", "interpolat", "concat"]

/-- `SAFE_MARKERS`. -/
def safeMarkers : List String :=
  ["parameterized", "parameterised", "prepared", "sanitiz", "sanitis", "escap", "validated", "allowlist",
    "whitelist", "encoded", "dompurify", "findmany", "findunique", "findfirst", "where:", "placeholder",
    "bound param"]

/-- `SinkAssessment`. -/
structure SinkAssessment where
  dangerous : Bool
  sanitizer : Option String := none
  reason : String

/-- `assessSink`. -/
def assessSink (toLowerCase : String → String) (extra : ResolvedHeuristics) (sink : TaintSink) :
    SinkAssessment :=
  let d := toLowerCase (sink.description.getD "")
  let unsafeMarker := (unsafeMarkers ++ extra.unsafeMarkers).find? (includes d)
  let safeMarker := (safeMarkers ++ extra.safeMarkers).find? (includes d)
  match unsafeMarker, safeMarker with
  | some m, none => { dangerous := true, reason := s!"unsanitized sink construct (\"{m}\")" }
  | none, some m =>
    { dangerous := false, sanitizer := some m
      reason := s!"sink is sanitized/parameterized (\"{m}\")" }
  | some _, some m =>
    { dangerous := false, sanitizer := some m
      reason := "ambiguous sink (both unsafe and safe markers); treated as sanitized (fail-safe)" }
  | none, none =>
    if sink.kind ∈ rawSinkKinds ++ extra.rawSinkKinds then
      { dangerous := true
        reason := s!"raw sink kind \"{sink.kind.name}\" with no sanitizer on the path" }
    else
      { dangerous := false
        reason := s!"sink kind \"{sink.kind.name}\" shows no evidence of an unsanitized construct " ++
          "(fail-safe)" }

/-! ## Findings -/

/-- `CategoryTaxonomyEntry`. -/
structure CategoryTaxonomyEntry where
  title : String
  cwe : List String
  owasp : OwaspId

/-- `CATEGORY_TAXONOMY`. -/
def categoryTaxonomy : Category → CategoryTaxonomyEntry
  | .sqlInjection => ⟨"SQL Injection", ["CWE-89"], .a03⟩
  | .nosqlInjection => ⟨"NoSQL Injection", ["CWE-943"], .a03⟩
  | .commandInjection => ⟨"OS Command Injection", ["CWE-78"], .a03⟩
  | .xss => ⟨"Cross-Site Scripting", ["CWE-79"], .a03⟩
  | .ssrf => ⟨"Server-Side Request Forgery", ["CWE-918"], .a10⟩
  | .pathTraversal => ⟨"Path Traversal", ["CWE-22"], .a01⟩
  | .insecureDeserialization => ⟨"Insecure Deserialization", ["CWE-502"], .a08⟩
  | .hardcodedSecret => ⟨"Use of Hard-coded Credentials", ["CWE-798"], .a07⟩
  | .vulnerableDependency => ⟨"Vulnerable / Outdated Component", ["CWE-1104", "CWE-937"], .a06⟩
  | .permissiveCors => ⟨"Permissive CORS", ["CWE-942"], .a05⟩
  | .missingSecurityHeaders => ⟨"Missing Security Headers", ["CWE-693"], .a05⟩
  | .insecureCookie => ⟨"Insecure Cookie Configuration", ["CWE-614", "CWE-1004"], .a05⟩
  | .weakCrypto => ⟨"Weak Cryptography", ["CWE-327"], .a02⟩
  | .brokenAccessControl => ⟨"Broken Access Control", ["CWE-284"], .a01⟩
  | .brokenAuthentication => ⟨"Broken Authentication", ["CWE-287"], .a07⟩
  | .openRedirect => ⟨"Open Redirect", ["CWE-601"], .a01⟩
  | .xxe => ⟨"XML External Entities", ["CWE-611"], .a05⟩
  | .csrf => ⟨"Cross-Site Request Forgery", ["CWE-352"], .a01⟩
  | .sensitiveDataExposure => ⟨"Sensitive Data Exposure", ["CWE-200"], .a02⟩
  | .insufficientLogging => ⟨"Insufficient Logging & Monitoring", ["CWE-778"], .a09⟩
  | .idor => ⟨"Insecure Direct Object Reference", ["CWE-639"], .a01⟩
  | .massAssignment => ⟨"Mass Assignment", ["CWE-915"], .a08⟩
  | .rateLimitMissing => ⟨"Missing Rate Limiting", ["CWE-770"], .a04⟩
  | .promptInjection => ⟨"Prompt Injection", ["CWE-1427"], .a03⟩
  | .insecureConfiguration => ⟨"Insecure Configuration", ["CWE-16"], .a05⟩
  | .other => ⟨"Other", [], .a04⟩

/-- `BASE_SEVERITY`, and `baseSeverityForCategory`. -/
def baseSeverityForCategory : Category → Severity
  | .sqlInjection | .commandInjection | .insecureDeserialization => .critical
  | .nosqlInjection | .xss | .ssrf | .pathTraversal | .xxe | .brokenAccessControl | .brokenAuthentication
  | .idor | .hardcodedSecret | .sensitiveDataExposure | .promptInjection => .high
  | .openRedirect | .csrf | .permissiveCors | .missingSecurityHeaders | .insecureCookie | .weakCrypto
  | .vulnerableDependency | .massAssignment | .insecureConfiguration => .medium
  | .rateLimitMissing | .insufficientLogging | .other => .low

/-- One notch down. -/
def lowered : Severity → Severity
  | .info | .low => .info
  | .medium => .low
  | .high => .medium
  | .critical => .high

/-- `deriveSeverity`. -/
def deriveSeverity (category : Category) (exposure : Exposure) : Severity :=
  let base := baseSeverityForCategory category
  if exposure = .public_ ∨ base = .critical then base else lowered base

/-- `CATEGORY_IMPACT`. -/
def categoryImpact : Category → Option String
  | .sqlInjection =>
    some ("An attacker can read or modify arbitrary database contents and may escalate to write or RCE " ++
      "depending on DB privileges.")
  | .nosqlInjection =>
    some "An attacker can bypass query logic to read or alter unauthorized documents."
  | .commandInjection => some "An attacker can execute arbitrary OS commands on the host."
  | .xss =>
    some ("Arbitrary script executes in the victim's browser session, enabling session theft and " ++
      "account takeover.")
  | .ssrf =>
    some "The server can be coerced into making attacker-controlled requests to internal services."
  | .pathTraversal => some "An attacker can read or write files outside the intended directory."
  | .openRedirect =>
    some "Users can be redirected to attacker-controlled sites for phishing or token theft."
  | .insecureDeserialization =>
    some "Untrusted data is deserialized, enabling object injection or RCE."
  | .xxe => some "External-entity resolution enables file disclosure or SSRF."
  | _ => none

/-- `deriveImpact`. -/
def deriveImpact (category : Category) (exploitHypothesis : String) : String :=
  let base := (categoryImpact category).getD s!"Confirmed {(categoryTaxonomy category).title}."
  let hyp := trim exploitHypothesis
  if hyp = "" then base else s!"{base} {hyp}"

/-- `deriveTitle`. -/
def deriveTitle (category : Category) (route : Option Route) (file : String) (line : ℕ)
    (param : Option String) : String :=
  let t := (categoryTaxonomy category).title
  match route with
  | some route =>
    let p :=
      match param with
      | none | some "" => ""
      | some param => s!" ({param} parameter)"
    s!"{t} in {methodName route.method} {route.path}{p}"
  | none => s!"{t} at {file}:{line}"

end MontrSecure.Confirm
