import MontrSecure.Confirm.Scenarios
import MontrSecure.Security.SecretFormats
import MontrSecure.Text.Languages
import MontrSecure.Text.Listing

/-!
# The purple loop

`packages/confirm/src/purple-loop.ts`: a generated Sigma rule is read back and evaluated on the requests of a
transcript. The expressions of the reader match in one way only (a quote is no blank, and a backslash begins an
escape), so they are scanners.
-/

namespace MontrSecure.Purple

open Text Text.Regex
open Confirm (HttpExchange)

/-! ## Reading a rule -/

/-- The symbols that `QUOTED` and the expressions around it tell apart. -/
def marks : Marks ℕ where
  quote := unit '"'
  back := unit '\\'
  newline := unit '\n'
  blank := isSpace
  lineEnd := isLineEnd
  quote_ne_back := by decide
  blank_quote := by decide
  blank_back := by decide
  blank_newline := by decide
  lineEnd_quote := by decide
  lineEnd_back := by decide

/-- `s.replace(/ab/g, c)`. -/
def replacePair (a b c : ℕ) : List ℕ → List ℕ
  | a' :: b' :: s => if a' = a ∧ b' = b then c :: replacePair a b c s else a' :: replacePair a b c (b' :: s)
  | s => s

/-- `yamlUnquote`. -/
def yamlUnquote (raw : List ℕ) : List ℕ :=
  replacePair (unit '\\') (unit '\\') (unit '\\') (replacePair (unit '\\') (unit '"') (unit '"') raw)

/-- `extractOne`, for the expression that has the key, blanks and `QUOTED`. -/
def extractOne (content : List ℕ) (key : String) : Option (List ℕ) :=
  (search (marks.behind (units key)) content).map yamlUnquote

/-- `extractList`, for the expression that has the key, blanks and a line feed. -/
def extractList (content : List ℕ) (key : String) : List (List ℕ) :=
  (marks.listing (unit '-') (units key) content).map yamlUnquote

/-- `/\s*$/m` at the beginning of a text. -/
def endsLine (s : List ℕ) : Bool := s.all isSpace || (s.takeWhile isSpace).any isLineEnd

/-- `/\s*(.+?)\s*$/m` at the beginning of a text: the blanks are as many, the group is as short as can be. -/
def lineText (s : List ℕ) : Option (List ℕ) :=
  (List.range ((s.takeWhile isSpace).length + 1)).reverse.findSome? fun i =>
    let rest := s.drop i
    ((List.range (rest.takeWhile (!isLineEnd ·)).length).find? fun n => endsLine (rest.drop (n + 1))).map
      fun n => rest.take (n + 1)

/-- The condition of a rule. -/
def conditionOf (content : List ℕ) : List ℕ :=
  (search (fun s => (after (units "condition:") s).bind lineText) content).getD []

/-- `/category:\s*file_event/.test(content)`. -/
def isFileEvent (content : List ℕ) : Bool :=
  (search (fun s => (after (units "category:") s).bind fun rest =>
    after (units "file_event") (rest.dropWhile isSpace)) content).isSome

/-- `ParsedSigmaRule["kind"]`. -/
inductive ParsedKind where
  | fileFallback
  | route
  deriving DecidableEq

/-- `ParsedSigmaRule`. -/
structure ParsedSigmaRule where
  kind : ParsedKind
  fileTargetContains : Option (List ℕ) := none
  pathStartsWith : Option (List ℕ) := none
  method : Option (List ℕ) := none
  queryContains : List (List ℕ) := []
  bodyContains : List (List ℕ) := []
  condition : List ℕ

/-- `parseSigmaRule`. -/
def parseSigmaRule (content : List ℕ) : ParsedSigmaRule :=
  let condition := conditionOf content
  if isFileEvent content then
    { kind := .fileFallback
      fileTargetContains := extractOne content "TargetFilename|contains:"
      condition }
  else
    { kind := .route
      pathStartsWith := extractOne content "cs-uri-stem|startswith:"
      method := extractOne content "cs-method:"
      queryContains := extractList content "cs-uri-query|contains:"
      bodyContains := extractList content "cs-body|contains:"
      condition }

example : conditionOf (units "\n    condition:  selection_route \nfalsepositives:") = units "selection_route" := by
  decide +kernel

section

variable {content : List ℕ}

/-- A rule that names the file event is read as one for a file. -/
theorem parseSigmaRule_file (h : isFileEvent content = true) :
    (parseSigmaRule content).kind = .fileFallback ∧
      (parseSigmaRule content).fileTargetContains = extractOne content "TargetFilename|contains:" := by
  rw [parseSigmaRule, if_pos h]
  exact ⟨rfl, rfl⟩

/-- Any other rule is read as one for a route. -/
theorem parseSigmaRule_route (h : isFileEvent content = false) :
    (parseSigmaRule content).kind = .route ∧
      (parseSigmaRule content).pathStartsWith = extractOne content "cs-uri-stem|startswith:" ∧
      (parseSigmaRule content).method = extractOne content "cs-method:" ∧
      (parseSigmaRule content).queryContains = extractList content "cs-uri-query|contains:" ∧
      (parseSigmaRule content).bodyContains = extractList content "cs-body|contains:" := by
  rw [parseSigmaRule, if_neg (Bool.eq_false_iff.mp h)]
  exact ⟨rfl, rfl, rfl, rfl, rfl⟩

end

/-! ## Evaluating a rule -/

/-- `new URL(url)`, as far as it is used. -/
structure RequestUrl where
  pathname : String
  search : String

/-- What is used from the runtime; `decodeURIComponent` and `new URL` throw for some texts. -/
structure PurpleRuntime where
  toLowerCase : List ℕ → List ℕ
  toUpperCase : List ℕ → List ℕ
  decodeURIComponent : List ℕ → Option (List ℕ)
  parseUrl : String → Option RequestUrl

variable (rt : PurpleRuntime)

/-- `EvaluableRequest`. -/
structure EvaluableRequest where
  method : String
  url : String
  bodySnippet : Option String := none

/-- `SigmaEvalOutcome`. -/
structure SigmaEvalOutcome where
  fired : Bool
  matchedFields : List String
  reason : List ℕ

/-- `/^\[[^\]]+\]$/.test(seg)`. -/
def isBracketed (seg : List ℕ) : Bool :=
  seg.head? = some (unit '[') && seg.getLast? = some (unit ']') && 3 ≤ seg.length &&
    (seg.tail.dropLast).all (· ≠ unit ']')

/-- `/^:[A-Za-z0-9_]+$/.test(seg)`. -/
def isColoned (seg : List ℕ) : Bool := seg.head? = some (unit ':') && seg.tail ≠ [] && seg.tail.all isWord

/-- The expression of a segment; every character with a meaning is escaped in a literal one. -/
def segmentRegex (seg : List ℕ) : Regex ℕ :=
  if isBracketed seg || isColoned seg then plus (sym fun c => c ≠ unit '/') else word seg

/-- The expressions of the segments, with slashes between them. -/
def segmentsRegex : List (List ℕ) → Regex ℕ
  | [] => eps
  | [seg] => segmentRegex seg
  | seg :: segs => seq (segmentRegex seg) (seq (word [unit '/']) (segmentsRegex segs))

/-- `pathMatchesStartsWith`. -/
def pathMatchesStartsWith (pattern actualPath : List ℕ) : Bool :=
  test (seq (look fun before _ => before.isNone) (segmentsRegex (pattern.splitOn (unit '/')))) actualPath

/-- `containsMarker`. -/
def containsMarker (haystack marker : List ℕ) : Bool :=
  (rt.toLowerCase haystack).tails.any fun t => (rt.toLowerCase marker).isPrefixOf t

/-- The route of a rule, as the reasons put it. -/
def routeText (methodPinned : Bool) : List ℕ := units "route" ++ if methodPinned then units "+method" else []

/-- What `evaluateSigmaRule` does once the URL of the request has been taken apart. -/
def evaluateRequest (parsed : ParsedSigmaRule) (method : List ℕ) (pathname queryString bodyString : List ℕ) :
    SigmaEvalOutcome :=
  let condition := units " (condition: \"" ++ parsed.condition ++ units "\")"
  let routeMatched := parsed.pathStartsWith.any fun pattern => pathMatchesStartsWith pattern pathname
  let methodPinned := parsed.method.isSome
  let methodMatched := parsed.method.all fun m => rt.toUpperCase m = rt.toUpperCase method
  let routeFields := ["cs-uri-stem"] ++ if methodPinned then ["cs-method"] else []
  if !routeMatched then
    { fired := false
      matchedFields := []
      reason := units "rule requires a path starting with \"" ++ parsed.pathStartsWith.getD (units "undefined") ++
        units "\" — this request's path was \"" ++ pathname ++ units "\", which does not match" }
  else if !methodMatched then
    { fired := false
      matchedFields := ["cs-uri-stem"]
      reason := units "rule requires method " ++ parsed.method.getD (units "undefined") ++
        units " at this path — this request used " ++ method }
  else if ¬(0 < parsed.queryContains.length ∨ 0 < parsed.bodyContains.length) then
    { fired := true
      matchedFields := routeFields ++ ["condition:selection_route"]
      reason := routeText methodPinned ++
        units " matched and this rule has no payload-marker condition (condition: \"" ++ parsed.condition ++
        units "\")" }
  else
    let queryHit := parsed.queryContains.find? (containsMarker rt queryString)
    let bodyHit := parsed.bodyContains.find? (containsMarker rt bodyString)
    -- An empty marker would be falsy here, but no marker of a list is empty.
    let fields := routeFields ++ (if queryHit.any (· ≠ []) then ["cs-uri-query"] else []) ++
      if bodyHit.any (· ≠ []) then ["cs-body"] else []
    if queryHit.any (· ≠ []) ∨ bodyHit.any (· ≠ []) then
      { fired := true
        matchedFields := fields
        reason := routeText methodPinned ++ units " matched, and payload marker \"" ++
          ((queryHit.or bodyHit).getD []) ++ units "\" was found in the " ++
          (if queryHit.any (· ≠ []) then units "query string" else units "request body") ++ condition }
    else
      let bodyGap :=
        if 0 < parsed.bodyContains.length ∧ bodyString = [] then
          units (" — note: this exchange's RedTeamStep defined no request body (RedTeamStep.body was unset for " ++
            "this step), so a body-only marker cannot match against it; a step with a body would be evaluated " ++
            "against it (see scenarios.ts's runScenario)")
        else []
      { fired := false
        matchedFields := fields
        reason := routeText methodPinned ++ units " matched, but none of this rule's payload markers [" ++
          (units ", ").intercalate (parsed.queryContains ++ parsed.bodyContains) ++
          units "] were found in the query string or body" ++ bodyGap ++ condition }

/-- `evaluateSigmaRule`. -/
def evaluateSigmaRule (parsed : ParsedSigmaRule) (request : EvaluableRequest) : SigmaEvalOutcome :=
  if parsed.kind = .fileFallback then
    { fired := false
      matchedFields := []
      reason := units "rule matches file-system telemetry (TargetFilename contains \"" ++
        parsed.fileTargetContains.getD [] ++ units ("\") — an HTTP scenario transcript carries no file-event " ++
          "signal to evaluate this against") }
  else
    match rt.parseUrl request.url with
    | none =>
      { fired := false
        matchedFields := []
        reason := units s!"scenario request URL \"{request.url}\" could not be parsed as a URL" }
    | some url =>
      let search := units url.search
      let rawQuery := if search.head? = some (unit '?') then search.tail else search
      -- The raw query is used where it cannot be decoded.
      let queryString := (rt.decodeURIComponent rawQuery).getD rawQuery
      evaluateRequest rt parsed (units request.method) (units url.pathname) queryString
        (units (request.bodySnippet.getD ""))

/-! ## Paths -/

/-- What a segment of a path stands for. -/
def segmentLanguage (seg : List ℕ) : FormalLanguage ℕ :=
  if isBracketed seg || isColoned seg then properWordsOf (fun c => c ≠ unit '/') else {seg}

/-- What a path stands for. -/
def segmentsLanguage : List (List ℕ) → FormalLanguage ℕ
  | [] => 1
  | [seg] => segmentLanguage seg
  | seg :: segs => segmentLanguage seg * ({[unit '/']} * segmentsLanguage segs)

theorem spells_segment (seg : List ℕ) : (segmentRegex seg).Spells (segmentLanguage seg) := by
  unfold segmentRegex segmentLanguage
  split
  · exact spells_plus_sym
  · exact spells_word seg

theorem spells_segments (segs : List (List ℕ)) : (segmentsRegex segs).Spells (segmentsLanguage segs) := by
  induction segs with
  | nil => exact spells_eps
  | cons seg segs ih =>
    cases segs with
    | nil => exact spells_segment seg
    | cons seg' segs =>
      exact spells_seq (spells_segment seg) (spells_seq (spells_word _) ih)

theorem pathMatchesStartsWith_iff (pattern path : List ℕ) :
    pathMatchesStartsWith pattern path = true ↔
      ∃ w ∈ segmentsLanguage (pattern.splitOn (unit '/')), w <+: path :=
  test_front_iff (spells_segments _) path

/-- A longer path matches too. -/
theorem pathMatchesStartsWith_append {pattern path : List ℕ} (h : pathMatchesStartsWith pattern path = true)
    (more : List ℕ) : pathMatchesStartsWith pattern (path ++ more) = true := by
  obtain ⟨w, hw, hprefix⟩ := (pathMatchesStartsWith_iff pattern path).mp h
  exact (pathMatchesStartsWith_iff pattern _).mpr ⟨w, hw, hprefix.trans (List.prefix_append path more)⟩

/-! ## What fires -/

/-- A marker of a list is in a text. -/
def hit (markers : List (List ℕ)) (text : List ℕ) : Prop :=
  (markers.find? (containsMarker rt text)).any (· ≠ []) = true

/-- A rule fires on a request whose path, method and payload it asks for. -/
theorem fired_evaluateRequest_iff (parsed : ParsedSigmaRule) (method pathname queryString bodyString : List ℕ) :
    (evaluateRequest rt parsed method pathname queryString bodyString).fired = true ↔
      parsed.pathStartsWith.any (fun pattern => pathMatchesStartsWith pattern pathname) = true ∧
      parsed.method.all (fun m => rt.toUpperCase m = rt.toUpperCase method) = true ∧
      (parsed.queryContains = [] ∧ parsed.bodyContains = [] ∨
        hit rt parsed.queryContains queryString ∨ hit rt parsed.bodyContains bodyString) := by
  unfold evaluateRequest
  dsimp only
  split
  · rename_i hroute
    simp only [Bool.not_eq_true'] at hroute
    simp [hroute]
  · rename_i hroute
    simp only [Bool.not_eq_true', Bool.not_eq_false] at hroute
    split
    · rename_i hmethod
      simp only [Bool.not_eq_true'] at hmethod
      simp [hmethod]
    · rename_i hmethod
      simp only [Bool.not_eq_true', Bool.not_eq_false] at hmethod
      rw [hroute, hmethod]
      split
      · rename_i hpayload
        simp only [List.length_pos_iff, not_or, not_not] at hpayload
        simp [hpayload]
      · rename_i hpayload
        have hnot : ¬(parsed.queryContains = [] ∧ parsed.bodyContains = []) := by
          rintro ⟨hquery, hbody⟩
          simp [hquery, hbody] at hpayload
        split
        · rename_i hhit
          simp only [true_and, hnot, false_or, true_iff]
          exact hhit
        · rename_i hhit
          simp only [true_and, hnot, false_or, Bool.false_eq_true, false_iff]
          exact hhit

end MontrSecure.Purple
