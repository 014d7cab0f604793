import MontrSecure.Confirm.PurpleLoop
import MontrSecure.Js.Value
import MontrSecure.Report.RuleContext
import MontrSecure.Report.Sarif
import MontrSecure.Security.SecretFormats

/-!
# Sigma rules

`packages/report/src/detection-rules/sigma.ts` and `id.ts`: the rule of a finding, line by line. Texts are the code
units of the strings.
-/

namespace MontrSecure.Sigma

open Text

/-- There are nibbles. -/
instance instNeZeroNibbles : NeZero 16 := ⟨by decide⟩

/-- What is used from the runtime: the nibbles of a digest, and the lower case of a text. -/
structure RuleRuntime where
  sha1 : String → Fin 40 → Fin 16
  toLowerCase : List ℕ → List ℕ

/-- The lower case of a letter of ASCII. -/
def asciiLower (c : ℕ) : ℕ := if unit 'A' ≤ c ∧ c ≤ unit 'Z' then c + 32 else c

/-- The upper case of a letter of ASCII. -/
def asciiUpper (c : ℕ) : ℕ := if unit 'a' ≤ c ∧ c ≤ unit 'z' then c - 32 else c

/-- The runtime for one seed and texts of ASCII. -/
def asciiRuntime (digest : List (Fin 16)) : RuleRuntime where
  sha1 _ i := digest.getD i 0
  toLowerCase := List.map asciiLower

variable (rt : RuleRuntime)

/-- The line feed. -/
abbrev newline : ℕ := unit '\n'

/-! ## Identifiers -/

/-- A digit of `toString(16)`. -/
def hexDigit (n : ℕ) : ℕ := if n < 10 then unit '0' + n else unit 'a' + (n - 10)

/-- `deterministicUuid`. -/
def deterministicUuid (seed : String) : List ℕ :=
  let hex : List ℕ := List.ofFn fun i => (rt.sha1 seed i : ℕ)
  let slice (start stop : ℕ) := ((hex.drop start).take (stop - start)).map hexDigit
  let version := unit '4' :: slice 13 16
  let variantNibble := hexDigit (((hex.drop 16).headD 0 &&& 3) ||| 8)
  let variant := variantNibble :: slice 17 20
  slice 0 8 ++ units "-" ++ slice 8 12 ++ units "-" ++ version ++ units "-" ++ variant ++ units "-" ++ slice 20 32

/-! ## The rule -/

/-- `SIGMA_LEVEL`. -/
def sigmaLevel : Severity → String
  | .info => "informational"
  | .low => "low"
  | .medium => "medium"
  | .high => "high"
  | .critical => "critical"

/-- `s.replace(/c/g, text)`. -/
def replaceUnit (c : ℕ) (text s : List ℕ) : List ℕ := s.flatMap fun d => if d = c then text else [d]

/-- `yamlQuote`. -/
def yamlQuote (s : List ℕ) : List ℕ :=
  units "\"" ++ replaceUnit (unit '"') (units "\\\"") (replaceUnit (unit '\\') (units "\\\\") s) ++ units "\""

/-- `yamlList`. -/
def yamlList (items : List (List ℕ)) (indent : String) : List ℕ :=
  [newline].intercalate (items.map fun i => units indent ++ units "- " ++ yamlQuote i)

/-- `s.replace(/^start/, "")`. -/
def dropStart (start s : List ℕ) : List ℕ := if start.isPrefixOf s then s.drop start.length else s

/-- `sigmaTags`. -/
def sigmaTags (finding : ConfirmedFinding) (mitreTechniques : List String) : List (List ℕ) :=
  [units s!"montr.category.{finding.category.name}"] ++
  finding.owasp.toList.map (fun owasp => units "attack." ++ (rt.toLowerCase (units (Sarif.owaspId owasp))).map
    fun c => if c = unit ':' || isSpace c then unit '-' else c) ++
  finding.cwe.map (fun cwe => units "cwe." ++ dropStart (units "cwe-") (rt.toLowerCase (units cwe))) ++
  mitreTechniques.map fun t => units "attack." ++ rt.toLowerCase (units t)

/-- The date of a rule: the day of the finding. -/
def ruleDate (finding : ConfirmedFinding) : List ℕ :=
  ((units (toISOString finding.createdAt)).take 10).map fun c => if c = unit '-' then unit '/' else c

/-- The description of a rule. -/
def ruleDescription (finding : ConfirmedFinding) (ctx : RuleContext) : List ℕ :=
  units s!"Auto-generated by Montr Secure (B3) from {ctx.provenanceNote}. {finding.impact}"

/-- The reference of a rule. -/
def ruleReference (finding : ConfirmedFinding) : List ℕ := units s!"montr://finding/{finding.id}"

/-- The note on false positives. -/
def falsePositives : List ℕ := units "See this rule's DetectionRule.logSignature.falseAlarmSources (B4)."

/-- The lines of a rule that is scoped to a file. -/
def fileLines (ctx : RuleContext) : List (List ℕ) :=
  [units "logsource:", units "    category: file_event", units "detection:", units "    selection:",
    units "        TargetFilename|contains: " ++ yamlQuote (units (ctx.fileTarget.getD "")),
    units "    condition: selection"]

/-- The lines of a rule for a route. -/
def routeLines (ctx : RuleContext) : List (List ℕ) :=
  [units "logsource:", units "    category: webserver", units "detection:", units "    selection_route:",
    units "        cs-uri-stem|startswith: " ++ yamlQuote (units ctx.path)] ++
  (if ctx.method ≠ "ANY" then [units "        cs-method: " ++ yamlQuote (units ctx.method)] else []) ++
  if 0 < ctx.markers.length then
    [units "    selection_payload_query:", units "        cs-uri-query|contains:",
      yamlList (ctx.markers.map units) "            ", units "    selection_payload_body:",
      units "        cs-body|contains:", yamlList (ctx.markers.map units) "            ",
      units "    condition: selection_route and 1 of selection_payload_*"]
  else [units "    condition: selection_route"]

/-- `lines` of `buildSigmaRule`. -/
def ruleLines (finding : ConfirmedFinding) (ctx : RuleContext) (mitreTechniques : List String) : List (List ℕ) :=
  [units "title: " ++ yamlQuote (units finding.title),
    units "id: " ++ deterministicUuid rt s!"sigma:{finding.id}",
    units "status: experimental",
    units "description: " ++ yamlQuote (ruleDescription finding ctx),
    units "author: \"Montr Secure\"",
    units "date: " ++ ruleDate finding,
    units "references:",
    units "    - " ++ yamlQuote (ruleReference finding)] ++
  (if ctx.kind = .fileFallback then fileLines ctx else routeLines ctx) ++
  [units "falsepositives:",
    units "    - " ++ yamlQuote falsePositives,
    units s!"level: {sigmaLevel finding.severity}",
    units "tags:",
    yamlList (sigmaTags rt finding mitreTechniques) "    "]

/-- `buildSigmaRule`. -/
def buildSigmaRule (finding : ConfirmedFinding) (ctx : RuleContext) (mitreTechniques : List String) : List ℕ :=
  [newline].intercalate (ruleLines rt finding ctx mitreTechniques) ++ [newline]

end MontrSecure.Sigma

/-!
## A rule as a document

What `buildSigmaRule` writes is a document of quoted texts: gaps of plain lines, and between them the texts of the
finding. The fields that `parseSigmaRule` reads are found in such a document behind the keys in its gaps, and behind
the texts that end in a key.
-/

namespace MontrSecure.Sigma

open Text Text.Marks
open Purple

/-! ## Quoting -/

theorem yamlQuote_eq (s : List ℕ) : yamlQuote s = marks.quote :: (marks.escape s ++ [marks.quote]) := by
  have hescape : replaceUnit (unit '"') (units "\\\"") (replaceUnit (unit '\\') (units "\\\\") s) =
      marks.escape s := by
    rw [replaceUnit, replaceUnit, List.flatMap_assoc]
    refine List.flatMap_congr fun c _ => ?_
    by_cases hback : c = unit '\\'
    · subst hback
      decide
    · by_cases hquote : c = unit '"'
      · subst hquote
        decide
      · have hplain : c ≠ marks.quote ∧ c ≠ marks.back := ⟨hquote, hback⟩
        rw [escapeSymbol_of_plain hplain, if_neg hback, List.flatMap_singleton, if_neg hquote]
  rw [yamlQuote, hescape]
  rfl

theorem replacePair_cons {a b c d : ℕ} (h : d ≠ a) (s : List ℕ) :
    replacePair a b c (d :: s) = d :: replacePair a b c s := by
  cases s with
  | nil => rfl
  | cons e s => rw [replacePair, if_neg fun h' => h h'.1]

theorem replacePair_pair (a b c : ℕ) (s : List ℕ) : replacePair a b c (a :: b :: s) = c :: replacePair a b c s := by
  rw [replacePair, if_pos ⟨rfl, rfl⟩]

theorem replacePair_cons_of_head? {a b c : ℕ} {s : List ℕ} (h : s.head? ≠ some b) :
    replacePair a b c (a :: s) = a :: replacePair a b c s := by
  cases s with
  | nil => rfl
  | cons e s => rw [replacePair, if_neg fun h' => h (congrArg some h'.2)]

theorem head?_escape_ne_quote (s : List ℕ) : (marks.escape s).head? ≠ some marks.quote := by
  cases s with
  | nil => simp [Marks.escape]
  | cons c s =>
    rw [escape_cons, escapeSymbol]
    split
    · rw [List.cons_append, List.head?_cons]
      exact fun h => marks.quote_ne_back (Option.some.inj h).symm
    · rename_i hc
      rw [List.cons_append, List.head?_cons]
      exact fun h => hc (.inl (Option.some.inj h))

/-- Unquoting undoes the escapes: first those of the quotes, then those of the backslashes. -/
theorem yamlUnquote_escape (s : List ℕ) : yamlUnquote (marks.escape s) = s := by
  have hquotes : replacePair (unit '\\') (unit '"') (unit '"') (marks.escape s) =
      s.flatMap fun c => if c = unit '\\' then [c, c] else [c] := by
    induction s with
    | nil => rfl
    | cons c s ih =>
      rw [escape_cons, List.flatMap_cons, ← ih]
      by_cases hback : c = unit '\\'
      · subst hback
        have hsymbol : marks.escapeSymbol (unit '\\') = [unit '\\', unit '\\'] := by decide
        have hhead := replacePair_cons_of_head? (a := unit '\\') (c := unit '"') (head?_escape_ne_quote s)
        rw [hsymbol, if_pos rfl, List.cons_append, List.singleton_append,
          replacePair_cons_of_head? (by rw [List.head?_cons]; decide)]
        exact congrArg _ hhead
      · by_cases hquote : c = unit '"'
        · subst hquote
          rw [if_neg (by decide)]
          exact replacePair_pair (unit '\\') (unit '"') (unit '"') (marks.escape s)
        · have hplain : c ≠ marks.quote ∧ c ≠ marks.back := ⟨hquote, hback⟩
          rw [escapeSymbol_of_plain hplain, if_neg hback]
          exact replacePair_cons hback (marks.escape s)
  rw [yamlUnquote, hquotes]
  clear hquotes
  induction s with
  | nil => rfl
  | cons c s ih =>
    rw [List.flatMap_cons]
    split
    · rename_i hback
      subst hback
      exact (replacePair_pair (unit '\\') (unit '\\') (unit '\\') _).trans (congrArg _ ih)
    · rename_i hback
      exact (replacePair_cons hback _).trans (congrArg _ ih)

theorem yamlUnquote_comp_escape : yamlUnquote ∘ marks.escape = id := funext yamlUnquote_escape

example : yamlUnquote (units "a\\\"b") = units "a\"b" := by decide +kernel

/-! ## What the reader finds -/

section

variable {pieces : List (List ℕ × List ℕ)} {last : List ℕ}

/-- A field is what stands behind the first gap or text that ends in its key. -/
theorem extractOne_document {key : String} (hkey : marks.IsKey (units key))
    (hpieces : ∀ piece ∈ pieces, marks.Plain piece.1) (hlast : marks.Plain last) :
    extractOne (marks.document pieces last) key = marks.firstBehind (units key) pieces := by
  rw [extractOne, search_document hkey hpieces hlast, Option.map_map, yamlUnquote_comp_escape, Option.map_id, id]

/-- The category of a file rule, however many blanks are in it. -/
def NamesFileEvent (text : List ℕ) : Prop :=
  ∃ blanks, (∀ c ∈ blanks, isSpace c = true) ∧ units "category:" ++ blanks ++ units "file_event" <:+: text

theorem isFileEvent_iff (content : List ℕ) : isFileEvent content = true ↔ NamesFileEvent content := by
  rw [isFileEvent, isSome_search_iff]
  constructor
  · rintro ⟨s, ⟨front, rfl⟩, hfound⟩
    obtain ⟨v, hv⟩ := Option.isSome_iff_exists.mp hfound
    simp only [Option.bind_eq_some_iff, after_eq_some_iff] at hv
    obtain ⟨rest, rfl, hrest⟩ := hv
    refine ⟨rest.takeWhile isSpace, fun c hc => List.mem_takeWhile_imp hc, front, v, ?_⟩
    calc front ++ (units "category:" ++ rest.takeWhile isSpace ++ units "file_event") ++ v
        = front ++ (units "category:" ++ (rest.takeWhile isSpace ++ (units "file_event" ++ v))) := by simp
      _ = front ++ (units "category:" ++ rest) := by rw [← hrest, List.takeWhile_append_dropWhile]
  · rintro ⟨blanks, hblanks, front, v, rfl⟩
    refine ⟨units "category:" ++ (blanks ++ (units "file_event" ++ v)), ⟨front, by simp⟩, ?_⟩
    have hdrop : (blanks ++ (units "file_event" ++ v)).dropWhile isSpace = units "file_event" ++ v := by
      rw [List.dropWhile_append_of_pos hblanks]
      exact List.dropWhile_cons_of_neg (by decide)
    rw [after_append, Option.bind_some, hdrop, after_append, Option.isSome_some]

theorem namesFileEvent_document :
    NamesFileEvent (marks.document pieces last) ↔
      (∃ piece ∈ pieces, NamesFileEvent piece.1 ∨ NamesFileEvent piece.2) ∨ NamesFileEvent last := by
  have hiff : ∀ blanks : List ℕ, (∀ c ∈ blanks, isSpace c = true) →
      (units "category:" ++ blanks ++ units "file_event" <:+: marks.document pieces last ↔
        (∃ piece ∈ pieces, units "category:" ++ blanks ++ units "file_event" <:+: piece.1 ∨
          units "category:" ++ blanks ++ units "file_event" <:+: piece.2) ∨
        units "category:" ++ blanks ++ units "file_event" <:+: last) := by
    intro blanks hblanks
    have hplain : marks.Plain (units "category:" ++ blanks ++ units "file_event") :=
      plain_append.mpr ⟨plain_append.mpr ⟨by decide, plain_of_blank hblanks⟩, by decide⟩
    exact infix_document_iff (List.append_ne_nil_of_right_ne_nil _ (by decide)) hplain
  constructor
  · rintro ⟨blanks, hblanks, hinfix⟩
    obtain ⟨piece, hpiece, hgap | htext⟩ | hlast := (hiff blanks hblanks).mp hinfix
    · exact .inl ⟨piece, hpiece, .inl ⟨blanks, hblanks, hgap⟩⟩
    · exact .inl ⟨piece, hpiece, .inr ⟨blanks, hblanks, htext⟩⟩
    · exact .inr ⟨blanks, hblanks, hlast⟩
  · rintro (⟨piece, hpiece, ⟨blanks, hblanks, hgap⟩ | ⟨blanks, hblanks, htext⟩⟩ | ⟨blanks, hblanks, hlast⟩)
    · exact ⟨blanks, hblanks, (hiff blanks hblanks).mpr (.inl ⟨piece, hpiece, .inl hgap⟩)⟩
    · exact ⟨blanks, hblanks, (hiff blanks hblanks).mpr (.inl ⟨piece, hpiece, .inr htext⟩)⟩
    · exact ⟨blanks, hblanks, (hiff blanks hblanks).mpr (.inr hlast)⟩

/-- A part without one of the letters names no file event. -/
theorem not_namesFileEvent {part : List ℕ} {c : ℕ} (hc : c ∈ units "category:file_event") (h : c ∉ part) :
    ¬NamesFileEvent part := by
  rintro ⟨blanks, -, hinf⟩
  refine h (hinf.subset ?_)
  have hsplit : units "category:file_event" = units "category:" ++ units "file_event" := by decide
  rw [hsplit, List.mem_append] at hc
  simp only [List.mem_append]
  tauto

end

/-! ## A rule as a document -/

variable (rt : RuleRuntime) (finding : ConfirmedFinding) (ctx : RuleContext) (mitreTechniques : List String)

/-- Lines without texts, each with the line feed before it. -/
def plainLines (lines : List String) : List ℕ := lines.flatMap fun line => newline :: units line

/-- What stands in every rule up to the log source. -/
def headPieces : List (List ℕ × List ℕ) :=
  [(units "title: ", units finding.title),
    (plainLines ["id: "] ++ deterministicUuid rt s!"sigma:{finding.id}" ++
      plainLines ["status: experimental", "description: "], ruleDescription finding ctx),
    (plainLines ["author: "], units "Montr Secure"),
    (plainLines ["date: "] ++ ruleDate finding ++ plainLines ["references:", "    - "], ruleReference finding)]

/-- The gap before the name of the file. -/
def fileGap : List ℕ :=
  plainLines ["logsource:", "    category: file_event", "detection:", "    selection:",
    "        TargetFilename|contains: "]

/-- The gap before the path. -/
def pathGap : List ℕ :=
  plainLines ["logsource:", "    category: webserver", "detection:", "    selection_route:",
    "        cs-uri-stem|startswith: "]

/-- The gap before the method. -/
def methodGap : List ℕ := plainLines ["        cs-method: "]

/-- The method, when the rule pins one. -/
def methodPieces : List (List ℕ × List ℕ) := if ctx.method ≠ "ANY" then [(methodGap, units ctx.method)] else []

/-- The texts of a list behind the line of its key. -/
def listAt (header lead : List ℕ) : List (List ℕ) → List (List ℕ × List ℕ)
  | [] => []
  | text :: texts => (header ++ newline :: lead, text) :: marks.listPieces lead texts

/-- What the line of a marker begins with. -/
def markerLead : List ℕ := units "            " ++ units "- "

def queryHeader : List ℕ := plainLines ["    selection_payload_query:", "        cs-uri-query|contains:"]

def bodyHeader : List ℕ := plainLines ["    selection_payload_body:", "        cs-body|contains:"]

/-- What stands in every rule behind its detection. -/
def tailPieces (condition : String) : List (List ℕ × List ℕ) :=
  (plainLines [condition, "falsepositives:", "    - "], falsePositives) ::
    listAt (plainLines [s!"level: {sigmaLevel finding.severity}", "tags:"]) (units "    " ++ units "- ")
      (sigmaTags rt finding mitreTechniques)

/-- The condition of a rule for a route. -/
def routeCondition : String :=
  if 0 < ctx.markers.length then "    condition: selection_route and 1 of selection_payload_*"
  else "    condition: selection_route"

/-- The pieces of a rule that is scoped to a file. -/
def filePieces : List (List ℕ × List ℕ) :=
  headPieces rt finding ctx ++ (fileGap, units (ctx.fileTarget.getD "")) ::
    tailPieces rt finding mitreTechniques "    condition: selection"

/-- The pieces of a rule for a route. -/
def routePieces : List (List ℕ × List ℕ) :=
  headPieces rt finding ctx ++ (pathGap, units ctx.path) :: (methodPieces ctx ++
    (listAt queryHeader markerLead (ctx.markers.map units) ++
      (listAt bodyHeader markerLead (ctx.markers.map units) ++
        tailPieces rt finding mitreTechniques (routeCondition ctx))))

/-- The text of some lines: the first one, and the others behind their line feeds. -/
theorem intercalate_newline (line : List ℕ) (lines : List (List ℕ)) :
    [newline].intercalate (line :: lines) = line ++ lines.flatMap (newline :: ·) := by
  induction lines generalizing line with
  | nil => simp
  | cons line' lines ih =>
    rw [List.intercalate_cons_cons, ih, List.flatMap_cons]
    simp

theorem document_listPieces_append (lead : List ℕ) (texts : List (List ℕ)) (pieces : List (List ℕ × List ℕ))
    (last : List ℕ) :
    marks.document (marks.listPieces lead texts ++ pieces) last =
      (texts.flatMap fun text => newline :: (lead ++ yamlQuote text)) ++ marks.document pieces last := by
  induction texts with
  | nil => rfl
  | cons text texts ih =>
    have hcons : marks.document (marks.listPieces lead (text :: texts) ++ pieces) last =
        (newline :: lead) ++ marks.quote :: (marks.escape text ++
          marks.quote :: marks.document (marks.listPieces lead texts ++ pieces) last) := rfl
    rw [hcons, ih, List.flatMap_cons, yamlQuote_eq]
    simp

/-- A list as it stands in the rule. -/
theorem document_listAt {header : List ℕ} {indent : String} {texts : List (List ℕ)} (hne : texts ≠ [])
    (pieces : List (List ℕ × List ℕ)) (last : List ℕ) :
    marks.document (listAt header (units indent ++ units "- ") texts ++ pieces) last =
      header ++ (newline :: yamlList texts indent ++ marks.document pieces last) := by
  obtain ⟨text, texts, rfl⟩ := List.exists_cons_of_ne_nil hne
  have hcons : marks.document (listAt header (units indent ++ units "- ") (text :: texts) ++ pieces) last =
      (header ++ newline :: (units indent ++ units "- ")) ++ marks.quote :: (marks.escape text ++
        marks.quote :: marks.document (marks.listPieces (units indent ++ units "- ") texts ++ pieces) last) := rfl
  rw [hcons, document_listPieces_append, yamlList, List.map_cons, intercalate_newline, yamlQuote_eq,
    List.flatMap_map]
  simp

theorem sigmaTags_ne_nil : sigmaTags rt finding mitreTechniques ≠ [] := by
  simp [sigmaTags]

variable {rt finding ctx mitreTechniques}

/-- The lines before the log source. -/
def headLines (rt : RuleRuntime) (finding : ConfirmedFinding) (ctx : RuleContext) : List (List ℕ) :=
  [units "id: " ++ deterministicUuid rt s!"sigma:{finding.id}", units "status: experimental",
    units "description: " ++ yamlQuote (ruleDescription finding ctx), units "author: \"Montr Secure\"",
    units "date: " ++ ruleDate finding, units "references:", units "    - " ++ yamlQuote (ruleReference finding)]

theorem document_headPieces (last : List ℕ) :
    marks.document (headPieces rt finding ctx) last =
      units "title: " ++ yamlQuote (units finding.title) ++
        ((headLines rt finding ctx).flatMap (newline :: ·) ++ last) := by
  have hauthor : units "author: \"Montr Secure\"" = units "author: " ++ yamlQuote (units "Montr Secure") := by
    decide +kernel
  rw [headPieces, headLines, hauthor]
  generalize deterministicUuid rt _ = uuid
  generalize ruleDate finding = date
  simp only [document, plainLines, yamlQuote_eq, List.flatMap_cons, List.flatMap_nil, List.append_assoc,
    List.cons_append, List.nil_append, List.append_nil]

theorem document_tailPieces (condition : String) :
    marks.document (tailPieces rt finding mitreTechniques condition) [newline] =
      [units condition, units "falsepositives:", units "    - " ++ yamlQuote falsePositives,
        units s!"level: {sigmaLevel finding.severity}", units "tags:",
        yamlList (sigmaTags rt finding mitreTechniques) "    "].flatMap (newline :: ·) ++ [newline] := by
  have htags : marks.document (listAt (plainLines [s!"level: {sigmaLevel finding.severity}", "tags:"])
      (units "    " ++ units "- ") (sigmaTags rt finding mitreTechniques) ++ []) [newline] = _ :=
    document_listAt (sigmaTags_ne_nil rt finding mitreTechniques) [] [newline]
  rw [List.append_nil] at htags
  rw [tailPieces, document, htags]
  simp only [document, plainLines, yamlQuote_eq, List.flatMap_cons, List.flatMap_nil,
    List.append_assoc, List.cons_append, List.nil_append, List.append_nil]

theorem document_fileGap (pieces : List (List ℕ × List ℕ)) (text last : List ℕ) :
    marks.document ((fileGap, text) :: pieces) last =
      [units "logsource:", units "    category: file_event", units "detection:", units "    selection:",
        units "        TargetFilename|contains: " ++ yamlQuote text].flatMap (newline :: ·) ++
        marks.document pieces last := by
  simp only [document, fileGap, plainLines, yamlQuote_eq, List.flatMap_cons, List.flatMap_nil, List.append_assoc,
    List.cons_append, List.nil_append, List.append_nil]

theorem document_pathGap (pieces : List (List ℕ × List ℕ)) (text last : List ℕ) :
    marks.document ((pathGap, text) :: pieces) last =
      [units "logsource:", units "    category: webserver", units "detection:", units "    selection_route:",
        units "        cs-uri-stem|startswith: " ++ yamlQuote text].flatMap (newline :: ·) ++
        marks.document pieces last := by
  simp only [document, pathGap, plainLines, yamlQuote_eq, List.flatMap_cons, List.flatMap_nil, List.append_assoc,
    List.cons_append, List.nil_append, List.append_nil]

theorem document_methodPieces (pieces : List (List ℕ × List ℕ)) (last : List ℕ) :
    marks.document (methodPieces ctx ++ pieces) last =
      (if ctx.method ≠ "ANY" then [units "        cs-method: " ++ yamlQuote (units ctx.method)] else []).flatMap
        (newline :: ·) ++ marks.document pieces last := by
  unfold methodPieces
  split
  · simp only [document, methodGap, plainLines, yamlQuote_eq, List.flatMap_cons, List.flatMap_nil,
      List.append_assoc, List.cons_append, List.nil_append, List.append_nil]
  · rfl

/-- A rule that is scoped to a file. -/
theorem buildSigmaRule_file (hkind : ctx.kind = .fileFallback) :
    buildSigmaRule rt finding ctx mitreTechniques =
      marks.document (filePieces rt finding ctx mitreTechniques) [newline] := by
  rw [filePieces, document_append, document_headPieces, document_fileGap, document_tailPieces, buildSigmaRule,
    ruleLines, if_pos hkind, List.append_assoc, List.cons_append, intercalate_newline, List.append_assoc]
  simp only [headLines, fileLines, List.flatMap_cons, List.flatMap_nil, List.append_assoc, List.cons_append,
    List.nil_append, List.append_nil]

/-- A rule for a route. -/
theorem buildSigmaRule_route (hkind : ctx.kind ≠ .fileFallback) :
    buildSigmaRule rt finding ctx mitreTechniques =
      marks.document (routePieces rt finding ctx mitreTechniques) [newline] := by
  have hlists : marks.document (listAt queryHeader markerLead (ctx.markers.map units) ++
        (listAt bodyHeader markerLead (ctx.markers.map units) ++
          tailPieces rt finding mitreTechniques (routeCondition ctx))) [newline] =
      (if 0 < ctx.markers.length then
        [units "    selection_payload_query:", units "        cs-uri-query|contains:",
          yamlList (ctx.markers.map units) "            ", units "    selection_payload_body:",
          units "        cs-body|contains:", yamlList (ctx.markers.map units) "            ",
          units "    condition: selection_route and 1 of selection_payload_*"]
      else [units "    condition: selection_route"]).flatMap (newline :: ·) ++
        ([units "falsepositives:", units "    - " ++ yamlQuote falsePositives,
          units s!"level: {sigmaLevel finding.severity}", units "tags:",
          yamlList (sigmaTags rt finding mitreTechniques) "    "].flatMap (newline :: ·) ++ [newline]) := by
    unfold routeCondition
    split
    · rename_i hmarkers
      have hne : ctx.markers.map units ≠ [] := by simpa using List.length_pos_iff.mp hmarkers
      rw [markerLead, document_listAt hne, document_listAt hne, document_tailPieces, queryHeader, bodyHeader]
      simp only [plainLines, List.flatMap_cons, List.flatMap_nil, List.append_assoc, List.cons_append,
        List.append_nil]
    · rename_i hmarkers
      have hnil : ctx.markers = [] := by simpa using hmarkers
      rw [hnil, List.map_nil, listAt, listAt, List.nil_append, List.nil_append, document_tailPieces]
      simp only [List.flatMap_cons, List.flatMap_nil, List.append_assoc, List.cons_append, List.append_nil]
  rw [routePieces, document_append, document_headPieces, document_pathGap, document_methodPieces, hlists,
    buildSigmaRule, ruleLines, if_neg hkind, List.append_assoc, List.cons_append, intercalate_newline,
    List.append_assoc]
  simp only [headLines, routeLines, List.flatMap_append, List.flatMap_cons, List.flatMap_nil, List.append_assoc,
    List.cons_append, List.nil_append, List.append_nil]

/-! ## Identifiers and dates -/

/-- Not a quote or a backslash, and neither a symbol that every key of a list has nor one that `category` has. -/
def IsTame (c : ℕ) : Prop := c ∉ [unit '"', unit '\\', unit '|', unit 'y']

instance (c : ℕ) : Decidable (IsTame c) := inferInstanceAs (Decidable (c ∉ _))

def Tame (w : List ℕ) : Prop := ∀ c ∈ w, IsTame c

instance (w : List ℕ) : Decidable (Tame w) := inferInstanceAs (Decidable (∀ c ∈ w, _))

theorem tame_append {v w : List ℕ} : Tame (v ++ w) ↔ Tame v ∧ Tame w := List.forall_mem_append

theorem tame_cons {c : ℕ} {w : List ℕ} : Tame (c :: w) ↔ IsTame c ∧ Tame w := List.forall_mem_cons

theorem tame_hexDigits {digits : List ℕ} (h : ∀ d ∈ digits, d < 16) : Tame (digits.map hexDigit) := by
  have hdigit : ∀ d < 16, IsTame (hexDigit d) := by decide
  intro c hc
  obtain ⟨d, hd, rfl⟩ := List.mem_map.mp hc
  exact hdigit d (h d hd)

theorem isTame_variantNibble (n : ℕ) : IsTame (hexDigit ((n &&& 3) ||| 8)) := by
  have hsmall : ∀ m ≤ 3, IsTame (hexDigit (m ||| 8)) := by decide
  exact hsmall _ Nat.and_le_right

theorem tame_deterministicUuid (rt : RuleRuntime) (seed : String) : Tame (deterministicUuid rt seed) := by
  unfold deterministicUuid
  have hhex : ∀ d ∈ List.ofFn fun i => (rt.sha1 seed i : ℕ), d < 16 := by
    intro d hd
    obtain ⟨i, rfl⟩ := (List.mem_ofFn' _ _).mp hd
    exact (rt.sha1 seed i).isLt
  generalize (List.ofFn fun i => (rt.sha1 seed i : ℕ)) = hex at hhex
  have hslice : ∀ start n, Tame (((hex.drop start).take n).map hexDigit) := fun start n =>
    tame_hexDigits fun d hd => hhex d (List.mem_of_mem_drop (List.mem_of_mem_take hd))
  have hdash : Tame (units "-") := by decide
  have hversion : IsTame (unit '4') := by decide
  dsimp only
  simp only [tame_append, tame_cons]
  exact ⟨⟨⟨⟨⟨⟨⟨⟨hslice _ _, hdash⟩, hslice _ _⟩, hdash⟩, hversion, hslice _ _⟩, hdash⟩,
    isTame_variantNibble _, hslice _ _⟩, hdash⟩, hslice _ _⟩

theorem isDigit_of_mem_padded {width n : ℕ} {c : Char} (h : c ∈ (padded width n).toList) : c.isDigit = true := by
  rw [padded, String.toList_ofList, List.leftpad, List.mem_append] at h
  obtain h | h := h
  · rw [List.eq_of_mem_replicate h]
    rfl
  · exact isDigit_of_mem_toString h

/-- The characters of a date. -/
def IsDateChar (c : Char) : Prop := c.isDigit = true ∨ c ∈ ['+', '-', ':', '.', 'T', 'Z']

theorem isDateChar_toISOString (ms : ℕ) : ∀ c ∈ (toISOString ms).toList, IsDateChar c := by
  have hpadded : ∀ width n, ∀ c ∈ (padded width n).toList, IsDateChar c := fun _ _ _ hc =>
    .inl (isDigit_of_mem_padded hc)
  have happend : ∀ s t : String, (∀ c ∈ s.toList, IsDateChar c) → (∀ c ∈ t.toList, IsDateChar c) →
      ∀ c ∈ (s ++ t).toList, IsDateChar c := by
    intro s t hs ht
    rw [String.toList_append]
    exact List.forall_mem_append.mpr ⟨hs, ht⟩
  have hsymbol : ∀ s : String, (∀ c ∈ s.toList, c ∈ ['+', '-', ':', '.', 'T', 'Z']) → ∀ c ∈ s.toList, IsDateChar c :=
    fun _ h c hc => .inr (h c hc)
  have hyear : ∀ y, ∀ c ∈ (if y ≤ 9999 then padded 4 y else "+" ++ padded 6 y).toList, IsDateChar c := by
    intro y
    split
    · exact hpadded 4 y
    · exact happend _ _ (hsymbol "+" (by simp)) (hpadded 6 y)
  have hdate : ∀ date, ∀ c ∈ (dateText date).toList, IsDateChar c := fun date =>
    happend _ _ (happend _ _ (happend _ _ (happend _ _ (hyear date.1) (hsymbol "-" (by simp))) (hpadded 2 _))
      (hsymbol "-" (by simp))) (hpadded 2 _)
  have htime : ∀ time, ∀ c ∈ (timeText time).toList, IsDateChar c := fun time =>
    happend _ _ (happend _ _ (happend _ _ (happend _ _ (happend _ _ (happend _ _ (hpadded 2 _)
      (hsymbol ":" (by simp))) (hpadded 2 _)) (hsymbol ":" (by simp))) (hpadded 2 _)) (hsymbol "." (by simp)))
      (hpadded 3 _)
  exact happend _ _ (happend _ _ (happend _ _ (hdate _) (hsymbol "T" (by simp))) (htime _))
    (hsymbol "Z" (by simp))

theorem ascii_of_isDateChar {c : Char} (h : IsDateChar c) : c.toNat < 0x80 := by
  obtain h | h := h
  · exact ascii_of_isDigit h
  · have hsymbols : ∀ d ∈ ['+', '-', ':', '.', 'T', 'Z'], d.toNat < 0x80 := by
      simp only [List.forall_mem_cons, List.not_mem_nil, false_imp_iff, implies_true, and_true]
      decide
    exact hsymbols c h

theorem isTame_of_isDateChar {c : Char} (h : IsDateChar c) : IsTame (unit c) := by
  obtain h | h := h
  · have hdigits : ∀ n < 10, IsTame ('0'.toNat + n) := by decide
    rw [Char.isDigit, Bool.and_eq_true, decide_eq_true_eq, decide_eq_true_eq] at h
    have hlow : '0'.toNat ≤ c.toNat := h.1
    have hhigh : c.toNat ≤ '9'.toNat := h.2
    have hnine : '9'.toNat = '0'.toNat + 9 := rfl
    have hunit : c.toNat = '0'.toNat + (c.toNat - '0'.toNat) := by omega
    change IsTame c.toNat
    rw [hunit]
    exact hdigits _ (by omega)
  · have hsymbols : ∀ d ∈ ['+', '-', ':', '.', 'T', 'Z'], IsTame (unit d) := by
      simp only [List.forall_mem_cons, List.not_mem_nil, false_imp_iff, implies_true, and_true]
      decide
    exact hsymbols c h

theorem tame_ruleDate (finding : ConfirmedFinding) : Tame (ruleDate finding) := by
  have hchars := isDateChar_toISOString finding.createdAt
  unfold ruleDate
  generalize toISOString finding.createdAt = date at hchars
  intro c hc
  obtain ⟨d, hd, rfl⟩ := List.mem_map.mp hc
  have hmem := List.mem_of_mem_take hd
  rw [units_of_ascii fun c hc => ascii_of_isDateChar (hchars c hc)] at hmem
  obtain ⟨e, he, rfl⟩ := List.mem_map.mp hmem
  split
  · decide
  · exact isTame_of_isDateChar (hchars e he)

end MontrSecure.Sigma
