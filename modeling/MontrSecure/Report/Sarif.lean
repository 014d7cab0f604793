import MontrSecure.Confirm.Heuristics
import MontrSecure.Correlation.Taxonomy

/-!
# The SARIF export

`packages/report/src/exports/sarif.ts`: a rule for each category of the confirmed findings, a result for each finding,
and the fingerprint that is to tell a finding again when its lines have moved. It is made of the symbol of the
finding, or else of its title, and a title without a route has the line in it. `complete_and_stable_iff` says when
the fingerprints of two reports agree.
-/

namespace MontrSecure.Sarif

open Confirm

/-! ## Taxonomies -/

/-- The id of an OWASP category. -/
def owaspId : OwaspId → String
  | .a01 => "A01:2021"
  | .a02 => "A02:2021"
  | .a03 => "A03:2021"
  | .a04 => "A04:2021"
  | .a05 => "A05:2021"
  | .a06 => "A06:2021"
  | .a07 => "A07:2021"
  | .a08 => "A08:2021"
  | .a09 => "A09:2021"
  | .a10 => "A10:2021"

/-- `OWASP_TITLES`. -/
def owaspTitles : OwaspId → String
  | .a01 => "Broken Access Control"
  | .a02 => "Cryptographic Failures"
  | .a03 => "Injection"
  | .a04 => "Insecure Design"
  | .a05 => "Security Misconfiguration"
  | .a06 => "Vulnerable and Outdated Components"
  | .a07 => "Identification and Authentication Failures"
  | .a08 => "Software and Data Integrity Failures"
  | .a09 => "Security Logging and Monitoring Failures"
  | .a10 => "Server-Side Request Forgery (SSRF)"

/-- `CATEGORY_MITRE_TECHNIQUES`, and `mitreTechniqueIdsForCategory`. -/
def mitreTechniqueIdsForCategory : Category → List String
  | .sqlInjection | .nosqlInjection => ["T1190", "T1213"]
  | .commandInjection | .insecureDeserialization => ["T1190", "T1059"]
  | .xss => ["T1059.007", "T1539"]
  | .ssrf => ["T1190", "T1552.005"]
  | .pathTraversal | .xxe => ["T1190", "T1005"]
  | .hardcodedSecret => ["T1552.001"]
  | .vulnerableDependency | .permissiveCors | .missingSecurityHeaders | .csrf | .other => ["T1190"]
  | .insecureCookie => ["T1539"]
  | .weakCrypto => ["T1600"]
  | .brokenAccessControl => ["T1548", "T1078"]
  | .brokenAuthentication => ["T1110", "T1078"]
  | .openRedirect => ["T1566.002"]
  | .sensitiveDataExposure => ["T1213", "T1005"]
  | .insufficientLogging => ["T1562.008"]
  | .idor => ["T1078"]
  | .massAssignment => ["T1548"]
  | .rateLimitMissing => ["T1499.003"]
  | .promptInjection => ["AML.T0051"]
  | .insecureConfiguration => ["T1190", "T1611"]

/-- `SARIF_LEVEL`. -/
def sarifLevel : Severity → String
  | .critical | .high => "error"
  | .medium => "warning"
  | .low => "note"
  | .info => "none"

/-- `SECURITY_SEVERITY`. -/
def securitySeverity : Severity → String
  | .critical => "9.5"
  | .high => "8.1"
  | .medium => "5.5"
  | .low => "3.1"
  | .info => "0.0"

/-- `SEVERITY_RANK`. -/
def severityRank : Severity → ℕ
  | .critical => 4
  | .high => 3
  | .medium => 2
  | .low => 1
  | .info => 0

/-! ## The log -/

/-- `RichSarifRule`; a severity that is missing has no number. -/
structure RichSarifRule where
  id : String
  name : String
  shortDescription : String
  fullDescription : String
  helpUri : String
  tags : List String
  securitySeverity : Option String
  cwe : List String
  owasp : String
  mitre : List String

/-- `RichSarifResult`; the index is that of a rule, if there is one. -/
structure RichSarifResult where
  ruleId : String
  ruleIndex : Option ℕ
  level : String
  message : String
  uri : String
  startLine : Option ℕ
  partialFingerprints : List (String × String)
  category : String
  cwe : List String
  owasp : String
  owaspTitle : String
  severity : String
  exposure : String
  proofType : String
  mitre : List String

/-- `RichSarifLog`. -/
structure RichSarifLog where
  version : String
  schema : String
  driverName : String
  informationUri : String
  rules : List RichSarifRule
  results : List RichSarifResult

/-! ## The export -/

section

variable (sha256 : String → String)

/-- What a fingerprint is made of. -/
def fingerprintText (finding : ConfirmedFinding) : String :=
  s!"{finding.category.name}|{finding.location.file}|{finding.location.symbol.getD finding.title}"

/-- `fingerprint`. -/
def fingerprint (finding : ConfirmedFinding) : String := sha256 (fingerprintText finding)

/-- `helpUri`. -/
def helpUri (category : Category) : String :=
  match (categoryTaxonomy category).cwe.head? with
  | some cwe =>
    -- Every id in the taxonomy begins with the prefix.
    let num := (cwe.dropPrefix "CWE-").copy
    s!"https://cwe.mitre.org/data/definitions/{num}.html"
  | none => "https://owasp.org/www-project-top-ten/"

/-- `mitreTag`. -/
def mitreTag (id : String) : String := s!"external/attack/{id.toLower}"

example : mitreTag "T1190" = "external/attack/t1190" := by decide +kernel

/-- `ruleTags`. -/
def ruleTags (category : Category) : List String :=
  let entry := categoryTaxonomy category
  let cweTags := entry.cwe.map fun c => s!"external/cwe/{c.toLower}"
  let mitreTags := (mitreTechniqueIdsForCategory category).map mitreTag
  ["security", category.name, s!"OWASP-{owaspId entry.owasp}"] ++ cweTags ++ mitreTags

/-- `buildRule`. -/
def buildRule (category : Category) (maxSeverity : Option Severity) : RichSarifRule :=
  let entry := categoryTaxonomy category
  let cweText := if 0 < entry.cwe.length then " and " ++ ", ".intercalate entry.cwe else ""
  { id := category.name
    name := entry.title
    shortDescription := entry.title
    fullDescription :=
      s!"{entry.title} — maps to {owaspId entry.owasp} ({owaspTitles entry.owasp}){cweText}."
    helpUri := helpUri category
    tags := ruleTags category
    securitySeverity := maxSeverity.map securitySeverity
    cwe := entry.cwe
    owasp := owaspId entry.owasp
    mitre := mitreTechniqueIdsForCategory category }

/-- The token of a proof type. -/
def proofTypeToken : ProofType → String
  | .static => "static"
  | .live => "live"

/-- `buildResult`. -/
def buildResult (finding : ConfirmedFinding) (ruleIndex : Option ℕ) : RichSarifResult :=
  let line := finding.location.line
  let compliance := categoryTaxonomy finding.category
  { ruleId := finding.category.name
    ruleIndex
    level := sarifLevel finding.severity
    message := s!"{finding.title} — {finding.impact}"
    uri := finding.location.file
    startLine := if 0 < line then some line else none
    partialFingerprints := [("montr/v1", fingerprint sha256 finding)]
    category := finding.category.name
    cwe := if 0 < finding.cwe.length then finding.cwe else compliance.cwe
    owasp := owaspId (finding.owasp.getD compliance.owasp)
    owaspTitle := owaspTitles compliance.owasp
    severity := finding.severity.token
    exposure := finding.exposure.token
    proofType := proofTypeToken finding.proofType
    mitre := mitreTechniqueIdsForCategory finding.category }

/-- The categories in the order they appear, and the highest severity of each. -/
structure Tally where
  order : List Category
  maxSeverity : Category → Option Severity

/-- No category has appeared. -/
def Tally.empty : Tally := { order := [], maxSeverity := fun _ => none }

/-- A finding is counted. -/
def Tally.add (t : Tally) (f : ConfirmedFinding) : Tally :=
  { order := if t.maxSeverity f.category = none then t.order ++ [f.category] else t.order
    maxSeverity :=
      if (t.maxSeverity f.category).all fun cur => severityRank cur < severityRank f.severity then
        Function.update t.maxSeverity f.category (some f.severity)
      else t.maxSeverity }

/-- The place of a category in the order; of places of one category, the last. -/
def ruleIndex (order : List Category) (category : Category) : Option ℕ :=
  (order.zipIdx.reverse.find? fun entry => entry.1 = category).map (·.2)

/-- What `SarifLogSchema` asks of the log. -/
def sarifLogValid (log : RichSarifLog) : Bool :=
  log.version = "2.1.0" &&
    log.results.all fun r => r.level ∈ ["none", "note", "warning", "error"] && r.startLine.all (0 < ·)

/-- `toSarif`, of the confirmed findings of a report. -/
def toSarif (confirmed : List ConfirmedFinding) : Except Err RichSarifLog :=
  let tally := confirmed.foldl Tally.add Tally.empty
  let rules := tally.order.map fun c => buildRule c (tally.maxSeverity c)
  let results := confirmed.map fun f => buildResult sha256 f (ruleIndex tally.order f.category)
  let log : RichSarifLog :=
    { version := "2.1.0"
      schema := "https://json.schemastore.org/sarif-2.1.0.json"
      driverName := "Montr Secure"
      informationUri := "https://montr.security/secure"
      rules, results }
  if sarifLogValid log then .ok log else .error (.other "ZodError")

end

/-! ## The rules -/

/-- The tally is that of the findings. -/
structure Tallies (fs : List ConfirmedFinding) (t : Tally) : Prop where
  nodup : t.order.Nodup
  mem_order : ∀ c, c ∈ t.order ↔ ∃ s, t.maxSeverity c = some s
  attained : ∀ c s, t.maxSeverity c = some s → ∃ f ∈ fs, f.category = c ∧ f.severity = s
  bound : ∀ f ∈ fs, ∃ s, t.maxSeverity f.category = some s ∧ severityRank f.severity ≤ severityRank s

theorem tallies_empty : Tallies [] Tally.empty where
  nodup := List.nodup_nil
  mem_order c := by simp [Tally.empty]
  attained c s h := nomatch h
  bound f hf := nomatch hf

/-- What a finding changes in the tally. -/
theorem maxSeverity_add (t : Tally) (f : ConfirmedFinding) :
    (∀ c ≠ f.category, (t.add f).maxSeverity c = t.maxSeverity c) ∧
      ∃ s, (t.add f).maxSeverity f.category = some s ∧ severityRank f.severity ≤ severityRank s ∧
        (s = f.severity ∨ t.maxSeverity f.category = some s) ∧
          ∀ cur, t.maxSeverity f.category = some cur → severityRank cur ≤ severityRank s := by
  have hadd : (t.add f).maxSeverity =
      if (t.maxSeverity f.category).all fun cur => severityRank cur < severityRank f.severity then
        Function.update t.maxSeverity f.category (some f.severity)
      else t.maxSeverity := rfl
  rw [hadd]
  split_ifs with h
  · refine ⟨fun c hc => Function.update_of_ne hc _ _, f.severity, Function.update_self .., le_rfl, .inl rfl, ?_⟩
    intro cur hcur
    rw [hcur] at h
    exact (of_decide_eq_true h).le
  · rcases hcur : t.maxSeverity f.category with _ | cur
    · simp [hcur] at h
    · rw [hcur, Option.all_some, decide_eq_true_eq, not_lt] at h
      refine ⟨fun _ _ => rfl, cur, rfl, h, .inr rfl, fun cur' h' => ?_⟩
      rw [Option.some.inj h']

theorem Tallies.add {fs : List ConfirmedFinding} {t : Tally} (h : Tallies fs t) (f : ConfirmedFinding) :
    Tallies (fs ++ [f]) (t.add f) := by
  obtain ⟨hother, s, hs, hrank, hfrom, hmax⟩ := maxSeverity_add t f
  have horder : (t.add f).order = if t.maxSeverity f.category = none then t.order ++ [f.category] else t.order := rfl
  constructor
  · rw [horder]
    split_ifs with hnone
    · refine List.nodup_append.mpr ⟨h.nodup, List.nodup_singleton _, fun c hc d hd hcd => ?_⟩
      obtain ⟨cur, hcur⟩ := (h.mem_order c).mp hc
      rw [hcd, List.mem_singleton.mp hd, hnone] at hcur
      cases hcur
    · exact h.nodup
  · intro c
    rw [horder]
    by_cases hc : c = f.category
    · subst hc
      refine ⟨fun _ => ⟨s, hs⟩, fun _ => ?_⟩
      split_ifs with hnone
      · exact List.mem_append_right _ List.mem_cons_self
      · exact (h.mem_order _).mpr (Option.ne_none_iff_exists'.mp hnone)
    · rw [hother c hc, ← h.mem_order c]
      split_ifs
      · simp [hc]
      · exact Iff.rfl
  · intro c s' hs'
    by_cases hc : c = f.category
    · subst hc
      obtain rfl := Option.some.inj (hs.symm.trans hs')
      obtain rfl | hcur := hfrom
      · exact ⟨f, by simp⟩
      · obtain ⟨g, hg, hgf⟩ := h.attained _ _ hcur
        exact ⟨g, List.mem_append_left _ hg, hgf⟩
    · rw [hother c hc] at hs'
      obtain ⟨g, hg, hgf⟩ := h.attained c s' hs'
      exact ⟨g, List.mem_append_left _ hg, hgf⟩
  · intro g hg
    obtain hg | hg := List.mem_append.mp hg
    · obtain ⟨cur, hcur, hle⟩ := h.bound g hg
      by_cases hc : g.category = f.category
      · rw [hc] at hcur ⊢
        exact ⟨s, hs, hle.trans (hmax cur hcur)⟩
      · exact ⟨cur, (hother _ hc).trans hcur, hle⟩
    · rw [List.mem_singleton.mp hg]
      exact ⟨s, hs, hrank⟩

/-- The loop over the findings. -/
theorem tallies_foldl (fs : List ConfirmedFinding) : Tallies fs (fs.foldl Tally.add Tally.empty) := by
  induction fs using List.reverseRecOn with
  | nil => exact tallies_empty
  | append_singleton fs f ih =>
    rw [List.foldl_append]
    exact ih.add f

/-- A category that has appeared has a place. -/
theorem exists_ruleIndex {order : List Category} {c : Category} (hc : c ∈ order) :
    ∃ i, ruleIndex order c = some i ∧ order[i]? = some c := by
  obtain ⟨i, hi⟩ := List.getElem?_of_mem hc
  have hsome : (order.zipIdx.reverse.find? fun entry => entry.1 = c).isSome := by
    rw [List.find?_isSome]
    exact ⟨(c, i), List.mem_reverse.mpr (List.mem_zipIdx_iff_getElem?.mpr hi), decide_eq_true rfl⟩
  obtain ⟨⟨c', j⟩, hfound⟩ := Option.isSome_iff_exists.mp hsome
  have hc' : decide (c' = c) = true := List.find?_some (p := fun entry : Category × ℕ => decide (entry.1 = c)) hfound
  have hmem := List.mem_zipIdx_iff_getElem?.mp (List.mem_reverse.mp (List.mem_of_find?_eq_some hfound))
  refine ⟨j, ?_, of_decide_eq_true hc' ▸ hmem⟩
  rw [ruleIndex, hfound]
  rfl

/-- The rule with the index belongs to the category of the finding, as no other rule does, and has the highest
severity of its findings. -/
def HasRule (confirmed : List ConfirmedFinding) (rules : List RichSarifRule) (category : Category)
    (index : Option ℕ) : Prop :=
  ∃ i rule, index = some i ∧ rules[i]? = some rule ∧ rule.id = category.name ∧
    (∀ j rule', rules[j]? = some rule' → rule'.id = category.name → j = i) ∧
    ∃ g ∈ confirmed, g.category = category ∧ rule.securitySeverity = some (securitySeverity g.severity) ∧
      ∀ h ∈ confirmed, h.category = category → severityRank h.severity ≤ severityRank g.severity

theorem hasRule_of_tallies {confirmed : List ConfirmedFinding} {t : Tally} (h : Tallies confirmed t)
    {f : ConfirmedFinding} (hf : f ∈ confirmed) :
    HasRule confirmed (t.order.map fun c => buildRule c (t.maxSeverity c)) f.category
      (ruleIndex t.order f.category) := by
  obtain ⟨s, hs, -⟩ := h.bound f hf
  obtain ⟨i, hindex, hi⟩ := exists_ruleIndex ((h.mem_order _).mpr ⟨s, hs⟩)
  refine ⟨i, buildRule f.category (t.maxSeverity f.category), hindex, ?_, rfl, fun j rule' hj hid => ?_, ?_⟩
  · rw [List.getElem?_map, hi]
    rfl
  · -- Rules are named after their categories, which do not repeat.
    rw [List.getElem?_map, Option.map_eq_some_iff] at hj
    obtain ⟨c, hjc, rfl⟩ := hj
    obtain rfl := Category.name_injective hid
    exact (List.getElem?_inj (List.getElem?_eq_some_iff.mp hjc).1 h.nodup).mp (hjc.trans hi.symm)
  · obtain ⟨g, hg, hgc, hgs⟩ := h.attained _ _ hs
    refine ⟨g, hg, hgc, ?_, fun g' hg' hgc' => ?_⟩
    · rw [buildRule, hs, hgs]
      rfl
    · obtain ⟨s', hs', hle⟩ := h.bound g' hg'
      rw [hgc', hs] at hs'
      rwa [hgs, Option.some.inj hs']

/-! ## The results -/

variable (sha256 : String → String)

/-- There is one result for each confirmed finding, in order, with the rule of its category. -/
def Complete (confirmed : List ConfirmedFinding) (log : RichSarifLog) : Prop :=
  List.Forall₂ (fun f r => r = buildResult sha256 f r.ruleIndex ∧ HasRule confirmed log.rules f.category r.ruleIndex)
    confirmed log.results

/-- The log is never rejected by its schema, and it is complete. -/
theorem toSarif_eq_ok (confirmed : List ConfirmedFinding) : ∃ log, toSarif sha256 confirmed = .ok log ∧
    Complete sha256 confirmed log ∧
      log.results.map (·.partialFingerprints) = confirmed.map fun f => [("montr/v1", fingerprint sha256 f)] := by
  have htally := tallies_foldl confirmed
  have hlevel : ∀ severity, sarifLevel severity ∈ ["none", "note", "warning", "error"] := by
    rintro (_ | _ | _ | _ | _) <;> decide
  have hline : ∀ f index, (buildResult sha256 f index).startLine.all (0 < ·) = true := by
    intro f index
    rw [buildResult]
    by_cases hpos : 0 < f.location.line <;> simp [hpos]
  refine ⟨_, if_pos ?_, ?_, ?_⟩
  · rw [sarifLogValid, Bool.and_eq_true, List.all_eq_true]
    refine ⟨decide_eq_true rfl, fun r hr => ?_⟩
    obtain ⟨f, -, rfl⟩ := List.mem_map.mp hr
    rw [hline, Bool.and_true]
    exact decide_eq_true (hlevel f.severity)
  · refine List.forall₂_map_right_iff.mpr (List.forall₂_same.mpr fun f hf => ⟨rfl, ?_⟩)
    exact hasRule_of_tallies htally hf
  · rw [List.map_map]
    rfl

/-! ## Findings that move -/

/-- A finding whose title `deriveTitle` gave it. -/
structure TitledFinding where
  finding : ConfirmedFinding
  route : Option Route
  param : Option String
  title_eq : finding.title =
    deriveTitle finding.category route finding.location.file finding.location.line param

/-- The same finding, as far as its identity goes, whose lines may have moved. -/
structure Moved (t t' : TitledFinding) : Prop where
  category : t'.finding.category = t.finding.category
  file : t'.finding.location.file = t.finding.location.file
  symbol : t'.finding.location.symbol = t.finding.location.symbol
  route : t'.route = t.route
  param : t'.param = t.param

/-- The finding has a symbol or a route, or its line has stayed. -/
def Anchored (t t' : TitledFinding) : Prop :=
  t.finding.location.symbol ≠ none ∨ t.route ≠ none ∨ t'.finding.location.line = t.finding.location.line

/-- Without a route, the title tells the line. -/
theorem deriveTitle_inj {category : Category} {file : String} {line line' : ℕ} {param : Option String}
    (h : deriveTitle category none file line param = deriveTitle category none file line' param) : line = line' := by
  have hchars := congrArg String.toList h
  simp only [deriveTitle, String.toList_append, List.append_cancel_left_eq] at hchars
  -- The digits are read back.
  have hnum := congrArg (fun digits => Nat.ofDigitChars 10 digits 0) hchars
  simpa [Nat.toString_eq_ofList_toDigits] using hnum

theorem fingerprintText_eq_iff {t t' : TitledFinding} (h : Moved t t') :
    fingerprintText t'.finding = fingerprintText t.finding ↔ Anchored t t' := by
  have hanchor : fingerprintText t'.finding = fingerprintText t.finding ↔
      t'.finding.location.symbol.getD t'.finding.title = t.finding.location.symbol.getD t.finding.title := by
    rw [fingerprintText, fingerprintText, h.category, h.file]
    refine ⟨fun htext => ?_, fun hanchor => by rw [hanchor]⟩
    have hchars := congrArg String.toList htext
    simp only [String.toList_append, List.append_cancel_left_eq] at hchars
    exact String.toList_inj.mp hchars
  rw [hanchor, h.symbol, Anchored]
  rcases t.finding.location.symbol with _ | symbol
  · rw [Option.getD_none, Option.getD_none, t.title_eq, t'.title_eq, h.category, h.file, h.route, h.param]
    rcases t.route with _ | route
    · refine ⟨fun htitle => .inr (.inr (deriveTitle_inj htitle)), ?_⟩
      rintro (h | h | hline)
      · exact absurd rfl h
      · exact absurd rfl h
      · rw [hline]
    · simp [deriveTitle]
  · simp

/-- The hash tells the texts of two lists of findings apart. -/
def NoCollision (before after : List TitledFinding) : Prop :=
  ∀ t ∈ before, ∀ t' ∈ after, fingerprint sha256 t'.finding = fingerprint sha256 t.finding →
    fingerprintText t'.finding = fingerprintText t.finding

/-- The findings of a report. -/
def confirmedFindings (ts : List TitledFinding) : List ConfirmedFinding := ts.map (·.finding)

theorem fingerprints_eq_iff {before after : List TitledFinding} (hmoved : List.Forall₂ Moved before after)
    (hsha : NoCollision sha256 before after) :
    (confirmedFindings after).map (fingerprint sha256) = (confirmedFindings before).map (fingerprint sha256) ↔
      List.Forall₂ Anchored before after := by
  induction hmoved with
  | nil => exact ⟨fun _ => .nil, fun _ => rfl⟩
  | @cons t t' before after h _ ih =>
    have hrest : NoCollision sha256 before after := fun s hs s' hs' =>
      hsha s (List.mem_cons_of_mem _ hs) s' (List.mem_cons_of_mem _ hs')
    have hhead : fingerprint sha256 t'.finding = fingerprint sha256 t.finding ↔ Anchored t t' := by
      rw [← fingerprintText_eq_iff h]
      exact ⟨hsha t List.mem_cons_self t' List.mem_cons_self, congrArg sha256⟩
    rw [List.forall₂_cons, ← ih hrest, ← hhead]
    simp [confirmedFindings]

/-- Every finding of a report has its result and its rule, before and after lines have moved, and all fingerprints
stay the same exactly when every finding has a symbol or a route, or has not moved. -/
theorem complete_and_stable_iff {before after : List TitledFinding} (hmoved : List.Forall₂ Moved before after)
    (hsha : NoCollision sha256 before after) :
    ∃ log log', toSarif sha256 (confirmedFindings before) = .ok log ∧
      toSarif sha256 (confirmedFindings after) = .ok log' ∧
      Complete sha256 (confirmedFindings before) log ∧ Complete sha256 (confirmedFindings after) log' ∧
      (log'.results.map (·.partialFingerprints) = log.results.map (·.partialFingerprints) ↔
        List.Forall₂ Anchored before after) := by
  obtain ⟨log, hlog, hcomplete, hprints⟩ := toSarif_eq_ok sha256 (confirmedFindings before)
  obtain ⟨log', hlog', hcomplete', hprints'⟩ := toSarif_eq_ok sha256 (confirmedFindings after)
  refine ⟨log, log', hlog, hlog', hcomplete, hcomplete', ?_⟩
  have hentry : Function.Injective fun print : String => [("montr/v1", print)] := fun a b h => by simpa using h
  rw [hprints, hprints', ← fingerprints_eq_iff sha256 hmoved hsha, ← (List.map_injective_iff.mpr hentry).eq_iff,
    List.map_map, List.map_map]
  rfl

/-- A secret in a file, found outside of any symbol or route. -/
private def secretAt (line : ℕ) : TitledFinding where
  finding :=
    { id := "f"
      scanId := "s"
      clientId := "c"
      title := deriveTitle .hardcodedSecret none "config.ts" line none
      category := .hardcodedSecret
      severity := .high
      exposure := .public_
      location := { file := "config.ts", line }
      impact := ""
      proofType := .static
      proofArtifact := .null
      createdAt := 0 }
  route := none
  param := none
  title_eq := rfl

/-- A line above the secret is added. -/
private theorem secret_moved : List.Forall₂ Moved [secretAt 3] [secretAt 4] := .cons ⟨rfl, rfl, rfl, rfl, rfl⟩ .nil

/-- The texts themselves do not collide. -/
theorem complete_and_stable_id : ∃ before after : List TitledFinding,
    List.Forall₂ Moved before after ∧ NoCollision id before after ∧
      ∃ log log', toSarif id (confirmedFindings before) = .ok log ∧
        toSarif id (confirmedFindings after) = .ok log' ∧
        Complete id (confirmedFindings before) log ∧ Complete id (confirmedFindings after) log' ∧
        (log'.results.map (·.partialFingerprints) = log.results.map (·.partialFingerprints) ↔
          List.Forall₂ Anchored before after) :=
  ⟨[secretAt 3], [secretAt 4], secret_moved, fun _ _ _ _ h => h,
    complete_and_stable_iff id secret_moved fun _ _ _ _ h => h⟩

/-- A finding without symbol and route gets another fingerprint when its line moves, unless the hash collides. -/
theorem fingerprint_moves : ∃ before after : List TitledFinding, List.Forall₂ Moved before after ∧
    ∀ (sha256 : String → String) (log log' : RichSarifLog), NoCollision sha256 before after →
      toSarif sha256 (confirmedFindings before) = .ok log → toSarif sha256 (confirmedFindings after) = .ok log' →
        log'.results.map (·.partialFingerprints) ≠ log.results.map (·.partialFingerprints) := by
  refine ⟨[secretAt 3], [secretAt 4], secret_moved, fun sha256 log log' hsha hlog hlog' hsame => ?_⟩
  obtain ⟨_, hok, -, hprints⟩ := toSarif_eq_ok sha256 (confirmedFindings [secretAt 3])
  obtain ⟨_, hok', -, hprints'⟩ := toSarif_eq_ok sha256 (confirmedFindings [secretAt 4])
  obtain rfl := Except.ok.inj (hok.symm.trans hlog)
  obtain rfl := Except.ok.inj (hok'.symm.trans hlog')
  rw [hprints, hprints'] at hsame
  have hprint : fingerprint sha256 (secretAt 4).finding = fingerprint sha256 (secretAt 3).finding := by
    simpa [confirmedFindings] using hsame
  have htext := hsha (secretAt 3) List.mem_cons_self (secretAt 4) List.mem_cons_self hprint
  have hmoved : Moved (secretAt 3) (secretAt 4) := ⟨rfl, rfl, rfl, rfl, rfl⟩
  obtain h | h | h := (fingerprintText_eq_iff hmoved).mp htext
  · exact h rfl
  · exact h rfl
  · revert h
    decide

end MontrSecure.Sarif
