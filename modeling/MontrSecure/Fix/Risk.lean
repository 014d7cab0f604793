import MontrSecure.Contracts.Layers
import MontrSecure.Security.SecretFormats

/-!
# The risk of a fix

`packages/fix/src/risk.ts`: whether a fix may be applied automatically is decided by rules over its category,
its patch and the files it changes. Any doubt leaves it to a human.
-/

namespace MontrSecure

open Text Text.Regex

/-- `ALWAYS_HUMAN_REQUIRED_CATEGORIES`. -/
def alwaysHumanRequiredCategories : List Category :=
  [.brokenAccessControl, .brokenAuthentication, .weakCrypto, .idor, .csrf, .sensitiveDataExposure,
    .insecureDeserialization]

/-- `AUTO_ELIGIBLE_CATEGORIES`. -/
def autoEligibleCategories : List Category :=
  [.sqlInjection, .nosqlInjection, .xss, .permissiveCors, .insecureCookie, .missingSecurityHeaders,
    .openRedirect]

/-- `RiskSignals`. -/
structure RiskSignals where
  touchesAuthOrCrypto : Bool := false
  wideBlastRadius : Bool := false
  uncertain : Bool := false

/-- `classifyFixRisk`. -/
def classifyFixRisk (category : Category) (signals : RiskSignals) : RiskClass :=
  if signals.touchesAuthOrCrypto then .humanRequired
  else if signals.wideBlastRadius then .humanRequired
  else if signals.uncertain then .humanRequired
  else if category ∈ alwaysHumanRequiredCategories then .humanRequired
  else if category ∈ autoEligibleCategories then .autoEligible
  else .humanRequired

/-! ## Paths and APIs -/

/-- `^`. -/
def textStart : Regex ℕ := look fun before _ => before.isNone

/-- `$`. -/
def textEnd : Regex ℕ := look fun _ after => after.isNone

/-- `AUTH_PATH_RE`. -/
def authPathRe : Regex ℕ :=
  let separator := sym (isOneOf ['/', '.', '_', '-'])
  concat
    [alt textStart separator,
      oneOf (["auth", "authn", "authz", "session", "login", "logout", "signin", "signup", "oauth", "oidc",
        "saml", "jwt", "password", "passwd", "credential", "rbac", "acl", "permission", "middleware",
        "guard"].map litCased),
      alt separator textEnd]

/-- `AUTH_CRYPTO_API_RE`. -/
def authCryptoApiRe : Regex ℕ :=
  oneOf
    [concat
      [wordBoundary,
        oneOf (["crypto", "createcipher", "createcipheriv", "createdecipher", "createdecipheriv",
          "createhash", "createhmac", "randombytes", "pbkdf2", "scrypt", "bcrypt", "argon2", "jsonwebtoken",
          "passport", "next-auth", "getserversession", "usesession", "hashpassword", "comparepassword",
          "setpassword", "signtoken", "verifytoken"].map litCased),
        wordBoundary],
      concat [wordBoundary, litCased "jwt."], litCased ".sign(", litCased ".verify(",
      concat [wordBoundary, litCased "session."], concat [wordBoundary, litCased "req.session", wordBoundary]]

/-- `SHARED_MODULE_RE`. -/
def sharedModuleRe : Regex ℕ :=
  concat
    [alt textStart (lit "/"), oneOf (["shared", "common", "core", "middleware"].map litCased),
      alt (lit "/") (lit ".")]

/-- `AUTH_PATH_RE.test`. -/
def isAuthPath (file : String) : Bool := authPathRe.test (units file)

/-- `AUTH_CRYPTO_API_RE.test`. -/
def usesAuthCryptoApi (patch : String) : Bool := authCryptoApiRe.test (units patch)

/-- `SHARED_MODULE_RE.test`. -/
def isSharedModule (file : String) : Bool := sharedModuleRe.test (units file)

example : isAuthPath "src/Auth/check.ts" = true ∧ isAuthPath "src/author.ts" = false := by decide +kernel

/-- `MAX_AUTO_CHANGED_LINES`. -/
def maxAutoChangedLines : ℕ := 40

/-! ## The decision -/

/-- `RiskEvidence`. -/
structure RiskEvidence where
  patch : String
  changedFiles : List String
  changedLines : ℕ
  uncertain : Bool

/-- `RiskDecision`. -/
structure RiskDecision where
  riskClass : RiskClass
  rationale : String
  signals : RiskSignals

section Decision

variable (finding : ConfirmedFinding) (evidence : RiskEvidence) (alwaysHumanCategories : List Category)

/-- The files a patch changes: at least that of the finding. -/
def riskFiles : List String :=
  if evidence.changedFiles ≠ [] then evidence.changedFiles else [finding.location.file]

/-- `deriveRiskSignals`. -/
def deriveRiskSignals : RiskSignals :=
  let files := riskFiles finding evidence
  { touchesAuthOrCrypto :=
      files.any isAuthPath || (evidence.patch ≠ "" && usesAuthCryptoApi evidence.patch)
    wideBlastRadius :=
      1 < files.length || maxAutoChangedLines < evidence.changedLines || files.any isSharedModule
    uncertain := evidence.uncertain }

/-- The rule that decided, in words. -/
def riskRationale (signals : RiskSignals) : String :=
  let category := finding.category.name
  if signals.touchesAuthOrCrypto then
    "Patch touches auth/session/crypto/access-control code — human-required (hard rule §11)."
  else if signals.wideBlastRadius then
    s!"Wide blast radius ({(riskFiles finding evidence).length} file(s), {evidence.changedLines} changed " ++
      "line(s)) — human-required."
  else if signals.uncertain then
    "Classifier uncertain (no cleanly-validated mechanical fix) — fail-safe to human review."
  else if finding.category ∈ alwaysHumanRequiredCategories then
    "Category \"" ++ category ++ "\" always requires human review (auth/crypto/access-control hard rule §11)."
  else if finding.category ∈ autoEligibleCategories then
    "Mechanical, low-blast-radius \"" ++ category ++ "\" fix with a cleanly-validated patch — auto-eligible."
  else "Category \"" ++ category ++ "\" is not on the auto-eligible allowlist — fail-safe to human review."

/-- `classifyConfirmedFindingRisk`. -/
def classifyConfirmedFindingRisk : RiskDecision :=
  let signals := deriveRiskSignals finding evidence
  if finding.category ∈ alwaysHumanCategories then
    { riskClass := .humanRequired
      rationale := "Deployment policy forces category \"" ++ finding.category.name ++ "\" to human review."
      signals := { signals with uncertain := true } }
  else
    { riskClass := classifyFixRisk finding.category signals
      rationale := riskRationale finding evidence signals
      signals }

/-- What is required of a fix that may be applied automatically. -/
structure MayAutoApply : Prop where
  eligible : finding.category ∈ autoEligibleCategories
  notHuman : finding.category ∉ alwaysHumanRequiredCategories
  notForced : finding.category ∉ alwaysHumanCategories
  certain : evidence.uncertain = false
  oneFile : (riskFiles finding evidence).length ≤ 1
  fewLines : evidence.changedLines ≤ maxAutoChangedLines
  noAuthPath : ∀ f ∈ riskFiles finding evidence, ¬isAuthPath f
  noSharedModule : ∀ f ∈ riskFiles finding evidence, ¬isSharedModule f
  noAuthApi : evidence.patch ≠ "" → usesAuthCryptoApi evidence.patch = false

theorem classifyFixRisk_eq_autoEligible_iff {category : Category} {signals : RiskSignals} :
    classifyFixRisk category signals = .autoEligible ↔
      signals.touchesAuthOrCrypto = false ∧ signals.wideBlastRadius = false ∧ signals.uncertain = false ∧
        category ∉ alwaysHumanRequiredCategories ∧ category ∈ autoEligibleCategories := by
  unfold classifyFixRisk
  by_cases hauth : signals.touchesAuthOrCrypto = true
  · simp [hauth]
  by_cases hwide : signals.wideBlastRadius = true
  · simp [hwide]
  by_cases huncertain : signals.uncertain = true
  · simp [huncertain]
  by_cases hhuman : category ∈ alwaysHumanRequiredCategories
  · simp [hhuman]
  · simp [hauth, hwide, huncertain, hhuman]

/-- The class is decided by what is required. -/
theorem classifyConfirmedFindingRisk_iff :
    (classifyConfirmedFindingRisk finding evidence alwaysHumanCategories).riskClass = .autoEligible ↔
      MayAutoApply finding evidence alwaysHumanCategories := by
  have hsignals : classifyFixRisk finding.category (deriveRiskSignals finding evidence) = .autoEligible ↔
      ((riskFiles finding evidence).any isAuthPath = false ∧
          (evidence.patch ≠ "" → usesAuthCryptoApi evidence.patch = false)) ∧
        ((riskFiles finding evidence).length ≤ 1 ∧ evidence.changedLines ≤ maxAutoChangedLines ∧
          (riskFiles finding evidence).any isSharedModule = false) ∧
        evidence.uncertain = false ∧ finding.category ∉ alwaysHumanRequiredCategories ∧
        finding.category ∈ autoEligibleCategories := by
    rw [classifyFixRisk_eq_autoEligible_iff]
    simp only [deriveRiskSignals, Bool.or_eq_false_iff, Bool.and_eq_false_imp, decide_eq_false_iff_not,
      decide_eq_true_eq, not_lt, and_assoc]
  unfold classifyConfirmedFindingRisk
  by_cases hforced : finding.category ∈ alwaysHumanCategories
  · simp only [hforced, if_true, reduceCtorEq, false_iff]
    exact fun h => h.notForced hforced
  · simp only [hforced, if_false]
    rw [hsignals]
    constructor
    · rintro ⟨⟨hauth, hapi⟩, ⟨hone, hfew, hshared⟩, hcertain, hhuman, heligible⟩
      exact
        { eligible := heligible, notHuman := hhuman, notForced := hforced, certain := hcertain
          oneFile := hone, fewLines := hfew, noAuthPath := List.any_eq_false.mp hauth
          noSharedModule := List.any_eq_false.mp hshared, noAuthApi := hapi }
    · intro h
      exact ⟨⟨List.any_eq_false.mpr h.noAuthPath, h.noAuthApi⟩,
        ⟨h.oneFile, h.fewLines, List.any_eq_false.mpr h.noSharedModule⟩, h.certain, h.notHuman, h.eligible⟩

end Decision

end MontrSecure
