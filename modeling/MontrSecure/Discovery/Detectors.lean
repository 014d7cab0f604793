import MontrSecure.Discovery.Candidates
import MontrSecure.Discovery.Scope

/-!
# Detectors

What the detectors of `packages/discovery/src/detectors` make of what they and their scanners have found: the
spec of a candidate for each finding. Which category, CWEs and severity a scanner's result has is taken as
`severity.ts` maps it.
-/

namespace MontrSecure

/-- A finding of a detector: the spec it makes, and the package, version and advisory that it is about. -/
structure RawFinding where
  spec : CandidateSpec
  package : Option String := none
  version : Option String := none
  advisory : Option String := none

/-! ## Scanners -/

/-- `SemgrepResult`, with its path relative to the repository. -/
structure SemgrepResult where
  checkId : Option String := none
  path : Option String := none
  startLine : Option ℕ := none
  startCol : Option ℕ := none
  endLine : Option ℕ := none
  category : Category := .other
  cwe : List String := []
  severity : Severity := .medium
  lines : Option String := none
  message : Option String := none
  owasp : Option Json := none

/-- `candidateFromSemgrep`: a result without a rule, a path or a start is not usable. The infrastructure pass
adds a tag to the metadata. -/
def candidateFromSemgrep (tags : List (String × Json)) (r : SemgrepResult) : Option RawFinding := do
  let checkId ← r.checkId.filter (· ≠ "")
  let path ← r.path.filter (· ≠ "")
  let line ← r.startLine
  return {
    spec :=
      { source := .semgrep, ruleId := checkId, category := r.category
        cwe := if r.cwe = [] then none else some r.cwe
        file := path, line, endLine := r.endLine, column := r.startCol, rawSeverity := r.severity
        snippet := r.lines, title := r.message
        metadata := some (("engine", .str "semgrep") ::
          (r.owasp.toList.map fun owasp => ("owasp", owasp)) ++ tags) } }

/-- `GitleaksFinding`. -/
structure GitleaksFinding where
  ruleId : Option String := none
  file : Option String := none
  startLine : Option ℕ := none
  endLine : Option ℕ := none
  description : Option String := none

/-- `candidatesFromGitleaks`, for one finding. -/
def candidateFromGitleaks (f : GitleaksFinding) : RawFinding :=
  let rule := f.ruleId.getD "gitleaks-secret"
  { spec :=
      { source := .gitleaks, ruleId := rule, category := .hardcodedSecret
        file := NodePath.stripDotSlash (f.file.getD ""), line := f.startLine.getD 0, endLine := f.endLine
        rawSeverity := .high, snippet := some s!"secret detected by gitleaks rule '{rule}' (value redacted)"
        title := some (f.description.getD s!"Hardcoded secret ({rule})")
        metadata := some [("detector", .str "gitleaks"), ("rule", .str rule)] } }

/-! ## Files -/

/-- A hit of a detector that looks at the files one by one: those of `secrets.ts`, `ai-security.ts` and
`iac.ts`. -/
structure FileHit where
  file : String
  source : Option ToolSource := none
  rule : String
  category : Category
  cwe : Option (List String) := none
  severity : Severity
  line : ℕ
  snippet : String
  title : String
  metadata : Option (List (String × Json)) := none

/-- The finding of a hit. -/
def FileHit.finding (raw : FileHit) : RawFinding :=
  { spec :=
      { source := raw.source.getD .custom, ruleId := raw.rule, category := raw.category, cwe := raw.cwe
        file := raw.file, line := raw.line, rawSeverity := raw.severity, snippet := some raw.snippet
        title := some raw.title, metadata := raw.metadata } }

/-! ## Dependencies -/

/-- `InstalledPackage`. -/
structure InstalledPackage where
  name : String
  version : String

/-- `ResolvedDeps`. -/
structure ResolvedDeps where
  packages : List InstalledPackage := []
  lockfile : Option String := none
  packageJsonPath : Option String := none
  packageJsonContent : Option String := none

/-- The line at which a text first stands in what is left of a content. -/
def lineFrom (needle : List Char) : List Char → ℕ → ℕ
  | [], line => if needle = [] then line else 0
  | c :: cs, line =>
    if needle.isPrefixOf (c :: cs) then line else lineFrom needle cs (if c = '\n' then line + 1 else line)

/-- `lineOfFirst`: zero when the text is not there. -/
def lineOfFirst (content needle : String) : ℕ := lineFrom needle.toList content.toList 1

namespace ResolvedDeps

variable (resolved : ResolvedDeps)

/-- The file that findings about dependencies are anchored in. -/
def anchorFile : String :=
  (resolved.packageJsonPath.or resolved.lockfile).getD "package.json"

/-- `lineFor`. -/
def lineFor (name : String) : ℕ :=
  match resolved.packageJsonContent.filter (· ≠ "") with
  | some content => lineOfFirst content s!"\"{name}\""
  | none => 0

end ResolvedDeps

/-- `Advisory`. -/
structure Advisory where
  id : String
  fromGhsa : Bool := false
  cwe : List String := []
  severity : Severity
  summary : String
  aliases : List String := []
  fixedVersion : Option String := none
  vulnerableRange : String

/-- The finding of `detectDependencies` for a package and an advisory that matches it. -/
def advisoryFinding (resolved : ResolvedDeps) (reachable : String → Bool) (pkg : InstalledPackage)
    (adv : Advisory) : RawFinding :=
  { spec :=
      { source := if adv.fromGhsa then .ghsa else .osv, ruleId := adv.id, category := .vulnerableDependency
        cwe := some adv.cwe, file := resolved.anchorFile, line := resolved.lineFor pkg.name
        rawSeverity := adv.severity, snippet := some s!"{pkg.name}@{pkg.version} — {adv.summary}"
        title := some s!"Vulnerable dependency: {pkg.name}@{pkg.version} ({adv.id})", idExtra := some adv.id
        metadata := some (
          [("detector", .str "sca"), ("package", .str pkg.name), ("version", .str pkg.version),
            ("advisoryId", .str adv.id), ("aliases", .arr (adv.aliases.map .str))] ++
          (adv.fixedVersion.toList.map fun v => ("fixedVersion", .str v)) ++
          [("vulnerableRange", .str adv.vulnerableRange), ("ecosystem", .str "npm"),
            ("reachable", .bool (reachable pkg.name))]) }
    package := some pkg.name, version := some pkg.version, advisory := some adv.id }

/-! ## The supply chain -/

/-- `TyposquatMatch`. -/
structure TyposquatMatch where
  pkg : InstalledPackage
  matchedPopular : String
  distance : ℕ

/-- `InstallScriptFinding`, with the parts that are shown. -/
structure InstallScriptFinding where
  packageName : String
  hook : String
  severity : Severity
  reasons : List String

/-- `SuspiciousResolution`. -/
structure SuspiciousResolution where
  packageName : String
  host : String

/-- What the checks of `detectSupplyChainRisks` have found. -/
structure SupplyChainHits where
  typosquats : List TyposquatMatch := []
  ownHooks : List InstallScriptFinding := []
  dependencyHooks : List InstallScriptFinding := []
  suspiciousNames : List InstalledPackage := []
  registryResolutions : List SuspiciousResolution := []

section SupplyChain

variable (resolved : ResolvedDeps)

/-- `push`: it gives no extra discriminator. -/
def supplyChainFinding (rule : String) (severity : Severity) (packageName : String)
    (version : Option String) (snippet title : String) (metadata : List (String × Json)) (line : ℕ) :
    RawFinding :=
  { spec :=
      { source := .custom, ruleId := rule, category := .vulnerableDependency, file := resolved.anchorFile, line
        rawSeverity := severity, snippet := some snippet, title := some title, metadata := some metadata }
    package := some packageName, version }

/-- A name that is close to that of a popular package. -/
def typosquatFinding (hit : TyposquatMatch) : RawFinding :=
  supplyChainFinding resolved "supply-chain.typosquat" (if hit.distance = 1 then .high else .medium)
    hit.pkg.name (some hit.pkg.version)
    s!"\"{hit.pkg.name}\" is edit-distance {hit.distance} from popular package \"{hit.matchedPopular}\""
    s!"Possible typosquat: \"{hit.pkg.name}\" closely resembles \"{hit.matchedPopular}\""
    [("detector", .str "supply-chain"), ("check", .str "typosquat"), ("package", .str hit.pkg.name),
      ("matchedPopular", .str hit.matchedPopular), ("distance", .num hit.distance)]
    (resolved.lineFor hit.pkg.name)

/-- The metadata of an install hook. -/
def hookMetadata (check : String) (f : InstallScriptFinding) : List (String × Json) :=
  [("detector", .str "supply-chain"), ("check", .str check), ("hook", .str f.hook),
    ("reasons", .arr (f.reasons.map .str))]

/-- An install hook of the project itself. -/
def ownHookFinding (f : InstallScriptFinding) : RawFinding :=
  supplyChainFinding resolved ("supply-chain.install-script." ++ f.hook) f.severity f.packageName none
    (if f.reasons ≠ [] then "; ".intercalate f.reasons else s!"{f.hook} script present")
    (match f.reasons with
      | reason :: _ => s!"Suspicious {f.hook} script: {reason}"
      | [] => s!"Project defines a {f.hook} script (review before trusting CI installs)")
    (hookMetadata "install-script" f) (resolved.lineFor f.hook)

/-- A suspicious install hook of a dependency. -/
def dependencyHookFinding (f : InstallScriptFinding) : RawFinding :=
  supplyChainFinding resolved ("supply-chain.dependency-install-script." ++ f.hook) f.severity f.packageName
    none ("; ".intercalate f.reasons)
    (s!"Dependency \"{f.packageName}\" has a suspicious {f.hook} script: " ++ f.reasons.headD "")
    (hookMetadata "dependency-install-script" f) (resolved.lineFor f.packageName)

/-- A name with characters outside ASCII. -/
def suspiciousNameFinding (pkg : InstalledPackage) : RawFinding :=
  supplyChainFinding resolved "supply-chain.suspicious-package-name" .high pkg.name (some pkg.version)
    "package name contains non-ASCII/zero-width/bidi-control characters"
    s!"Suspicious package name (non-ASCII/homoglyph characters): \"{pkg.name}\""
    [("detector", .str "supply-chain"), ("check", .str "suspicious-name"), ("package", .str pkg.name)]
    (resolved.lineFor pkg.name)

/-- A package that comes from another registry. -/
def registryFinding (r : SuspiciousResolution) : RawFinding :=
  supplyChainFinding resolved "supply-chain.non-standard-registry" .high r.packageName none
    s!"resolved from \"{r.host}\" instead of the standard npm registry"
    s!"Dependency \"{r.packageName}\" resolves from a non-standard registry host: {r.host}"
    [("detector", .str "supply-chain"), ("check", .str "non-standard-registry"),
      ("package", .str r.packageName), ("host", .str r.host)]
    (resolved.lineFor r.packageName)

/-- `detectSupplyChainRisks`: the hooks of dependencies only where there is a reason to suspect them. -/
def supplyChainFindings (hits : SupplyChainHits) : List RawFinding :=
  hits.typosquats.map (typosquatFinding resolved) ++
    (if (resolved.packageJsonContent.filter (· ≠ "")).isSome then hits.ownHooks.map (ownHookFinding resolved)
      else []) ++
    (hits.dependencyHooks.filter (·.reasons ≠ [])).map (dependencyHookFinding resolved) ++
    hits.suspiciousNames.map (suspiciousNameFinding resolved) ++
    hits.registryResolutions.map (registryFinding resolved)

end SupplyChain

/-! ## A run -/

/-- What the detectors of a run have to go by. -/
structure Detected where
  sast : List SemgrepResult := []
  /-- The rulesets are packs of the registry, each resolved by a process of its own. -/
  registryPacks : Bool := true
  gitleaks : List GitleaksFinding := []
  custom : List FileHit := []
  resolved : ResolvedDeps := {}
  reachable : String → Bool := fun _ => false
  advisories : List (InstalledPackage × Advisory) := []
  aiSecurity : List FileHit := []
  iac : List FileHit := []
  iacSast : List SemgrepResult := []
  supplyChain : SupplyChainHits := {}

namespace Detected

variable (run : Detected)

/-- The findings of the SAST agent. -/
def sastFindings : List RawFinding := run.sast.filterMap (candidateFromSemgrep [])

/-- The findings of the other detectors, in the order in which they are merged. -/
def otherFindings : List RawFinding :=
  run.gitleaks.map candidateFromGitleaks ++ run.custom.map FileHit.finding ++
    run.advisories.map (fun hit => advisoryFinding run.resolved run.reachable hit.1 hit.2) ++
    run.aiSecurity.map FileHit.finding ++ run.iac.map FileHit.finding ++
    run.iacSast.filterMap (candidateFromSemgrep [("pass", .str "iac")]) ++
    supplyChainFindings run.resolved run.supplyChain

/-- All raw findings of the run. -/
def findings : List RawFinding := run.sastFindings ++ run.otherFindings

end Detected

end MontrSecure
