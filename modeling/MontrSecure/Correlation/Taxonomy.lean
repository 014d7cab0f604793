import MontrSecure.Contracts.Layers
import MontrSecure.Text.Utf16

/-!
# Taxonomy

`packages/correlation/src/taxonomy.ts`: how a category is classified, and the priors the ranking is
built on.
-/

namespace MontrSecure

/-- `FindingClass`. -/
inductive FindingClass where
  | injection
  | config
  | secret
  | dependency
  | access
  | other
  deriving DecidableEq

/-- `classifyCategory`. -/
def classifyCategory : Category → FindingClass
  | .sqlInjection | .nosqlInjection | .commandInjection | .xss | .ssrf | .pathTraversal
  | .insecureDeserialization | .xxe | .openRedirect | .promptInjection => .injection
  | .hardcodedSecret | .sensitiveDataExposure => .secret
  | .vulnerableDependency => .dependency
  | .brokenAccessControl | .brokenAuthentication | .idor | .massAssignment => .access
  | .permissiveCors | .missingSecurityHeaders | .insecureCookie | .weakCrypto | .csrf
  | .rateLimitMissing | .insufficientLogging | .insecureConfiguration => .config
  | .other => .other

/-- `SEVERITY_WEIGHT`. -/
def severityWeight : Severity → ℚ
  | .info => 1 / 10
  | .low => 3 / 10
  | .medium => 1 / 2
  | .high => 3 / 4
  | .critical => 1

/-- `CATEGORY_IMPACT_BASE`. -/
def categoryImpactBase : Category → ℚ
  | .sqlInjection => 9 / 10
  | .nosqlInjection => 17 / 20
  | .commandInjection => 19 / 20
  | .xss => 7 / 10
  | .ssrf => 4 / 5
  | .pathTraversal => 3 / 4
  | .insecureDeserialization => 9 / 10
  | .hardcodedSecret => 17 / 20
  | .vulnerableDependency => 7 / 10
  | .permissiveCors => 7 / 20
  | .missingSecurityHeaders => 1 / 4
  | .insecureCookie => 7 / 20
  | .weakCrypto => 3 / 5
  | .brokenAccessControl => 17 / 20
  | .brokenAuthentication => 9 / 10
  | .openRedirect => 2 / 5
  | .xxe => 7 / 10
  | .csrf => 1 / 2
  | .sensitiveDataExposure => 7 / 10
  | .insufficientLogging => 1 / 5
  | .idor => 7 / 10
  | .massAssignment => 3 / 5
  | .rateLimitMissing => 3 / 10
  | .promptInjection => 3 / 4
  | .insecureConfiguration => 7 / 20
  | .other => 2 / 5

/-- A category is known by its token. -/
theorem Category.name_injective : Function.Injective Category.name := by
  intro c d h
  cases c <;> cases d <;> first | rfl | exact absurd h (by decide)

end MontrSecure

/-!
## Ids of findings

`packages/correlation/src/hash.ts`: ids that are the same in every run, from a 32-bit hash.
-/

namespace MontrSecure

open Text

/-- The last `n` hexadecimal digits of a number. -/
def hexDigits : ℕ → ℕ → List Char
  | 0, _ => []
  | n + 1, h => hexDigits n (h / 16) ++ [Nat.digitChar (h % 16)]

/-- A step of `fnv1a`: `Math.imul(hash ^ unit, 0x01000193) >>> 0`. -/
def fnv1aStep (hash : UInt32) (c : ℕ) : UInt32 := (hash ^^^ c.toUInt32) * 0x01000193

/-- The number `fnv1a` shows. -/
def fnv1aHash (input : String) : UInt32 := (units input).foldl fnv1aStep 0x811c9dc5

/-- `fnv1a`. -/
def fnv1a (input : String) : String := String.ofList (hexDigits 8 (fnv1aHash input).toNat)

/-- `makeRootCauseId`. -/
def makeRootCauseId (scanId : ScanId) (category : Category) (key : String) : EntityId :=
  "rc_" ++ category.name ++ "_" ++ fnv1a (scanId ++ "|" ++ category.name ++ "|" ++ key)

/-- `makeProbableId`. -/
def makeProbableId (scanId : ScanId) (rootCauseId : EntityId) : EntityId :=
  "prob_" ++ fnv1a (scanId ++ "|" ++ rootCauseId)

theorem makeRootCauseId_ne_empty (scanId : ScanId) (category : Category) (key : String) :
    makeRootCauseId scanId category key ≠ "" := by
  simp [makeRootCauseId]

theorem makeProbableId_ne_empty (scanId : ScanId) (rootCauseId : EntityId) :
    makeProbableId scanId rootCauseId ≠ "" := by
  simp [makeProbableId]

end MontrSecure
