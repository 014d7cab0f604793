import MontrSecure.Confirm.Heuristics
import MontrSecure.Confirm.Scenarios
import MontrSecure.Contracts.Schemas
import MontrSecure.Data.FirstByKey

/-!
# Candidates

`packages/discovery/src/util`: the id of a candidate, how one is built from what a detector specifies, and
the deduplication by id. The hash is a parameter: `fnv1a` is one.
-/

namespace MontrSecure

/-- The name of a source. -/
def ToolSource.name : ToolSource → String
  | semgrep => "semgrep"
  | gitleaks => "gitleaks"
  | osv => "osv"
  | ghsa => "ghsa"
  | trivy => "trivy"
  | custom => "custom"
  | llmTriage => "llm-triage"

/-- `CandidateSpec`. -/
structure CandidateSpec where
  source : ToolSource
  ruleId : String
  category : Category
  cwe : Option (List String) := none
  file : String
  line : ℕ
  endLine : Option ℕ := none
  column : Option ℕ := none
  rawSeverity : Severity
  snippet : Option String := none
  title : Option String := none
  metadata : Option (List (String × Json)) := none
  idExtra : Option String := none

/-- What is hashed, after the source: rule, file, line and the extra discriminator. -/
def CandidateSpec.place (spec : CandidateSpec) : String :=
  "|".intercalate [spec.ruleId, spec.file, toString spec.line, spec.idExtra.getD ""]

/-- `candidateId`. -/
def candidateId (hash : String → String) (spec : CandidateSpec) : EntityId :=
  "cand_" ++ spec.source.name ++ "_" ++ hash (spec.source.name ++ "|" ++ spec.place)

/-- `text.replace(/\s+/g, " ")`; `afterSpace` says that a space stands before. -/
def collapseSpaces : List Char → Bool → List Char
  | [], _ => []
  | c :: cs, afterSpace =>
    if isTrimmed c then if afterSpace then collapseSpaces cs true else ' ' :: collapseSpaces cs true
    else c :: collapseSpaces cs false

/-- `toSnippet`. -/
def toSnippet (text : Option String) (max : ℕ) : String :=
  let oneLine := Confirm.trim (String.ofList (collapseSpaces (text.getD "").toList false))
  if max < Text.length oneLine then
    String.ofList (Confirm.takeUnits (max - 1) oneLine.toList) ++ "…"
  else oneLine

/-- `CandidateCtx`; `now` is what the clock reads. -/
structure CandidateCtx where
  clientId : ClientId
  scanId : ScanId
  now : IsoDateTime

/-- The candidate of a spec, before it is checked. -/
def specCandidate (hash : String → String) (ctx : CandidateCtx) (spec : CandidateSpec) : CandidateFinding :=
  { id := candidateId hash spec
    scanId := ctx.scanId
    clientId := ctx.clientId
    source := spec.source
    ruleId := spec.ruleId
    category := spec.category
    cwe := (spec.cwe.filter (· ≠ [])).getD (Confirm.categoryTaxonomy spec.category).cwe
    location := { file := spec.file, line := spec.line, endLine := spec.endLine, column := spec.column }
    rawSeverity := spec.rawSeverity
    evidenceSnippet := toSnippet spec.snippet 200
    title := (spec.title.filter (· ≠ "")).map fun t => toSnippet (some t) 160
    createdAt := ctx.now
    metadata := spec.metadata }

/-- `buildCandidate`; the schema rejects some. -/
def buildCandidate (hash : String → String) (ctx : CandidateCtx) (spec : CandidateSpec) :
    Option CandidateFinding :=
  let candidate := specCandidate hash ctx spec
  if candidate.valid then some candidate else none

/-- `dedupeById`. -/
def dedupeById (candidates : List CandidateFinding) : List CandidateFinding :=
  candidates.firstByKey (·.id)

/-! ## Ids -/

section Ids

variable {hash : String → String} {a b : CandidateSpec}

theorem ToolSource.name_injective : Function.Injective ToolSource.name := by
  intro a b
  cases a <;> cases b <;> simp [ToolSource.name]

/-- A separator that is in neither of two texts splits what they begin. -/
theorem append_separator_inj {α : Type} {sep : α} {s t u v : List α} (hs : sep ∉ s) (ht : sep ∉ t)
    (h : s ++ sep :: u = t ++ sep :: v) : s = t ∧ u = v := by
  induction s generalizing t with
  | nil =>
    cases t with
    | nil => exact ⟨rfl, (List.cons.inj h).2⟩
    | cons d t => exact absurd (List.mem_cons.mpr (.inl (List.cons.inj h).1)) ht
  | cons c s ih =>
    cases t with
    | nil => exact absurd (List.mem_cons.mpr (.inl (List.cons.inj h).1.symm)) hs
    | cons d t =>
      obtain ⟨rfl, hrest⟩ := List.cons.inj h
      obtain ⟨rfl, huv⟩ := ih (fun hmem => hs (List.mem_cons_of_mem _ hmem))
        (fun hmem => ht (List.mem_cons_of_mem _ hmem)) hrest
      exact ⟨rfl, huv⟩

theorem separator_not_mem_name (source : ToolSource) :
    '_' ∉ source.name.toList ∧ '|' ∉ source.name.toList := by
  cases source <;> decide

/-- Under a hash without collisions, an id stands for a source and what is hashed after it. -/
theorem candidateId_eq_iff (hinj : Function.Injective hash) :
    candidateId hash a = candidateId hash b ↔ a.source = b.source ∧ a.place = b.place := by
  constructor
  · intro h
    have hchars := congrArg String.toList h
    unfold candidateId at hchars
    simp only [String.toList_append, List.append_assoc] at hchars
    have hrest := List.append_cancel_left hchars
    obtain ⟨hname, hhash⟩ := append_separator_inj (separator_not_mem_name a.source).1
      (separator_not_mem_name b.source).1 hrest
    have hsource := ToolSource.name_injective (String.toList_inj.mp hname)
    have hkey := congrArg String.toList (hinj (String.toList_inj.mp hhash))
    rw [hsource] at hkey
    simp only [String.toList_append, List.append_assoc] at hkey
    exact ⟨hsource, String.toList_inj.mp (List.append_cancel_left (List.append_cancel_left hkey))⟩
  · rintro ⟨hsource, hplace⟩
    unfold candidateId
    rw [hsource, hplace]

end Ids

end MontrSecure
