import MontrSecure.Discovery.Run

/-!
# What deduplication merges

Which findings of a run have a candidate of their own among those that `runDiscoveryDetailed` returns. Two
findings get one id when they have one source and agree in the text of rule, file, line and extra
discriminator, whatever packages they are about.
-/

namespace MontrSecure

/-! ## Findings -/

/-- What makes a finding a different one. -/
structure FindingIdentity where
  source : ToolSource
  rule : String
  file : String
  line : ℕ
  package : Option String
  version : Option String
  advisory : Option String
  deriving DecidableEq

namespace RawFinding

/-- The identity of a finding. -/
def identity (f : RawFinding) : FindingIdentity :=
  { source := f.spec.source, rule := f.spec.ruleId, file := f.spec.file, line := f.spec.line
    package := f.package, version := f.version, advisory := f.advisory }

/-- Two findings have one source, and one text of rule, file, line and discriminator. -/
def SameKey (a b : RawFinding) : Prop := a.spec.source = b.spec.source ∧ a.spec.place = b.spec.place

instance : DecidableRel SameKey := fun _ _ => inferInstanceAs (Decidable (_ ∧ _))

/-- The scope lets a finding through. -/
def passes (scope : Option ScanScope) (f : RawFinding) : Bool := inScope f.spec.file scope

end RawFinding

open RawFinding

/-- The discriminator of a finding is its advisory. -/
theorem idExtra_of_mem_findings {run : Detected} {f : RawFinding} (h : f ∈ run.findings) :
    f.spec.idExtra = f.advisory := by
  have hsemgrep : ∀ tags r, candidateFromSemgrep tags r = some f → f.spec.idExtra = f.advisory := by
    intro tags r hr
    simp only [candidateFromSemgrep, Option.bind_eq_bind, Option.bind_eq_some_iff, Option.pure_def,
      Option.some.injEq] at hr
    obtain ⟨-, -, -, -, -, -, rfl⟩ := hr
    rfl
  unfold Detected.findings Detected.sastFindings Detected.otherFindings supplyChainFindings at h
  simp only [List.mem_append, List.mem_filterMap, List.mem_map] at h
  obtain ⟨r, -, hr⟩ | (((((⟨r, -, rfl⟩ | ⟨r, -, rfl⟩) | ⟨r, -, rfl⟩) | ⟨r, -, rfl⟩) | ⟨r, -, rfl⟩) |
    ⟨r, -, hr⟩) | ((((⟨r, -, rfl⟩ | hown) | ⟨r, -, rfl⟩) | ⟨r, -, rfl⟩) | ⟨r, -, rfl⟩) := h
  · exact hsemgrep _ r hr
  · rfl
  · rfl
  · rfl
  · rfl
  · rfl
  · exact hsemgrep _ r hr
  · rfl
  · split at hown
    · obtain ⟨r, -, rfl⟩ := List.mem_map.mp hown
      rfl
    · cases hown
  · rfl
  · rfl
  · rfl

/-- Findings of one identity have one key. -/
theorem sameKey_of_identity {run : Detected} {a b : RawFinding} (ha : a ∈ run.findings)
    (hb : b ∈ run.findings) (h : a.identity = b.identity) : SameKey a b := by
  obtain ⟨hsource, hrule, hfile, hline, -, -, hadvisory⟩ := FindingIdentity.mk.inj h
  refine ⟨hsource, ?_⟩
  unfold CandidateSpec.place
  rw [hrule, hfile, hline, idExtra_of_mem_findings ha, idExtra_of_mem_findings hb, hadvisory]

/-! ## Candidates of a run -/

section Candidates

variable {hash : String → String} {input : DiscoveryInput} {out merged : List CandidateFinding}

theorem candidatesOf_eq {ctx : CandidateCtx} {findings : List RawFinding} {cs : List CandidateFinding}
    (h : candidatesOf hash ctx findings = some cs) :
    cs = findings.map fun f => specCandidate hash ctx f.spec := by
  unfold candidatesOf at h
  induction findings generalizing cs with
  | nil =>
    rw [List.mapM_nil] at h
    exact (Option.some.inj h).symm
  | cons f findings ih =>
    rw [List.mapM_cons] at h
    simp only [Option.bind_eq_bind, Option.bind_eq_some_iff, Option.pure_def, Option.some.injEq] at h
    obtain ⟨c, hc, rest, hrest, rfl⟩ := h
    unfold buildCandidate at hc
    dsimp only at hc
    split at hc
    · rw [List.map_cons, ← ih hrest, ← Option.some.inj hc]
    · cases hc

/-- The candidates are those of the first findings of their ids, as far as they are in scope. -/
theorem mem_mergedCandidates (h : mergedCandidates hash input = some merged) {c : CandidateFinding} :
    c ∈ merged ↔ (∃ f, input.detected.findings.find?
        (fun g => candidateId hash g.spec = c.id) = some f ∧ c = specCandidate hash input.ctx f.spec) ∧
      inScope c.location.file input.scope = true := by
  unfold mergedCandidates sastCandidates at h
  simp only [Option.bind_eq_bind, Option.bind_eq_some_iff, Option.map_eq_some_iff, Option.pure_def,
    Option.some.injEq] at h
  obtain ⟨-, ⟨sast, hsast, rfl⟩, others, hothers, rfl⟩ := h
  have hall : sast ++ others =
      input.detected.findings.map fun f => specCandidate hash input.ctx f.spec := by
    rw [candidatesOf_eq hsast, candidatesOf_eq hothers, Detected.findings, List.map_append]
  have hdedup : c ∈ dedupeById ((if input.detected.registryPacks then dedupeById sast else sast) ++ others) ↔
      c ∈ dedupeById (sast ++ others) := by
    split
    · exact List.mem_firstByKey_append
    · rfl
  rw [List.mem_filter, hdedup, hall, dedupeById, List.mem_firstByKey, List.find?_map,
    Option.map_eq_some_iff]
  constructor
  · rintro ⟨⟨f, hf, rfl⟩, hscope⟩
    exact ⟨⟨f, hf, rfl⟩, hscope⟩
  · rintro ⟨⟨f, hf, rfl⟩, hscope⟩
    exact ⟨⟨f, hf, rfl⟩, hscope⟩

/-- A candidate is that of a finding with the identity of `f`, but for annotations. -/
def Shows (hash : String → String) (input : DiscoveryInput) (f : RawFinding) (c : CandidateFinding) : Prop :=
  ∃ g ∈ input.detected.findings, g.identity = f.identity ∧
    c.unannotated = (specCandidate hash input.ctx g.spec).unannotated

/-- Findings of different identities have candidates of their own, as far as they are in scope. -/
def KeepsApart (hash : String → String) (input : DiscoveryInput) (out : List CandidateFinding) : Prop :=
  ∀ a ∈ input.detected.findings, ∀ b ∈ input.detected.findings, a.identity ≠ b.identity →
    a.passes input.scope = true → ∃ c ∈ out, Shows hash input a c ∧
      (b.passes input.scope = true → ∃ d ∈ out, Shows hash input b d ∧ c.id ≠ d.id)

/-- The id of a candidate is that of the findings it shows. -/
theorem Shows.id_eq {f : RawFinding} {c : CandidateFinding} (h : Shows hash input f c)
    (hf : f ∈ input.detected.findings) : c.id = candidateId hash f.spec := by
  obtain ⟨g, hg, hidentity, hc⟩ := h
  have hid : c.id = candidateId hash g.spec := congrArg CandidateFinding.id hc
  obtain ⟨hsource, hplace⟩ := sameKey_of_identity hg hf hidentity
  rw [hid, candidateId, candidateId, hsource, hplace]

/-- What the run returns shows a finding when the first finding of its key is in scope and has its identity. -/
theorem shows_first (hinj : Function.Injective hash) (hout : runDiscoveryDetailed hash input = some out)
    {a f : RawFinding} (hfirst : input.detected.findings.find? (SameKey a ·) = some f)
    (hscope : f.passes input.scope = true) (hidentity : f.identity = a.identity) :
    ∃ c ∈ out, Shows hash input a c := by
  obtain ⟨merged, hmerged, -⟩ := Option.map_eq_some_iff.mp hout
  have hfind : input.detected.findings.find?
      (fun g => candidateId hash g.spec = (specCandidate hash input.ctx f.spec).id) = some f := by
    have hkey : SameKey a f := by simpa using List.find?_some hfirst
    rw [← hfirst]
    congr 1
    funext g
    refine decide_eq_decide.mpr ((candidateId_eq_iff hinj).trans ?_)
    unfold SameKey at hkey ⊢
    rw [hkey.1, hkey.2]
    exact and_congr eq_comm eq_comm
  have hmem : specCandidate hash input.ctx f.spec ∈ merged :=
    (mem_mergedCandidates hmerged).mpr ⟨⟨f, hfind, rfl⟩, hscope⟩
  have hshown := (perm_runDiscoveryDetailed hmerged hout).mem_iff.mpr (List.mem_map_of_mem hmem)
  obtain ⟨c, hc, hsame⟩ := List.mem_map.mp hshown
  exact ⟨c, hc, f, List.mem_of_find?_eq_some hfirst, hidentity, hsame⟩

/-- What the run returns is of a finding that is the first of its key and in scope. -/
theorem exists_first_of_mem (hinj : Function.Injective hash)
    (hout : runDiscoveryDetailed hash input = some out) {a : RawFinding}
    (ha : a ∈ input.detected.findings) {c : CandidateFinding} (hc : c ∈ out) (hshows : Shows hash input a c) :
    ∃ f, input.detected.findings.find? (SameKey a ·) = some f ∧ f.passes input.scope = true := by
  obtain ⟨merged, hmerged, -⟩ := Option.map_eq_some_iff.mp hout
  have hshown := (perm_runDiscoveryDetailed hmerged hout).mem_iff.mp (List.mem_map_of_mem hc)
  obtain ⟨m, hm, hsame⟩ := List.mem_map.mp hshown
  obtain ⟨⟨f, hfind, rfl⟩, hscope⟩ := (mem_mergedCandidates hmerged).mp hm
  have hid : (specCandidate hash input.ctx f.spec).id = candidateId hash a.spec :=
    (congrArg CandidateFinding.id hsame).trans (hshows.id_eq ha)
  refine ⟨f, ?_, hscope⟩
  rw [← hfind, hid]
  congr 1
  funext g
  refine decide_eq_decide.mpr (((candidateId_eq_iff hinj).trans ?_).symm)
  exact and_congr eq_comm eq_comm

end Candidates

/-! ## Which findings are kept apart -/

/-- No two findings in scope with different identities have one key, and the first finding with the key of one
in scope is in scope. -/
def DistinctKeys (findings : List RawFinding) (scope : Option ScanScope) : Prop :=
  ∀ a ∈ findings, ∀ b ∈ findings, a.identity ≠ b.identity → a.passes scope = true →
    (∀ f, findings.find? (SameKey a ·) = some f → f.passes scope = true) ∧
      (b.passes scope = true → ¬SameKey a b)

/-- Rule and file are without the separator. -/
def RawFinding.Plain (f : RawFinding) : Prop :=
  '|' ∉ f.spec.ruleId.toList ∧ '|' ∉ f.spec.file.toList

/-- For such findings the key is rule, file, line and discriminator. -/
theorem sameKey_iff_of_plain {a b : RawFinding} (ha : a.Plain) (hb : b.Plain) :
    SameKey a b ↔ a.spec.source = b.spec.source ∧ a.spec.ruleId = b.spec.ruleId ∧
      a.spec.file = b.spec.file ∧ a.spec.line = b.spec.line ∧
        a.spec.idExtra.getD "" = b.spec.idExtra.getD "" := by
  have hdigits : ∀ n : ℕ, '|' ∉ (toString n).toList := by
    exact fun n hmem => absurd (Text.isDigit_of_mem_toString hmem) (by decide)
  have hplace : ∀ spec : CandidateSpec, spec.place.toList = spec.ruleId.toList ++ '|' ::
      (spec.file.toList ++ '|' :: ((toString spec.line).toList ++ '|' :: (spec.idExtra.getD "").toList)) := by
    intro spec
    simp [CandidateSpec.place]
  refine and_congr_right fun _ => ?_
  constructor
  · intro h
    have hchars := congrArg String.toList h
    rw [hplace, hplace] at hchars
    obtain ⟨hrule, hrest⟩ := append_separator_inj ha.1 hb.1 hchars
    obtain ⟨hfile, hrest⟩ := append_separator_inj ha.2 hb.2 hrest
    obtain ⟨hline, hextra⟩ := append_separator_inj (hdigits _) (hdigits _) hrest
    refine ⟨String.toList_inj.mp hrule, String.toList_inj.mp hfile, ?_, String.toList_inj.mp hextra⟩
    rw [Nat.toString_eq_ofList_toDigits, Nat.toString_eq_ofList_toDigits, String.toList_ofList,
      String.toList_ofList] at hline
    rw [← Nat.ofDigitChars_ten_toDigits (n := a.spec.line), hline, Nat.ofDigitChars_ten_toDigits]
  · rintro ⟨hrule, hfile, hline, hextra⟩
    unfold CandidateSpec.place
    rw [hrule, hfile, hline, hextra]

/-- Where no rule and no file has the separator in it, findings are merged just when they agree in source,
rule, file, line and advisory. -/
theorem distinctKeys_iff_of_plain {run : Detected} {scope : Option ScanScope}
    (hplain : ∀ f ∈ run.findings, f.Plain) :
    DistinctKeys run.findings scope ↔ ∀ a ∈ run.findings, ∀ b ∈ run.findings, a.passes scope = true →
      a.spec.source = b.spec.source → a.spec.ruleId = b.spec.ruleId → a.spec.file = b.spec.file →
        a.spec.line = b.spec.line → a.advisory.getD "" = b.advisory.getD "" → a.identity = b.identity := by
  have hkey : ∀ a ∈ run.findings, ∀ b ∈ run.findings, (SameKey a b ↔ a.spec.source = b.spec.source ∧
      a.spec.ruleId = b.spec.ruleId ∧ a.spec.file = b.spec.file ∧ a.spec.line = b.spec.line ∧
        a.advisory.getD "" = b.advisory.getD "") := by
    intro a ha b hb
    rw [sameKey_iff_of_plain (hplain a ha) (hplain b hb), idExtra_of_mem_findings ha,
      idExtra_of_mem_findings hb]
  constructor
  · intro h a ha b hb hscope hsource hrule hfile hline hadvisory
    by_contra hne
    have hscopeb : b.passes scope = true := by rw [passes, ← hfile]; exact hscope
    exact (h a ha b hb hne hscope).2 hscopeb
      ((hkey a ha b hb).mpr ⟨hsource, hrule, hfile, hline, hadvisory⟩)
  · intro h a ha b hb hne hscope
    refine ⟨fun f hf => ?_, fun _ hsame => ?_⟩
    · have hsame : SameKey a f := by simpa using List.find?_some hf
      obtain ⟨-, -, hfile, -⟩ := (hkey a ha f (List.mem_of_find?_eq_some hf)).mp hsame
      rw [passes, ← hfile]
      exact hscope
    · obtain ⟨hsource, hrule, hfile, hline, hadvisory⟩ := (hkey a ha b hb).mp hsame
      exact hne (h a ha b hb hscope hsource hrule hfile hline hadvisory)

/-- An input about dependencies that are installed and that the manifest does not name. -/
private def lockfileInput (typosquats : List TyposquatMatch) : DiscoveryInput :=
  { ctx := { clientId := "c", scanId := "s", now := 0 }
    appMap := { id := "am", clientId := "c", repo := "r", branch := "main", commitSha := "", createdAt := 0 }
    detected :=
      { resolved :=
          { lockfile := some "package-lock.json", packageJsonPath := some "package.json"
            packageJsonContent := some "\x7b \"name\": \"app\" \x7d" }
        supplyChain := { typosquats } } }

private def expresss : TyposquatMatch :=
  { pkg := { name := "expresss", version := "1.0.0" }, matchedPopular := "express", distance := 1 }

private def lodahs : TyposquatMatch :=
  { pkg := { name := "lodahs", version := "1.0.0" }, matchedPopular := "lodash", distance := 2 }

end MontrSecure
