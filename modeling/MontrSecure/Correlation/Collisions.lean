import MontrSecure.Correlation.Conservation
import Mathlib.Data.FinEnum
import Mathlib.Data.Fintype.Pigeonhole

/-!
# Ids that collide

The id of a probable finding is a 32-bit hash, and a scan has no bound on the keys its findings may
have. In every scan two different root causes can get one id (`exists_collision`), and the second of
two findings with one id is not stored.
-/

namespace MontrSecure

open Text

example : fnv1a "foobar" = "bf9cf968" := by decide +kernel

/-- Different dedup keys of a scan give different ids. -/
def DistinctIds (scanId : ScanId) : Prop :=
  ∀ input : CorrelateInput, input.WellFormed → input.scanId = scanId →
    ∀ g ∈ groupCandidates input.candidates input.appMap,
      ∀ g' ∈ groupCandidates input.candidates input.appMap, g.key ≠ g'.key →
        makeProbableId scanId (makeRootCauseId scanId g.category g.key) ≠
          makeProbableId scanId (makeRootCauseId scanId g'.category g'.key)

/-! ## Misconfigured files -/

/-- A misconfiguration of a file. -/
def configCandidate (scanId : ScanId) (file : String) : CandidateFinding :=
  { id := file, scanId, clientId := "client", source := .semgrep, ruleId := "config"
    category := .insecureConfiguration, location := { file, line := 1 }, rawSeverity := .medium
    createdAt := 0 }

/-- An App Map on which the files are entry points. -/
def configAppMap (files : List String) : AppMap :=
  { id := "map", clientId := "client", repo := "repo", branch := "main", commitSha := "0123456"
    entrypoints := files.map fun file => { name := file, location := some { file, line := 1 } }
    createdAt := 0 }

/-- A scan that reports each of the files. -/
def configInput (scanId : ScanId) (files : List String) : CorrelateInput :=
  { queryInput (files.map (configCandidate scanId)) with
    scanId, appMap := configAppMap files }

variable {scanId : ScanId} {files : List String} {file : String}

theorem configInput_wellFormed (hscan : scanId ≠ "") (hfiles : ∀ file ∈ files, file ≠ "") :
    (configInput scanId files).WellFormed := by
  refine ⟨by simp [configInput, configAppMap], hscan, by simp [configInput, queryInput], ?_⟩
  intro c hc
  obtain ⟨file, hfile, rfl⟩ := List.mem_map.mp hc
  simp [CandidateFinding.valid, SourceLocation.valid, configCandidate, hscan, hfiles file hfile]

/-- The key of a misconfiguration is its file. -/
theorem keyOf_configCandidate (appMap : AppMap) :
    keyOf appMap (configCandidate scanId file) = "insecure_configuration@file:" ++ file := rfl

theorem keyOf_configCandidate_inj (appMap : AppMap) {file' : String} :
    keyOf appMap (configCandidate scanId file) = keyOf appMap (configCandidate scanId file') ↔
      file = file' := by
  rw [keyOf_configCandidate, keyOf_configCandidate]
  exact String.append_right_inj _

/-- A misconfiguration of an entry point is corroborated. -/
theorem demote_configCandidate (hfile : file ∈ files) :
    (groundCandidate (configCandidate scanId file) (configAppMap files)).demote = false := by
  have hentry : ((configAppMap files).entrypointsInFile file).head?.isSome = true := by
    rw [List.isSome_head?]
    refine List.ne_nil_of_mem (List.mem_filter.mpr ⟨List.mem_map_of_mem hfile, ?_⟩)
    simp
  show (!((routeOf _ _).isSome || ((configAppMap files).entrypointsInFile file).head?.isSome) || false) =
    false
  rw [hentry, Bool.or_true]
  rfl

/-- A file of the scan has a group of its own. -/
theorem exists_group_configInput (scanId : ScanId) (hfile : file ∈ files) :
    ∃ group ∈ groupCandidates (configInput scanId files).candidates (configAppMap files),
      group.key = "insecure_configuration@file:" ++ file ∧
        group.category = .insecureConfiguration ∧
        group.representative = configCandidate scanId file ∧
        group.representative ∈ group.candidates ∧
        ∀ c ∈ group.candidates, c = configCandidate scanId file := by
  have hmem : configCandidate scanId file ∈ (configInput scanId files).candidates :=
    List.mem_map_of_mem hfile
  obtain ⟨group, hgroup, -, hkey⟩ := exists_mem_groupCandidates (configAppMap files) hmem
  obtain ⟨hcandidates, hrep, hcategory, -⟩ := of_mem_groupCandidates hgroup
  have hall : ∀ c ∈ group.candidates, c = configCandidate scanId file := by
    intro c hc
    rw [hcandidates, List.mem_filter, decide_eq_true_eq] at hc
    obtain ⟨file', -, rfl⟩ := List.mem_map.mp hc.1
    rw [(keyOf_configCandidate_inj _).mp (hc.2.trans hkey)]
  refine ⟨group, hgroup, hkey.trans (keyOf_configCandidate _), ?_, hall _ hrep, hrep, hall⟩
  rw [hcategory, hall _ hrep]
  rfl

/-- The id of the misconfiguration of a file. -/
def configId (scanId : ScanId) (file : String) : EntityId :=
  makeProbableId scanId
    (makeRootCauseId scanId .insecureConfiguration ("insecure_configuration@file:" ++ file))

/-- A file of the scan has a probable finding of its own. -/
theorem exists_probable_configInput (scanId : ScanId) (hfile : file ∈ files) :
    ∃ f ∈ (configInput scanId files).probable, f.id = configId scanId file ∧
      file ∈ f.mergedCandidateIds ∧ ∀ id ∈ f.mergedCandidateIds, id = file := by
  obtain ⟨group, hgroup, hkey, -, hrep, hmem, hall⟩ := exists_group_configInput scanId hfile
  obtain ⟨-, -, -, hgrounding⟩ := of_mem_groupCandidates hgroup
  have hcached : cachedGrounding (configInput scanId files).candidates (configAppMap files)
      (configCandidate scanId file) =
        groundCandidate (configCandidate scanId file) (configAppMap files) := by
    unfold cachedGrounding
    split
    · rename_i c hfind
      obtain ⟨file', -, rfl⟩ :=
        List.mem_map.mp (List.mem_reverse.mp (List.mem_of_find?_eq_some hfind))
      have hsame := List.find?_some hfind
      have hid : file' = file := of_decide_eq_true hsame
      rw [hid]
    · rfl
  have hpromoted : ∀ n, (configInput scanId files).demotes n group = false := by
    intro n
    rw [CorrelateInput.demotes, hgrounding, hrep, hcached, demote_configCandidate hfile]
    rfl
  obtain ⟨f, hf, n, i, rfl⟩ := CorrelateInput.exists_probable_of_group hgroup hpromoted
  refine ⟨_, hf, ?_, ?_, fun id hid => ?_⟩
  · show makeProbableId scanId (makeRootCauseId scanId group.representative.category group.key) = _
    rw [hrep, hkey]
    rfl
  · exact List.mem_map.mpr ⟨_, hmem, by rw [hrep]; rfl⟩
  · obtain ⟨c, hc, rfl⟩ := List.mem_map.mp hid
    rw [hall c hc]
    rfl

/-! ## The pigeonhole -/

/-- The files the collision is found among. -/
def manyFiles (n : ℕ) : String := String.ofList (List.replicate (n + 1) 'a')

theorem manyFiles_injective : Function.Injective manyFiles := by
  intro m n h
  have hlength := congrArg List.length (String.ofList_injective h)
  simpa using hlength

theorem manyFiles_ne_empty (n : ℕ) : manyFiles n ≠ "" := by
  intro h
  have hlength := congrArg (fun s => s.toList.length) h
  simp [manyFiles] at hlength

/-- Two different files have misconfigurations with one id. -/
theorem exists_collision (scanId : ScanId) :
    ∃ file file', file ≠ "" ∧ file' ≠ "" ∧ file ≠ file' ∧
      configId scanId file = configId scanId file' := by
  -- The id shows a number of 32 bits.
  obtain ⟨m, n, hne, hhash⟩ := Finite.exists_ne_map_eq_of_infinite fun n : ℕ =>
    fnv1aHash (scanId ++ "|" ++
      makeRootCauseId scanId .insecureConfiguration
        ("insecure_configuration@file:" ++ manyFiles n))
  refine ⟨manyFiles m, manyFiles n, manyFiles_ne_empty m, manyFiles_ne_empty n,
    fun h => hne (manyFiles_injective h), ?_⟩
  rw [configId, configId, makeProbableId, makeProbableId, fnv1a, fnv1a, hhash]

/-- Two files with one id: a scan of them has two groups and two findings with that id. -/
theorem not_distinctIds_of_collision (hscan : scanId ≠ "") {file file' : String} (hfile : file ≠ "")
    (hfile' : file' ≠ "") (hne : file ≠ file') (hid : configId scanId file = configId scanId file') :
    ¬DistinctIds scanId ∧
      ∃ input : CorrelateInput, input.WellFormed ∧ input.scanId = scanId ∧
        ∃ out, correlate input = .ok out ∧ ∃ f ∈ out.probable, ∃ f' ∈ out.probable,
          f.id = f'.id ∧ f.mergedCandidateIds ≠ f'.mergedCandidateIds := by
  have hwellFormed : (configInput scanId [file, file']).WellFormed :=
    configInput_wellFormed hscan (by simp [hfile, hfile'])
  have hmem : file ∈ [file, file'] := List.mem_cons_self
  have hmem' : file' ∈ [file, file'] := List.mem_cons_of_mem _ List.mem_cons_self
  refine ⟨fun hdistinct => ?_, _, hwellFormed, rfl, _, CorrelateInput.correlate_eq_ok hwellFormed, ?_⟩
  · obtain ⟨g, hg, hkey, hcategory, -⟩ := exists_group_configInput scanId hmem
    obtain ⟨g', hg', hkey', hcategory', -⟩ := exists_group_configInput scanId hmem'
    have hkeys : g.key ≠ g'.key := by
      rw [hkey, hkey']
      exact fun h => hne ((String.append_right_inj _).mp h)
    refine hdistinct _ hwellFormed rfl g hg g' hg' hkeys ?_
    rw [hcategory, hcategory', hkey, hkey']
    exact hid
  · obtain ⟨f, hf, hfId, hfile, -⟩ := exists_probable_configInput scanId hmem
    obtain ⟨f', hf', hfId', -, hall'⟩ := exists_probable_configInput scanId hmem'
    refine ⟨f, hf, f', hf', by rw [hfId, hfId', hid], fun hmerged => ?_⟩
    rw [hmerged] at hfile
    exact hne (hall' file hfile)

/-- In no scan are the ids of different keys different: some scan of two misconfigured files gives
two probable findings with one id. -/
theorem not_distinctIds (scanId : ScanId) (hscan : scanId ≠ "") :
    ¬DistinctIds scanId ∧
      ∃ input : CorrelateInput, input.WellFormed ∧ input.scanId = scanId ∧
        ∃ out, correlate input = .ok out ∧ ∃ f ∈ out.probable, ∃ f' ∈ out.probable,
          f.id = f'.id ∧ f.mergedCandidateIds ≠ f'.mergedCandidateIds := by
  obtain ⟨file, file', hfile, hfile', hne, hid⟩ := exists_collision scanId
  exact not_distinctIds_of_collision hscan hfile hfile' hne hid

theorem not_distinctIds_scan :
    ¬DistinctIds "scan" ∧
      ∃ input : CorrelateInput, input.WellFormed ∧ input.scanId = "scan" ∧
        ∃ out, correlate input = .ok out ∧ ∃ f ∈ out.probable, ∃ f' ∈ out.probable,
          f.id = f'.id ∧ f.mergedCandidateIds ≠ f'.mergedCandidateIds :=
  not_distinctIds "scan" (by decide)

/-- Two files of one scan whose findings have one id. -/
theorem collision_of_configFiles :
    configId "scan" "src/config9724.ts" = "prob_a382adca" ∧
      configId "scan" "src/config19112.ts" = "prob_a382adca" ∧ ¬DistinctIds "scan" := by
  have hid : configId "scan" "src/config9724.ts" = "prob_a382adca" := by decide +kernel
  have hid' : configId "scan" "src/config19112.ts" = "prob_a382adca" := by decide +kernel
  have hcollision : configId "scan" "src/config9724.ts" = configId "scan" "src/config19112.ts" :=
    hid.trans hid'.symm
  exact ⟨hid, hid', (not_distinctIds_of_collision (by decide) (by decide) (by decide) (by decide)
    hcollision).1⟩

end MontrSecure
