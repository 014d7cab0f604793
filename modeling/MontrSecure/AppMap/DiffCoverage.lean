import MontrSecure.AppMap.DiffScope

/-!
# What a diff scan covers

The scope that Layer 0 emits for a diff, against what Layer 1 takes it to say.
-/

namespace MontrSecure

open NodePath

/-! ## What can be reached -/

section Reachability

variable (project : Project) (dir : String)

/-- A source file imports another. -/
def Imports (a b : String) : Prop :=
  (a, b) ∈ importEdges project dir ((filesFromProject project dir).map posix)

/-- The files that changes may affect: the changed source files, what these lead to by imports, and what leads
to them. -/
def Affected (given : List String) (f : String) : Prop :=
  ∃ c ∈ changedSources (filesFromProject project dir) given,
    Relation.ReflTransGen (Imports project dir) c f ∨ Relation.ReflTransGen (Imports project dir) f c

variable {project dir} {given : List String} {f : String}

theorem mem_successors {edges : List (String × String)} {a b : String} :
    b ∈ successors edges a ↔ (a, b) ∈ edges := by
  unfold successors
  rw [List.mem_map]
  constructor
  · rintro ⟨⟨c, d⟩, hmem, rfl⟩
    obtain ⟨hedge, hc⟩ := List.mem_filter.mp hmem
    exact of_decide_eq_true hc ▸ hedge
  · exact fun h => ⟨(a, b), List.mem_filter.mpr ⟨h, decide_eq_true rfl⟩, rfl⟩

theorem mem_bfs_successors {edges : List (String × String)} {start : List String} :
    f ∈ BreadthFirst.bfs (successors edges) (edges.map (·.2)) start ↔
      ∃ c ∈ start, Relation.ReflTransGen (fun a b => (a, b) ∈ edges) c f := by
  have hnodes : ∀ a, ∀ b ∈ successors edges a, b ∈ edges.map (·.2) := fun a b hb =>
    List.mem_map.mpr ⟨(a, b), mem_successors.mp hb, rfl⟩
  rw [BreadthFirst.mem_bfs hnodes]
  simp only [mem_successors]

/-- The scope reaches the changed source files, what these lead to by imports, and what leads to them. -/
theorem mem_reachable_of_sources {sourceFiles : List String} :
    f ∈ (computeDiffScope project dir sourceFiles given).reachable ↔
      ∃ c ∈ changedSources sourceFiles given,
        Relation.ReflTransGen (fun a b => (a, b) ∈ importEdges project dir (sourceFiles.map posix)) c f ∨
          Relation.ReflTransGen (fun a b => (a, b) ∈ importEdges project dir (sourceFiles.map posix)) f c := by
  have hswap : ∀ c, Relation.ReflTransGen
      (fun a b => (a, b) ∈ (importEdges project dir (sourceFiles.map posix)).map Prod.swap) c f ↔
        Relation.ReflTransGen (fun a b => (a, b) ∈ importEdges project dir (sourceFiles.map posix)) f c := by
    intro c
    rw [← Relation.reflTransGen_swap]
    have hedge : (fun a b => (a, b) ∈ (importEdges project dir (sourceFiles.map posix)).map Prod.swap) =
        Function.swap fun a b => (a, b) ∈ importEdges project dir (sourceFiles.map posix) := by
      ext a b
      simp [Function.swap]
    rw [hedge]
  unfold computeDiffScope
  simp only [sortStrings, List.mem_insertionSort, List.mem_eraseDups, List.mem_append, mem_bfs_successors,
    hswap, or_assoc]
  constructor
  · rintro (hc | ⟨c, hc, hreach⟩ | ⟨c, hc, hreach⟩)
    · exact ⟨f, hc, .inl .refl⟩
    · exact ⟨c, hc, .inl hreach⟩
    · exact ⟨c, hc, .inr hreach⟩
  · rintro ⟨c, hc, hreach | hreach⟩
    · exact .inr (.inl ⟨c, hc, hreach⟩)
    · exact .inr (.inr ⟨c, hc, hreach⟩)

/-- The scope reaches the files that the changes may affect. -/
theorem mem_reachable : f ∈ (computeDiffScope project dir (filesFromProject project dir) given).reachable ↔
    Affected project dir given f := mem_reachable_of_sources

theorem mem_changedFiles :
    f ∈ (computeDiffScope project dir (filesFromProject project dir) given).changedFiles ↔
      f ∈ changedSources (filesFromProject project dir) given := by
  unfold computeDiffScope
  simp only [sortStrings, List.mem_insertionSort, List.mem_eraseDups]

end Reachability

/-! ## Coverage -/

/-- A file is one of those a diff reaches. -/
def DiffScope.Covers (diff : DiffScope) (file : String) : Prop := ∃ f ∈ diff.reachable, SameFile file f

/-- A path is under an `excludePaths` entry. -/
def ScanScope.excludes (scope : ScanScope) (path : String) : Bool := scope.excludePaths.any (isUnder path)

/-- Discovery lets through what a diff reaches and does not exclude and, when it reaches anything, nothing
else. -/
structure DiffScope.CoveredBy (diff : DiffScope) (scope : ScanScope) : Prop where
  covered : ∀ file, diff.Covers file → scope.excludes file = false → inScope file (some scope) = true
  nothing_else : diff.reachable ≠ [] → ∀ file, ¬diff.Covers file → inScope file (some scope) = false

section Coverage

variable {diff : DiffScope} {base : ScanScope} {mode : ScanMode} {routeCount fileCount : ℕ} {file : String}

/-- What a diff that reaches something lets through: changed files. -/
theorem inScope_finalizedScope (hreach : diff.reachable ≠ [])
    (hchanged : diff.changedFiles ≠ []) :
    inScope file (some (finalizedScope base mode routeCount fileCount (some diff))) = true ↔
      base.excludes file = false ∧ diff.reachable.any (isUnder file) = true ∧
        ∃ c ∈ diff.changedFiles, SameFile c file := by
  have hlength : 0 < diff.reachable.length := List.length_pos_iff.mpr hreach
  unfold inScope finalizedScope ScanScope.excludes
  simp only [hlength, if_true]
  by_cases hexcluded : base.excludePaths.any (isUnder file) = true
  · simp [hexcluded]
  · by_cases hunder : diff.reachable.any (isUnder file) = true
    · simp [hexcluded, hunder, hchanged, SameFile]
    · simp [hexcluded, hunder, hreach]

/-- A diff whose changed files are all reached, and of which one is there when anything is reached, is covered
when the files it reaches are excluded or changed. -/
theorem coveredBy_finalizedScope (hsub : ∀ c ∈ diff.changedFiles, c ∈ diff.reachable)
    (hsome : diff.reachable ≠ [] → diff.changedFiles ≠ []) :
    diff.CoveredBy (finalizedScope base mode routeCount fileCount (some diff)) ↔
      ∀ f ∈ diff.reachable, base.excludes f = true ∨ ∃ c ∈ diff.changedFiles, SameFile c f := by
  have hexcludes : ∀ f, (finalizedScope base mode routeCount fileCount (some diff)).excludes f =
      base.excludes f := fun _ => rfl
  constructor
  · intro h f hf
    have hreach : diff.reachable ≠ [] := List.ne_nil_of_mem hf
    by_cases hexcluded : base.excludes f = true
    · exact .inl hexcluded
    · have hin := h.covered f ⟨f, hf, rfl⟩ ((hexcludes f).trans (by simpa using hexcluded))
      exact .inr ((inScope_finalizedScope hreach (hsome hreach)).mp hin).2.2
  · intro h
    refine ⟨fun file hfile hexcluded => ?_, fun hreach file hfile => ?_⟩
    · obtain ⟨f, hf, hsame⟩ := hfile
      have hreach : diff.reachable ≠ [] := List.ne_nil_of_mem hf
      rw [hexcludes] at hexcluded
      refine (inScope_finalizedScope hreach (hsome hreach)).mpr ⟨hexcluded, ?_, ?_⟩
      · exact List.any_eq_true.mpr ⟨f, hf, isUnder_of_sameFile hsame⟩
      · obtain hout | ⟨c, hc, hcf⟩ := h f hf
        · -- the file and the one it names are excluded together
          have hsameExcluded : base.excludes file = base.excludes f := by
            unfold ScanScope.excludes
            rw [show isUnder file = isUnder f from funext hsame.isUnder_eq]
          rw [hsameExcluded, hout] at hexcluded
          cases hexcluded
        · exact ⟨c, hc, hcf.trans hsame.symm⟩
    · by_contra hin
      have hin := (inScope_finalizedScope hreach (hsome hreach)).mp (by simpa using hin)
      obtain ⟨c, hc, hsame⟩ := hin.2.2
      exact hfile ⟨c, hsub c hc, hsame.symm⟩

end Coverage

/-- A diff scan covers the code that its changes may affect when each file of it is excluded or is itself one of
the changed files. -/
theorem diffScope_covered_iff (appMap : AppMap) (input : ScopeInput) (fileCount : ℕ) (project : Project)
    (dir : String) (hmode : input.mode = .diff) (hdir : dir ≠ "") :
    (computeDiffScope project dir (filesFromProject project dir) input.givenChanges).CoveredBy
        (finalize appMap input fileCount (some project) (some dir)) ↔
      ∀ f, Affected project dir input.givenChanges f → input.scope.excludes f = true ∨
        ∃ c ∈ changedSources (filesFromProject project dir) input.givenChanges, SameFile c f := by
  have hdiff : finalizeDiff input (some project) (some dir) =
      some (computeDiffScope project dir (filesFromProject project dir) input.givenChanges) := by
    rw [finalizeDiff, if_pos hmode, Option.bind_some, Option.filter_some, if_pos (decide_eq_true hdir)]
    rfl
  rw [finalize, hdiff, coveredBy_finalizedScope]
  · simp only [mem_reachable, mem_changedFiles]
  · intro c hc
    exact mem_reachable.mpr ⟨c, mem_changedFiles.mp hc, .inl .refl⟩
  · intro hreach
    obtain ⟨f, hf⟩ := List.exists_mem_of_ne_nil _ hreach
    obtain ⟨c, hc, -⟩ := mem_reachable.mp hf
    exact List.ne_nil_of_mem (mem_changedFiles.mpr hc)

/-- Two source files, of which the changed one imports the other. -/
private def importing : Project :=
  [{ filePath := "/w/a.ts", imports := ["./b"] }, { filePath := "/w/b.ts", imports := [] }]

private def diffInput (given : List String) : ScopeInput :=
  { mode := .diff, changedFiles := some given, scope := { mode := .diff } }

private def emptyMap : AppMap :=
  { id := "am", clientId := "c", repo := "r", branch := "main", commitSha := "", createdAt := 0 }

example : (computeDiffScope importing "/w" (filesFromProject importing "/w") ["a.ts"]).reachable =
    ["a.ts", "b.ts"] := by decide +kernel

/-- When both files have changed, both are covered. -/
theorem diffScope_covered_of_all_changed :
    (computeDiffScope importing "/w" (filesFromProject importing "/w") ["a.ts", "b.ts"]).CoveredBy
      (finalize emptyMap (diffInput ["a.ts", "b.ts"]) 2 (some importing) (some "/w")) := by
  have hchanged : changedSources (filesFromProject importing "/w") ["a.ts", "b.ts"] = ["a.ts", "b.ts"] := by
    decide +kernel
  have hreachable : (computeDiffScope importing "/w" (filesFromProject importing "/w")
      ["a.ts", "b.ts"]).reachable = ["a.ts", "b.ts"] := by decide +kernel
  refine (diffScope_covered_iff emptyMap (diffInput ["a.ts", "b.ts"]) 2 importing "/w" rfl
    (by decide)).mpr fun f hf => .inr ⟨f, ?_, rfl⟩
  have hreach := mem_reachable.mpr hf
  change f ∈ (computeDiffScope importing "/w" (filesFromProject importing "/w") ["a.ts", "b.ts"]).reachable
    at hreach
  change f ∈ changedSources (filesFromProject importing "/w") ["a.ts", "b.ts"]
  rwa [hchanged, ← hreachable]

/-- The file that a changed one imports is reached, and discovery leaves it out. -/
theorem diffScope_uncovered : ∃ (appMap : AppMap) (input : ScopeInput) (fileCount : ℕ) (project : Project)
    (dir : String), input.mode = .diff ∧ dir ≠ "" ∧
      ¬(computeDiffScope project dir (filesFromProject project dir) input.givenChanges).CoveredBy
        (finalize appMap input fileCount (some project) (some dir)) := by
  refine ⟨emptyMap, diffInput ["a.ts"], 2, importing, "/w", rfl, by decide, fun h => ?_⟩
  have hcovered := h.covered "b.ts" ⟨"b.ts", by decide +kernel, rfl⟩ (by decide +kernel)
  revert hcovered
  decide +kernel

end MontrSecure
