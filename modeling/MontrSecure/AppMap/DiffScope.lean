import MontrSecure.Contracts.Layers
import MontrSecure.Discovery.Scope
import MontrSecure.Graph.BreadthFirst
import MontrSecure.Text.Utf16
import Mathlib.Data.List.Sort
import Mathlib.Data.List.Lex

/-!
# Diff scopes

`packages/appmap/src/diff.ts` and the scope that `finalize` emits: what the files of a project import, what can
be reached from the changed ones in either direction, and the scope made from it.
-/

namespace MontrSecure

open NodePath

/-! ## Projects -/

/-- A source file of a project, with the specifiers of its import declarations. -/
structure SourceFile where
  filePath : String
  imports : List String

/-- `Project`: its source files, in the order of `getSourceFiles`. -/
abbrev Project := List SourceFile

/-- `EXTS`. -/
def importExtensions : List String := ["ts", "tsx", "js", "jsx", "mjs", "cjs"]

/-- The start of a specifier, and `spec.slice(2)`. -/
def specBase (fromRel spec : String) : Option String :=
  if startsWith spec "." then some (posix (normalize (join (dirname fromRel) spec)))
  else if startsWith spec "@/" ∨ startsWith spec "~/" then some (String.ofList (spec.toList.drop 2))
  else none

/-- `resolveImport`. -/
def resolveImport (fromRel spec : String) (fileSet : List String) : Option String :=
  (specBase fromRel spec).bind fun base =>
    let bases := if base = String.ofList (spec.toList.drop 2) then [base, "src/" ++ base] else [base]
    let candidates := bases.flatMap fun b =>
      b :: importExtensions.map (fun ext => b ++ "." ++ ext) ++
        importExtensions.map fun ext => b ++ "/index." ++ ext
    (candidates.map posix).find? (· ∈ fileSet)

/-- The imports between the files of a set: `forward` holds them by the file that imports, `reverse` by the
file that is imported. -/
def importEdges (project : Project) (dir : String) (fileSet : List String) : List (String × String) :=
  project.flatMap fun sf =>
    let rel := posix (below (posix dir) sf.filePath)
    if rel ∈ fileSet then
      sf.imports.filterMap fun spec =>
        (resolveImport rel spec fileSet).bind fun target =>
          if target = "" ∨ target = rel then none else some (rel, target)
    else []

/-- What a file leads to. -/
def successors (edges : List (String × String)) (file : String) : List String :=
  (edges.filter (·.1 = file)).map (·.2)

/-- `array.sort()` of strings: by their code units. -/
def sortStrings (l : List String) : List String :=
  l.insertionSort fun a b => Text.units a ≤ Text.units b

/-! ## The diff scope -/

/-- What `computeDiffScope` finds. -/
structure DiffScope where
  reachable : List String
  changedFiles : List String

/-- The changed files that are source files of the project. -/
def changedSources (sourceFiles changedFilesRaw : List String) : List String :=
  (changedFilesRaw.map posix).filter (· ∈ sourceFiles.map posix)

/-- `computeDiffScope`. -/
def computeDiffScope (project : Project) (dir : String) (sourceFiles changedFilesRaw : List String) :
    DiffScope :=
  let edges := importEdges project dir (sourceFiles.map posix)
  let back := edges.map Prod.swap
  let changed := changedSources sourceFiles changedFilesRaw
  let downstream := BreadthFirst.bfs (successors edges) (edges.map (·.2)) changed
  let upstream := BreadthFirst.bfs (successors back) (back.map (·.2)) changed
  { changedFiles := sortStrings changed.eraseDups
    reachable := sortStrings (changed ++ downstream ++ upstream).eraseDups }

/-- The scope `finalize` (`packages/appmap/src/build.ts`) returns for the scope of the job; there is a diff
where the scan is in diff mode. -/
def finalizedScope (base : ScanScope) (mode : ScanMode) (routeCount fileCount : ℕ)
    (diff : Option DiffScope) : ScanScope :=
  match diff with
  | some diff =>
    { base with
      mode := .diff
      includePaths := if diff.reachable.length > 0 then diff.reachable else base.includePaths
      changedFiles := diff.changedFiles
      reachableFromChanges := true
      routeCount := some routeCount
      fileCount := some (if diff.reachable.length > 0 then diff.reachable.length else fileCount) }
  | none =>
    { base with
      mode, reachableFromChanges := false, routeCount := some routeCount, fileCount := some fileCount }

/-- What `finalize` reads of `BuildAppMapInput`. -/
structure ScopeInput where
  mode : ScanMode
  changedFiles : Option (List String) := none
  scope : ScanScope

/-- The changed files that a scan is given. -/
def ScopeInput.givenChanges (input : ScopeInput) : List String :=
  input.changedFiles.getD input.scope.changedFiles

/-- `filesFromProject`. -/
def filesFromProject (project : Project) (dir : String) : List String :=
  project.map fun sf => below (slashes dir) (slashes sf.filePath)

/-- The diff that `finalize` takes the scope from, in diff mode and with a project in a directory. -/
def finalizeDiff (input : ScopeInput) (project : Option Project) (dir : Option String) : Option DiffScope :=
  if input.mode = .diff then
    project.bind fun project => (dir.filter (· ≠ "")).map fun dir =>
      computeDiffScope project dir (filesFromProject project dir) input.givenChanges
  else none

/-- `finalize`, of the scope. -/
def finalize (appMap : AppMap) (input : ScopeInput) (fileCount : ℕ) (project : Option Project)
    (dir : Option String) : ScanScope :=
  finalizedScope input.scope input.mode appMap.routes.length fileCount (finalizeDiff input project dir)

end MontrSecure
