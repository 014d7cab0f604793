import MontrSecure.Contracts.Scan
import MontrSecure.Js.Path

/-!
# The scope of discovery

`packages/discovery/src/util/files.ts`: which files a scan is about.
-/

namespace MontrSecure

open NodePath

/-- `under`: a path is the given one or in the directory it names. -/
def isUnder (path dir : String) : Bool :=
  let pre := stripSlash (stripDotSlash dir)
  stripDotSlash path = pre || startsWith (stripDotSlash path) (pre ++ "/")

example : isUnder "app/db.ts" "app" = true := by decide +kernel

/-- `inScope`. -/
def inScope (path : String) (scope : Option ScanScope) : Bool :=
  match scope with
  | none => true
  | some scope =>
    if scope.excludePaths.any (isUnder path) then false
    else if scope.includePaths ≠ [] ∧ ¬scope.includePaths.any (isUnder path) then false
    else if scope.mode = .diff ∧ scope.changedFiles ≠ [] then
      scope.changedFiles.any fun f => stripDotSlash f = stripDotSlash path
    else true

/-- Two paths name the same file of the repository. -/
def SameFile (a b : String) : Prop := stripDotSlash a = stripDotSlash b

variable {a b dir : String}

theorem SameFile.isUnder_eq (h : SameFile a b) (dir : String) : isUnder a dir = isUnder b dir := by
  unfold isUnder
  rw [show stripDotSlash a = stripDotSlash b from h]

/-- A file is under itself. -/
theorem isUnder_of_sameFile (h : SameFile a b) : isUnder a b = true := by
  unfold isUnder
  rw [show stripDotSlash a = stripDotSlash b from h]
  obtain hsame | hbelow := startsWith_stripSlash (stripDotSlash b)
  · rw [hsame]
    simp
  · simp [hbelow]

end MontrSecure
