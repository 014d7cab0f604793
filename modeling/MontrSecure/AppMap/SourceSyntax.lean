import MontrSecure.Contracts.Layers
import MontrSecure.Js.Path

/-!
# What the scanners read of a source file

The declarations and the calls of a TypeScript file, as far as `packages/appmap/src/languages/typescript` looks at
them, and the helpers that its route scanners share.
-/

namespace MontrSecure

open NodePath

/-- `FnLike`: a function, and the line where it starts. -/
structure FnLike where
  file : String
  pos : ℕ
  line : ℕ
  deriving DecidableEq

/-- An expression. A literal is a string, or a template without substitutions; the text of what is called is there as
it is written, and an object has the properties that are assigned in it. -/
inductive Expr where
  | identifier (name : String)
  | literal (text : String)
  | function (fn : FnLike)
  | call (callee : Expr) (calleeText : String)
  | array (elements : List Expr)
  | object (properties : List (String × Expr))
  | other

/-- A declaration of a variable: `getName()`, and whether the name is an identifier. -/
structure VariableDeclaration where
  name : String
  isIdentifier : Bool := true
  line : ℕ
  initializer : Option Expr := none

/-- A statement that declares variables, at the top of a file. -/
structure VariableStatement where
  isExported : Bool := false
  declarations : List VariableDeclaration

/-- A function declaration, at the top of a file. -/
structure FunctionDeclaration where
  name : Option String
  isExported : Bool := false
  fn : FnLike

/-- `export default …` or `export = …`. -/
structure ExportAssignment where
  isExportEquals : Bool := false
  expression : Expr

/-- An argument, and its text. -/
structure Argument where
  expr : Expr
  text : String

/-- A call of a property, `receiver.name(args)`. -/
structure MethodCall where
  receiver : String
  name : String
  args : List Argument
  line : ℕ

/-- A source file; the calls are those of the whole file, in its order. -/
structure ScannedFile where
  filePath : String
  fullText : String := ""
  functions : List FunctionDeclaration := []
  variableStatements : List VariableStatement := []
  exportAssignments : List ExportAssignment := []
  calls : List MethodCall := []

/-- `relPath`. -/
def relPath (abs dir : String) : String := posix (below (posix dir) abs)

/-! ## Guards -/

/-- The alternatives of `AUTH_GUARD_RE`. -/
def authGuards : List String :=
  ["requireSession", "requireAuth", "requireUser", "ensureAuthenticated", "isAuthenticated", "getServerSession",
    "getSession", "getToken", "withAuth", "currentUser", "auth", "protect", "assertRole", "checkPermission"]

/-- `\w`. -/
def isWordChar (c : Char) : Bool := c.isAlphanum || c = '_'

/-- The guard that a text starts with, up to the end of a word. -/
def guardAt (text : List Char) : Option String :=
  authGuards.find? fun g => g.toList.isPrefixOf text && !(text.drop g.length).head?.any isWordChar

/-- The first guard of a text that follows a character. -/
def guardAfter (before : Option Char) : List Char → Option String
  | [] => none
  | c :: cs => ((if before.any isWordChar then none else guardAt (c :: cs))).or (guardAfter (some c) cs)

/-- `AUTH_GUARD_RE.exec(text)?.[1]`. -/
def authGuard (text : String) : Option String := guardAfter none text.toList

/-- `detectAuth`: the state, and the gate. -/
def detectAuth (text : String) : AuthState × Option String :=
  match authGuard text with
  | some gate => (.authenticated, some gate)
  | none => (.unknown, none)

example : detectAuth "export const GET = requireAuth(handler)" = (.authenticated, some "requireAuth") := by
  decide +kernel

end MontrSecure
