import MontrSecure.AppMap.RouteScan
import MontrSecure.Security.SecretFormats

/-!
# The Next.js middleware

`applyNextMiddlewareAuth` of `packages/appmap/src/languages/typescript/routes.ts`: the patterns of a matcher become
regular expressions by replacements in their texts, and the routes they match get the auth of the middleware.
-/

namespace MontrSecure.Next

open Text Text.Regex NodePath

/-! ## Patterns -/

/-- The characters that are escaped: `.+^${}()|[]\`. -/
def isSyntaxUnit (c : ℕ) : Bool := c ∈ units ".+^$\x7b\x7d()|[]\\"

/-- `pattern.replace(/[.+^${}()|[\]\\]/g, "\\$&")`. -/
def escapeSyntax (text : List ℕ) : List ℕ := text.flatMap fun c => if isSyntaxUnit c then [unit '\\', c] else [c]

/-- Replace `:name` and what must follow it; `skip` units have been replaced already. -/
def replaceParamFrom (suffix new : List ℕ) : ℕ → List ℕ → List ℕ
  | _, [] => []
  | skip + 1, _ :: cs => replaceParamFrom suffix new skip cs
  | 0, c :: cs =>
    let name := cs.takeWhile isWord
    if c = unit ':' ∧ name ≠ [] ∧ suffix.isPrefixOf (cs.drop name.length) then
      new ++ replaceParamFrom suffix new (name.length + suffix.length) cs
    else c :: replaceParamFrom suffix new 0 cs

/-- `text.replace(/:[A-Za-z0-9_]+suffix/g, new)`. -/
def replaceParam (suffix new : String) (text : List ℕ) : List ℕ := replaceParamFrom (units suffix) (units new) 0 text

/-- `text.replace(/\*/g, ".*")`. -/
def replaceStar (text : List ℕ) : List ℕ := text.flatMap fun c => if c = unit '*' then units ".*" else [c]

/-- The pattern, after the replacements. -/
def escaped (pattern : List ℕ) : List ℕ :=
  replaceStar (replaceParam "" "[^/]+" (replaceParam "+" ".+" (replaceParam "*" ".*" (escapeSyntax pattern))))

/-! ## Regular expressions -/

/-- A token of the expressions that the replacements can give: one unit of a class, or a quantifier. -/
inductive Token where
  | atom (p : ℕ → Bool)
  | star
  | plus
  | opt

/-- A unit that is not escaped. -/
def plainToken (c : ℕ) : Token :=
  if c = unit '*' then .star
  else if c = unit '+' then .plus
  else if c = unit '?' then .opt
  else if c = unit '.' then .atom (!isLineEnd ·)
  else .atom (· = c)

/-- The tokens of such an expression; `skip` units belong to the token before. -/
def tokensFrom : ℕ → List ℕ → List Token
  | _, [] => []
  | skip + 1, _ :: cs => tokensFrom skip cs
  | 0, c :: cs =>
    if c = unit '\\' then (cs.head?.map fun d => .atom (· = d)).toList ++ tokensFrom 1 cs
    else if (units "[^/]").isPrefixOf (c :: cs) then .atom (· ≠ unit '/') :: tokensFrom 3 cs
    else plainToken c :: tokensFrom 0 cs

/-- Every quantifier follows a class, and may be lazy. -/
def quantify : List Token → Option (List (Regex ℕ))
  | [] => some []
  | .atom p :: .star :: .opt :: ts | .atom p :: .star :: ts => (quantify ts).map (star (sym p) :: ·)
  | .atom p :: .plus :: .opt :: ts | .atom p :: .plus :: ts => (quantify ts).map (plus (sym p) :: ·)
  | .atom p :: .opt :: .opt :: ts | .atom p :: .opt :: ts => (quantify ts).map (opt (sym p) :: ·)
  | .atom p :: ts => (quantify ts).map (sym p :: ·)
  | .star :: _ | .plus :: _ | .opt :: _ => none

/-- `^…$`. -/
def wholeText (rs : List (Regex ℕ)) : Regex ℕ :=
  seq (look fun before _ => before.isNone) (seq (concat rs) (look fun _ after => after.isNone))

/-- `matcherToRegex`; there is none when the text is not an expression. -/
def matcherToRegex (pattern : String) : Option (Regex ℕ) :=
  if pattern = "" then none else (quantify (tokensFrom 0 (escaped (units pattern)))).map wholeText

/-! ## The middleware -/

/-- `stringLiteralsOf`. -/
def stringLiteralsOf : Expr → List String
  | .literal text => [text]
  | .array elements => elements.filterMap fun
    | .literal text => some text
    | _ => none
  | _ => []

/-- The values that an exported `config` has for `matcher`, in their order. -/
def matcherValues (file : ScannedFile) : List Expr :=
  (file.variableStatements.filter (·.isExported)).flatMap fun vs =>
    (vs.declarations.filter (·.name = "config")).flatMap fun d =>
      match d.initializer with
      | some (.object properties) => (properties.filter (·.1 = "matcher")).map (·.2)
      | _ => []

/-- `matchers`: those of the last value. -/
def matchersOf (file : ScannedFile) : List String :=
  ((matcherValues file).getLast?.map stringLiteralsOf).getD []

/-- A root file `middleware`, or one under `src`. -/
def isMiddlewareFile (rel : String) : Bool :=
  String.ofList (rel.toList.map Char.toLower) ∈
    ["middleware.ts", "middleware.js", "middleware.tsx", "middleware.jsx", "src/middleware.ts", "src/middleware.js",
      "src/middleware.tsx", "src/middleware.jsx"]

/-- The patterns of a middleware. -/
def patternsOf (file : ScannedFile) : List (Regex ℕ) := (matchersOf file).filterMap matcherToRegex

/-- `matches`. -/
def matchesPath (patterns : List (Regex ℕ)) (path : String) : Bool :=
  patterns.isEmpty || patterns.any fun re => re.test (units path)

/-- The middleware that looks like an auth check, with its guard. -/
def authMiddleware (project : List ScannedFile) (dir : String) : Option (ScannedFile × String) :=
  (project.find? fun sf => isMiddlewareFile (relPath sf.filePath dir)).bind fun mw =>
    (authGuard mw.fullText).map fun guard => (mw, guard)

/-- What a route is after the middleware: with its auth, when nothing else is known. -/
def upgrade (mw : ScannedFile) (guard : String) (r : ScannedRoute) : ScannedRoute :=
  if r.authState = .unknown ∧ matchesPath (patternsOf mw) r.path then
    { r with authState := .authenticated, authGate := some ("middleware.ts (global: " ++ guard ++ ")") }
  else r

/-- `applyNextMiddlewareAuth`. -/
def applyNextMiddlewareAuth (project : List ScannedFile) (dir : String) (routes : List ScannedRoute) :
    List ScannedRoute :=
  match authMiddleware project dir with
  | some (mw, guard) => routes.map (upgrade mw guard)
  | none => routes

end MontrSecure.Next

/-!
## Routes of a Next.js project

`scanRoutes` of `packages/appmap/src/languages/typescript/routes.ts`: the routes that the files under `app` and `pages`
stand for, and the scan that they add up to.
-/

namespace MontrSecure.Next

open NodePath

/-! ## Paths -/

/-- The framework root that a file is under. -/
inductive RootKind where
  | app
  | pages

/-- `stripRoot`; the rest is a single line. -/
def stripNextRoot (rel : String) : Option (RootKind × String) :=
  let p := (posix rel).toList
  let p := if "src/".toList.isPrefixOf p then p.drop 4 else p
  let split := if "app/".toList.isPrefixOf p then some (RootKind.app, p.drop 4)
    else if "pages/".toList.isPrefixOf p then some (RootKind.pages, p.drop 6)
    else none
  (split.filter fun s => s.2.all fun c => !isLineEnd c.toNat).map fun s => (s.1, String.ofList s.2)

/-- `/^\(.*\)$/`, of a segment. -/
def isRouteGroup (seg : List Char) : Bool := seg.head? = some '(' && seg.getLast? = some ')'

/-- `appRouterPath`. -/
def appRouterPath (rest : String) : String :=
  let parts := (rest.toList.splitOn '/').dropLast
  let segs := (parts.filter fun s => s ≠ []).filter fun s => !isRouteGroup s
  "/" ++ String.ofList (['/'].intercalate segs)

/-- `text.replace(/…$/i, "")`, of some endings in lower case. -/
def stripEnding (endings : List String) (text : List Char) : List Char :=
  match endings.find? fun e => e.toList.isSuffixOf (text.map Char.toLower) with
  | some e => text.take (text.length - e.length)
  | none => text

/-- `.replace(/\.(tsx|ts|jsx|js|mjs|cjs)$/i, "")`. -/
def stripSourceExtension (text : List Char) : List Char :=
  stripEnding [".tsx", ".ts", ".jsx", ".js", ".mjs", ".cjs"] text

/-- `pagesRouterPath`. -/
def pagesRouterPath (rest : String) : String :=
  let p := stripEnding ["/index"] (stripSourceExtension rest.toList)
  "/" ++ if p = "index".toList then "" else String.ofList p

/-! ## Exports -/

/-- `exportedDeclLines`. -/
def exportedDeclLines (sf : ScannedFile) : List (String × ℕ) :=
  let functions := sf.functions.foldl (fun m fn =>
    match fn.name with
    | some name => if fn.isExported ∧ name ≠ "" then InsertionMap.set name fn.fn.line m else m
    | none => m) []
  (sf.variableStatements.filter (·.isExported)).foldl (fun m vs =>
    vs.declarations.foldl (fun m d => InsertionMap.set d.name d.line m) m) functions

/-- `exportedDeclFns`. -/
def exportedDeclFns (sf : ScannedFile) : List (String × FnLike) :=
  let functions := sf.functions.foldl (fun m fn =>
    match fn.name with
    | some name => if fn.isExported ∧ name ≠ "" then InsertionMap.set name fn.fn m else m
    | none => m) []
  (sf.variableStatements.filter (·.isExported)).foldl (fun m vs =>
    vs.declarations.foldl (fun m d =>
      match d.initializer with
      | some (.function fn) => InsertionMap.set d.name fn m
      | _ => m) m) functions

/-- `authFromWrapCall`, of the callee: a guard, or what a guard returns. -/
def authFromWrapCall : Expr → Option String
  | .identifier name => if (authGuard name).isSome then some name else none
  | .call (.identifier name) _ => if (authGuard name).isSome then some name else none
  | _ => none

/-- The callee of a call. -/
def calleeOf : Expr → Option Expr
  | .call callee _ => some callee
  | _ => none

/-- `detectHocWrap`. -/
def detectHocWrap (sf : ScannedFile) (exportName : String) : Option String :=
  if exportName = "default" then
    ((sf.exportAssignments.find? fun e => !e.isExportEquals).bind fun e => calleeOf e.expression).bind authFromWrapCall
  else
    let declarations := (sf.variableStatements.filter (·.isExported)).flatMap (·.declarations)
    let callees := (declarations.filter (·.name = exportName)).filterMap fun d => d.initializer.bind calleeOf
    callees.head?.bind authFromWrapCall

/-- `resolveRouteAuth`. -/
def resolveRouteAuth (sf : ScannedFile) (exportName : String) : AuthState × Option String :=
  match detectHocWrap sf exportName with
  | some gate => (.authenticated, some gate)
  | none => detectAuth sf.fullText

/-! ## Registrations -/

/-- The names of `HTTP_METHODS`. -/
def httpMethodNames : List (String × HttpMethod) :=
  [("GET", .get), ("POST", .post), ("PUT", .put), ("PATCH", .patch), ("DELETE", .delete), ("OPTIONS", .options),
    ("HEAD", .head)]

/-- `PAGES_SPECIAL`. -/
def pagesSpecial : List String := ["_app", "_document", "_error", "404", "500", "middleware", "_middleware"]

/-- A route that an export of a file handles. -/
def fileRoute (sf : ScannedFile) (rel path : String) (method : HttpMethod) (isApiRoute : Bool) (exportName : String) :
    Registration :=
  let auth := resolveRouteAuth sf exportName
  { route :=
      { id := routeId (.http method) path, path, method := .http method, authState := auth.1, isApiRoute
        handler := { file := rel, line := (InsertionMap.get (exportedDeclLines sf) exportName).getD 1 }
        authGate := auth.2 }
    file := rel
    handlerFn := InsertionMap.get (exportedDeclFns sf) exportName }

/-- The name of a file, in lower case, is one of a stem and some extensions. -/
def isNamed (filename : List Char) (stem : String) (extensions : List String) : Bool :=
  extensions.any fun e => filename.map Char.toLower = (stem ++ e).toList

/-- The routes of one file. -/
def fileRegistrations (sf : ScannedFile) (dir : String) : List Registration :=
  let rel := relPath sf.filePath dir
  let filename := ((rel.toList.splitOn '/').getLast?).getD []
  match stripNextRoot rel with
  | none => []
  | some (.app, rest) =>
    let path := appRouterPath rest
    if isNamed filename "route" [".ts", ".tsx", ".js", ".jsx", ".mjs", ".cjs"] then
      let methods := (exportedDeclLines sf).filterMap fun e =>
        (httpMethodNames.find? (·.1 = e.1))
      let list := if methods = [] then [("GET", HttpMethod.get)] else methods
      list.map fun m => fileRoute sf rel path m.2 true m.1
    else if isNamed filename "page" [".ts", ".tsx", ".js", ".jsx"] then [fileRoute sf rel path .get false "default"]
    else []
  | some (.pages, rest) =>
    let path := pagesRouterPath rest
    if String.ofList (stripSourceExtension filename) ∈ pagesSpecial then []
    else if startsWith rel "pages/api/" ∨ startsWith rel "src/pages/api/" then
      [fileRoute sf rel path .all true "default"]
    else [fileRoute sf rel path .get false "default"]

/-- The routes of the files, in their order. -/
def registrations (project : List ScannedFile) (dir : String) : List Registration :=
  project.flatMap (fileRegistrations · dir)

variable (localeCompare : String → String → ℤ)

/-- `scanRoutes`. -/
def scanRoutes (project : List ScannedFile) (dir : String) : RouteScan :=
  let s := scanRegistrations (registrations project dir)
  { s with
    routes := sortBy (compareRoutes localeCompare) (applyNextMiddlewareAuth project dir s.routes)
    entrypoints := sortEntrypoints localeCompare s.entrypoints }

end MontrSecure.Next
