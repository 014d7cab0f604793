import MontrSecure.AppMap.DiffScope
import MontrSecure.Async.Running
import MontrSecure.Confirm.Guard
import MontrSecure.Js.Path
import MontrSecure.Js.Value

/-!
# The files that a model reads

The tools of `packages/confirm/src/investigate-tools.ts` that read the checkout, and the reader that
`packages/fix/src/source.ts` makes of a directory. What matters here is which paths they open: of the results only
what decides on that is kept. `RegExp` is a class of the runtime; a parameter stands for its constructor.
-/

namespace MontrSecure.Confirm

open Async NodePath

/-! ## The file system -/

/-- `Dirent`. -/
structure Dirent where
  name : String
  isDirectory : Bool
  isFile : Bool

/-- What is asked of the file system. -/
inductive ToolOp where
  | readFile (path : String)
  | readdir (path : String)

/-- The path of an operation. -/
def ToolOp.path : ToolOp → String
  | readFile path | readdir path => path

theorem ToolOp.path_readFile (path : String) : (ToolOp.readFile path).path = path := rfl

/-- What an operation resolves to; a rejection has no value. -/
abbrev ToolOp.Ans : ToolOp → Type
  | readFile _ => Option String
  | readdir _ => Option (List Dirent)

/-- A tool; what it throws is a message. -/
abbrev ToolProgram (α : Type) : Type := Program ToolOp ToolOp.Ans Unit String α

/-- Await an operation of the file system. -/
def askFiles (op : ToolOp) : ToolProgram op.Ans := Program.await op

/-- `readRepoFileLocal`. -/
def readRepoFileLocal (dir rel : String) : ToolProgram (Option String) := askFiles (.readFile (join dir rel))

/-- `IGNORED_DIRS`. -/
def ignoredDirs : List String :=
  ["node_modules", ".git", "dist", "build", ".next", ".turbo", "coverage", "__pycache__", ".venv", "venv", "target",
    ".idea", ".vscode"]

/-- `SOURCE_EXT`. -/
def sourceExt : List String :=
  [".ts", ".tsx", ".js", ".jsx", ".mjs", ".cjs", ".py", ".java", ".go", ".rb", ".php"]

/-- `name.slice(name.lastIndexOf("."))`; without a dot it is the last character. -/
def extension (name : String) : String :=
  let after := name.toList.reverse.takeWhile (· ≠ '.')
  String.ofList (if '.' ∈ name.toList then '.' :: after.reverse else after.reverse.drop (after.length - 1))

def MAX_SCANNED_FILES : ℕ := 2000

def MAX_SCAN_DEPTH : ℕ := 14

/-- The directory of an entry is not walked into. -/
def ignored (entry : Dirent) : Bool := entry.name ∈ ignoredDirs || startsWith entry.name "."

variable (cwd : List (List Char))

/-- `walk` of `listSourceFiles`, with the levels that are left. -/
def walk (dir : String) : ℕ → String → List String → ToolProgram (List String)
  | 0, _, out => return out
  | depthLeft + 1, current, out => do
    if MAX_SCANNED_FILES ≤ out.length then return out
    else
      match ← askFiles (.readdir current) with
      | none => return out
      | some entries =>
        entries.foldlM (fun out entry =>
          if MAX_SCANNED_FILES ≤ out.length then return out
          else if entry.isDirectory then
            if ignored entry then return out else walk dir depthLeft (join current entry.name) out
          else if entry.isFile ∧ extension entry.name ∈ sourceExt then
            return out ++ [relative cwd dir (join current entry.name)]
          else return out) out

/-- `listSourceFiles`. -/
def listSourceFiles (dir : String) : ToolProgram (List String) := do
  let out ← walk cwd dir (MAX_SCAN_DEPTH + 1) dir []
  return sortStrings out

/-! ## The tools -/

/-- `asString`. -/
def asString : Option JsValue → Option String
  | some (.str s) => if trim s = "" then none else some (trim s)
  | _ => none

/-- `asNumber`. -/
def asNumber : Option JsValue → Option ℚ
  | some (.num q) => some q
  | _ => none

/-- `escapeRegExp`. -/
def escapeRegExp (s : String) : String :=
  String.ofList (s.toList.flatMap fun c => if c ∈ ".*+?^$\x7b\x7d()|[]\\".toList then ['\\', c] else [c])

/-- `content.split(/\r?\n/)`. -/
def splitLines (content : String) : List String :=
  let lines := content.toList.splitOn '\n'
  (lines.dropLast.map (fun line => if line.getLast? = some '\r' then line.dropLast else line) ++
    lines.getLast?.toList).map String.ofList

/-- `GrepMatch`, without the text of the line. -/
structure GrepMatch where
  file : String
  line : ℕ

/-- What a tool finds; the other tools read no file. -/
inductive ToolResult where
  | error (message : String)
  | file (path content : String)
  | found (occurrences : List GrepMatch)
  | other

/-- `InvestigationToolContext`, as far as files go. -/
structure InvestigationToolContext where
  repoRoot : Option String := none

/-- `!ctx.repoRoot` is false. -/
def InvestigationToolContext.root? (ctx : InvestigationToolContext) : Option String := ctx.repoRoot.filter (· ≠ "")

/-- `toolReadFile`. -/
def toolReadFile (input : JsRecord) (ctx : InvestigationToolContext) : ToolProgram ToolResult :=
  match asString (input.lookup "path"), ctx.root? with
  | none, _ => return .error "read_file requires a non-empty 'path'."
  | some _, none => return .error "no repo checkout available in this run; cannot read source files directly."
  | some path, some root => do
    match ← readRepoFileLocal root path with
    | none => return .error s!"file not found or unreadable: {path}"
    | some content => return .file path content

variable (regExp : String → Option (String → Bool))

/-- The matching lines of a file, after those of the files before. -/
def matchLines (test : String → Bool) (file : String) (maxMatches : ℚ) (found : List GrepMatch) (content : String) :
    List GrepMatch :=
  (splitLines content).zipIdx.foldl (fun found line =>
    if maxMatches ≤ found.length then found
    else if test line.1 then found ++ [⟨file, line.2 + 1⟩] else found) found

def MAX_GREP_FILES : ℕ := 400

def MAX_GREP_MATCHES : ℚ := 40

/-- `files` of `grepRepo`. -/
def grepFiles (root : String) : Option String → ToolProgram (List String)
  | some path => return [path]
  | none => do
    let files ← listSourceFiles cwd root
    return files.take MAX_GREP_FILES

/-- `grepRepo`. -/
def grepRepo (root pattern : String) (onlyPath : Option String) (maxMatches : ℚ) : ToolProgram (List GrepMatch) := do
  match (regExp pattern).or (regExp (escapeRegExp pattern)) with
  | none => Program.throw "Invalid regular expression"
  | some test =>
    let files ← grepFiles cwd root onlyPath
    files.foldlM (fun found file =>
      if maxMatches ≤ found.length then return found
      else do
        match ← readRepoFileLocal root file with
        | none => return found
        | some content => return matchLines test file maxMatches found content) []

/-- `maxMatches` of `toolGrep`. -/
def grepLimit (input : JsRecord) : ℚ := min ((asNumber (input.lookup "maxMatches")).getD MAX_GREP_MATCHES) MAX_GREP_MATCHES

/-- `toolGrep`. -/
def toolGrep (input : JsRecord) (ctx : InvestigationToolContext) : ToolProgram ToolResult :=
  match asString (input.lookup "pattern"), ctx.root? with
  | none, _ => return .error "grep requires a non-empty 'pattern'."
  | some _, none => return .error "no repo checkout available in this run; cannot grep source files."
  | some pattern, some root => do
    let found ← grepRepo cwd regExp root pattern (asString (input.lookup "path")) (grepLimit input)
    return .found found

/-- `toolFindDefinition`, before the occurrences are narrowed to definitions. -/
def toolFindDefinition (input : JsRecord) (ctx : InvestigationToolContext) : ToolProgram ToolResult :=
  match asString (input.lookup "symbol"), ctx.root? with
  | none, _ => return .error "find_definition requires a non-empty 'symbol'."
  | some _, none => return .error "no repo checkout available in this run; cannot search for definitions."
  | some symbol, some root => do
    let found ← grepRepo cwd regExp root ("\\b" ++ escapeRegExp symbol ++ "\\b") none 200
    return .found found

/-- `executeInvestigationTool`. The tools that read the App Map or ask the index of the code open no file. -/
def executeInvestigationTool (name : String) (input : JsRecord) (ctx : InvestigationToolContext) :
    ToolProgram ToolResult :=
  Program.tryCatch
    (if name = "read_file" then toolReadFile input ctx
    else if name = "grep" then toolGrep cwd regExp input ctx
    else if name = "find_definition" then toolFindDefinition cwd regExp input ctx
    else if name ∈ ["query_call_graph", "semantic_search", "list_routes", "get_orm_model"] then return .other
    else return .error ("unknown tool " ++ name))
    fun message => return .error ("tool failed: " ++ message)

/-- `createFsSourceReader`, and `read`. -/
def readSource (root filePath : String) : ToolProgram (Option String) :=
  let base := resolve cwd [root]
  let target := resolve cwd [base, filePath]
  if target ≠ base ∧ startsWith target (base ++ "/") = false then return none
  else askFiles (.readFile target)

end MontrSecure.Confirm
