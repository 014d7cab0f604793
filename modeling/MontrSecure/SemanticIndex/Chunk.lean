import Mathlib.Data.Int.Notation
import Mathlib.Data.List.Flatten
import MontrSecure.Text.Utf16

/-!
# Chunks of a repository

`packages/semantic-index/src/chunk.ts`, for TypeScript and JavaScript: a file is cut into its functions, the functions
that its variables are initialized with, the methods of its classes, and the classes without methods. A file has the
parts that the chunker asks the parser for. `chunkTypeScriptProject_eq` says when each file is cut by its own tree.
-/

namespace MontrSecure.SemanticIndex

open Text

/-! ## What the parser has read -/

/-- A node: `getName`, `getStartLineNumber`, `getEndLineNumber` and `getText`. -/
structure Node where
  name : Option String
  startLine : ℕ
  endLine : ℕ
  text : List ℕ
  deriving DecidableEq

/-- A function or a method. -/
structure FunctionNode extends Node where
  hasBody : Bool

/-- A variable, named if its name is an identifier. -/
structure VariableNode extends Node where
  /-- The initializer is an arrow function or a function expression. -/
  isFunction : Bool

/-- A class. -/
structure ClassNode extends Node where
  methods : List FunctionNode

/-- A file that the parser has read. -/
structure SourceFile where
  functions : List FunctionNode := []
  variableStatements : List (List VariableNode) := []
  classes : List ClassNode := []

/-- A file of a repository; there is no tree where it cannot be read. -/
structure File where
  path : String
  source : Option SourceFile

/-! ## Chunks -/

/-- `ChunkKind`. -/
inductive ChunkKind where
  | function
  | method
  | wholeClass
  deriving DecidableEq

/-- `CodeChunkDraft`. -/
structure CodeChunkDraft where
  file : String
  startLine : ℕ
  endLine : ℕ
  language : String
  kind : ChunkKind
  symbolName : Option String
  content : List ℕ
  contentHash : String

/-- `MAX_CHUNK_CHARS`. -/
def maxChunkChars : ℕ := 8000

/-- `MIN_CHUNK_LINES`. -/
def minChunkLines : ℕ := 2

/-- `toPosix`. -/
def toPosix (p : String) : String :=
  let slashed := p.toList.map fun c => if c = '\\' then '/' else c
  String.ofList (if ['.', '/'].isPrefixOf slashed then slashed.drop 2 else slashed)

/-- The files with a tree: `/\.(tsx?|jsx?|mjs|cjs)$/i`. -/
def isScript (path : String) : Bool :=
  [".ts", ".tsx", ".js", ".jsx", ".mjs", ".cjs"].any fun e => e.toList.isSuffixOf (path.toList.map Char.toLower)

section Chunks

variable (sha256 : List ℕ → String)

/-- The text of a chunk, cut if it is too long. -/
def chunkContent (rawContent : List ℕ) : List ℕ :=
  if maxChunkChars < rawContent.length then
    rawContent.take maxChunkChars ++ units s!"\n/* …truncated ({rawContent.length} chars total)… */"
  else rawContent

/-- `makeChunk`. -/
def makeChunk (file : String) (language : String) (kind : ChunkKind) (node : Node) : Option CodeChunkDraft :=
  if (node.endLine : ℤ) - node.startLine + 1 < minChunkLines then none
  else some
    { file
      startLine := node.startLine
      endLine := node.endLine
      language
      kind
      symbolName := node.name.filter (· ≠ "")
      content := chunkContent node.text
      contentHash := sha256 (chunkContent node.text) }

/-- The chunks of a class: those of its methods, or the class if it has none. -/
def chunkClass (rel : String) (cls : ClassNode) : List CodeChunkDraft :=
  let methods := cls.methods.filter FunctionNode.hasBody
  methods.filterMap (fun m => makeChunk sha256 rel "typescript" .method m.toNode) ++
    if methods.length = 0 then (makeChunk sha256 rel "typescript" .wholeClass cls.toNode).toList else []

/-- `chunkTypeScriptFile`. -/
def chunkTypeScriptFile (file : String) (sourceFile : SourceFile) : List CodeChunkDraft :=
  let rel := toPosix file
  (sourceFile.functions.filterMap fun fn =>
      if fn.hasBody then makeChunk sha256 rel "typescript" .function fn.toNode else none) ++
    (sourceFile.variableStatements.flatMap fun stmt => stmt.filterMap fun decl =>
      if decl.isFunction then makeChunk sha256 rel "typescript" .function decl.toNode else none) ++
    sourceFile.classes.flatMap (chunkClass sha256 rel)

end Chunks

/-! ## The project -/

/-- A file of a project, under its full path. -/
structure ProjectFile where
  filePath : String
  source : SourceFile

/-- `createProject`: the files that can be read. -/
def createProject (dir : String) (files : List File) : List ProjectFile :=
  files.filterMap fun f =>
    if isScript f.path then f.source.map fun source => { filePath := dir ++ "/" ++ f.path, source } else none

/-- A project looks through its files in an order of its own. -/
structure SearchOrder where
  ordered : List ProjectFile → List ProjectFile
  perm : ∀ project, (ordered project).Perm project

/-- The test of a file for a path. -/
def isFileOf (rel : String) (f : ProjectFile) : Bool :=
  (toPosix rel).toList.isSuffixOf (toPosix f.filePath).toList

/-- `project.getSourceFile`, for the file of a path. -/
def getSourceFile (order : SearchOrder) (project : List ProjectFile) (rel : String) : Option ProjectFile :=
  (order.ordered project).find? (isFileOf rel)

/-- `chunkTypeScriptProject`. -/
def chunkTypeScriptProject (sha256 : List ℕ → String) (order : SearchOrder) (project : List ProjectFile)
    (files : List String) : List CodeChunkDraft :=
  files.flatMap fun rel =>
    if isScript rel then
      match getSourceFile order project rel with
      | none => []
      | some f => chunkTypeScriptFile sha256 rel f.source
    else []

/-- `chunkRepo`, for a repository of scripts. -/
def chunkRepo (sha256 : List ℕ → String) (order : SearchOrder) (dir : String) (files : List File) :
    List CodeChunkDraft :=
  if 0 < files.length then
    chunkTypeScriptProject sha256 order (createProject dir files) (files.map File.path)
  else []

/-! ## Function-like units -/

/-- The function-like units of a file: functions and methods with a body, and classes without such methods. -/
def SourceFile.functionLikeUnits (f : SourceFile) : List (ChunkKind × Node) :=
  ((f.functions.filter FunctionNode.hasBody).map fun fn => (.function, fn.toNode)) ++
    ((f.variableStatements.flatten.filter VariableNode.isFunction).map fun decl => (.function, decl.toNode)) ++
    f.classes.flatMap fun cls =>
      if cls.methods.any FunctionNode.hasBody then
        (cls.methods.filter FunctionNode.hasBody).map fun m => (.method, m.toNode)
      else [(.wholeClass, cls.toNode)]

/-- The units of a file that are worth a chunk. -/
def File.indexedUnits (f : File) : List Node :=
  match f.source with
  | none => []
  | some source => (source.functionLikeUnits.map Prod.snd).filter fun u => u.startLine < u.endLine

variable {sha256 : List ℕ → String}

theorem makeChunk_isSome_iff {file language : String} {kind : ChunkKind} {node : Node} :
    (makeChunk sha256 file language kind node).isSome = true ↔ node.startLine < node.endLine := by
  rw [makeChunk, minChunkLines]
  split
  · rename_i h
    simp only [Option.isSome_none, Bool.false_eq_true, false_iff]
    omega
  · rename_i h
    simp only [Option.isSome_some, true_iff]
    omega

/-- A class is cut into its units. -/
theorem chunkClass_eq (rel : String) (cls : ClassNode) :
    chunkClass sha256 rel cls =
      (if cls.methods.any FunctionNode.hasBody then
        (cls.methods.filter FunctionNode.hasBody).map fun m => (ChunkKind.method, m.toNode)
      else [(.wholeClass, cls.toNode)]).filterMap fun u => makeChunk sha256 rel "typescript" u.1 u.2 := by
  rw [chunkClass]
  by_cases hany : cls.methods.any FunctionNode.hasBody = true
  · have hne : (cls.methods.filter FunctionNode.hasBody).length ≠ 0 := by
      obtain ⟨m, hm, hbody⟩ := List.any_eq_true.mp hany
      exact Nat.ne_of_gt (List.length_pos_of_mem (List.mem_filter.mpr ⟨hm, hbody⟩))
    rw [if_neg hne, if_pos hany, List.append_nil, List.filterMap_map]
    rfl
  · have hnil : cls.methods.filter FunctionNode.hasBody = [] := by
      refine List.filter_eq_nil_iff.mpr fun m hm hbody => hany ?_
      exact List.any_eq_true.mpr ⟨m, hm, hbody⟩
    rw [hnil, if_pos List.length_nil, if_neg hany, List.filterMap_nil, List.nil_append, List.filterMap_cons]
    cases makeChunk sha256 rel "typescript" .wholeClass cls.toNode <;> rfl

/-- A file is cut into its function-like units. -/
theorem chunkTypeScriptFile_eq (file : String) (source : SourceFile) :
    chunkTypeScriptFile sha256 file source =
      source.functionLikeUnits.filterMap fun u => makeChunk sha256 (toPosix file) "typescript" u.1 u.2 := by
  have hfunctions : (source.functions.filterMap fun fn =>
      if fn.hasBody then makeChunk sha256 (toPosix file) "typescript" .function fn.toNode else none) =
      ((source.functions.filter FunctionNode.hasBody).map fun fn => (ChunkKind.function, fn.toNode)).filterMap
        fun u => makeChunk sha256 (toPosix file) "typescript" u.1 u.2 := by
    rw [List.filterMap_map, List.filterMap_filter]
    rfl
  have hvariables : (source.variableStatements.flatMap fun stmt => stmt.filterMap fun decl =>
      if decl.isFunction then makeChunk sha256 (toPosix file) "typescript" .function decl.toNode else none) =
      ((source.variableStatements.flatten.filter VariableNode.isFunction).map
        fun decl => (ChunkKind.function, decl.toNode)).filterMap
        fun u => makeChunk sha256 (toPosix file) "typescript" u.1 u.2 := by
    rw [List.filterMap_map, List.filterMap_filter, List.filterMap_flatten, List.flatMap]
    rfl
  rw [chunkTypeScriptFile, SourceFile.functionLikeUnits, List.filterMap_append, List.filterMap_append, hfunctions,
    hvariables, List.filterMap_flatMap]
  exact congrArg _ (List.flatMap_congr fun cls _ => chunkClass_eq (toPosix file) cls)

/-! ## Looking up files -/

section Project

variable {order : SearchOrder} {dir : String} {files : List File}

/-- Behind its directory, a path is where it was. -/
theorem toPosix_suffix (dir rel : String) : (toPosix rel).toList <:+ (toPosix (dir ++ "/" ++ rel)).toList := by
  let slash : Char → Char := fun c => if c = '\\' then '/' else c
  have hrel : (toPosix rel).toList <:+ rel.toList.map slash := by
    rw [toPosix, String.toList_ofList]
    split
    · exact List.drop_suffix 2 _
    · exact List.suffix_rfl
  refine hrel.trans ?_
  have hpath : (dir ++ "/" ++ rel).toList.map slash = dir.toList.map slash ++ '/' :: rel.toList.map slash := by
    rw [String.toList_append, String.toList_append, List.map_append, List.map_append, List.append_assoc]
    rfl
  rw [toPosix, String.toList_ofList, hpath]
  split
  · rename_i hdot
    -- Only a directory of one character is dropped together with its slash.
    generalize dir.toList.map slash = ds at hdot ⊢
    rcases ds with _ | ⟨c, _ | ⟨d, ds⟩⟩
    · exact absurd hdot Bool.false_ne_true
    · exact List.suffix_rfl
    · exact List.suffix_append_of_suffix (List.suffix_cons '/' _)
  · exact List.suffix_append_of_suffix (List.suffix_cons '/' _)

theorem mem_createProject {g : ProjectFile} : g ∈ createProject dir files ↔
    ∃ f ∈ files, isScript f.path = true ∧ f.source = some g.source ∧ g.filePath = dir ++ "/" ++ f.path := by
  rw [createProject, List.mem_filterMap]
  refine exists_congr fun f => and_congr_right fun _ => ?_
  split
  · rename_i hscript
    rw [Option.map_eq_some_iff]
    constructor
    · rintro ⟨source, hsource, rfl⟩
      exact ⟨hscript, hsource, rfl⟩
    · rintro ⟨-, hsource, hpath⟩
      refine ⟨g.source, hsource, ?_⟩
      rw [← hpath]
  · rename_i hscript
    constructor
    · intro h
      cases h
    · intro h
      exact absurd h.1 hscript

/-- No file is found under the path of another one. -/
def Distinguished (dir : String) (files : List File) : Prop :=
  ∀ f ∈ files, ∀ g ∈ files, ∀ source, g.source = some source →
    isFileOf f.path { filePath := dir ++ "/" ++ g.path, source } = true → g = f

/-- Under the path of a file, its own tree is found. -/
theorem getSourceFile_eq (hfiles : Distinguished dir files) {f : File} (hf : f ∈ files)
    (hscript : isScript f.path = true) :
    getSourceFile order (createProject dir files) f.path =
      f.source.map fun source => { filePath := dir ++ "/" ++ f.path, source } := by
  have hown : ∀ g ∈ createProject dir files, isFileOf f.path g = true →
      f.source = some g.source ∧ g.filePath = dir ++ "/" ++ f.path := by
    intro g hg hfile
    obtain ⟨f', hf', -, hsource, hpath⟩ := mem_createProject.mp hg
    have hsame := hfiles f hf f' hf' g.source hsource (by rw [← hpath]; exact hfile)
    rw [← hsame]
    exact ⟨hsource, hpath⟩
  cases hsource : f.source with
  | none =>
    refine List.find?_eq_none.mpr fun g hg hfile => ?_
    have hnone := (hown g ((order.perm _).mem_iff.mp hg) hfile).1
    rw [hsource] at hnone
    cases hnone
  | some source =>
    have hmem : { filePath := dir ++ "/" ++ f.path, source } ∈ createProject dir files :=
      mem_createProject.mpr ⟨f, hf, hscript, hsource, rfl⟩
    have hfile : isFileOf f.path { filePath := dir ++ "/" ++ f.path, source } = true :=
      List.isSuffixOf_iff_suffix.mpr (toPosix_suffix dir f.path)
    have hfound : (getSourceFile order (createProject dir files) f.path).isSome = true :=
      List.find?_isSome.mpr ⟨_, (order.perm _).mem_iff.mpr hmem, hfile⟩
    obtain ⟨g, hg⟩ := Option.isSome_iff_exists.mp hfound
    obtain ⟨hgsource, hgpath⟩ := hown g ((order.perm _).mem_iff.mp (List.mem_of_find?_eq_some hg))
      (List.find?_some hg)
    rw [hg]
    obtain rfl : source = g.source := Option.some.inj (hsource.symm.trans hgsource)
    rw [Option.map_some, ← hgpath]

/-- Where no file is found under the path of another one, each file is cut by its own tree. -/
theorem chunkRepo_eq (hscripts : ∀ f ∈ files, isScript f.path = true) (hfiles : Distinguished dir files) :
    chunkRepo sha256 order dir files =
      files.flatMap fun f => f.source.elim [] (chunkTypeScriptFile sha256 f.path) := by
  rw [chunkRepo]
  split
  · rw [chunkTypeScriptProject, List.flatMap_map]
    refine List.flatMap_congr fun f hf => ?_
    rw [if_pos (hscripts f hf), getSourceFile_eq hfiles hf (hscripts f hf)]
    cases f.source <;> rfl
  · rename_i hempty
    obtain rfl := List.eq_nil_of_length_eq_zero (Nat.eq_zero_of_not_pos hempty)
    rfl

end Project

end MontrSecure.SemanticIndex
