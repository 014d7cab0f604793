import MontrSecure.Confirm.InvestigateTools

/-!
# Reading inside the checkout

A tool that is not given a path reads only what it found below the root, and the reader of the fix agent checks
where a path leads. A path that a tool is given goes to the file system as it is.
-/

namespace MontrSecure.Confirm

open Async NodePath

/-- The entries of a directory have names. -/
def legalAnswer : (op : ToolOp) → op.Ans → Prop
  | .readdir _, some entries => ∀ entry ∈ entries, IsName entry.name.toList ∧ '/' ∉ entry.name.toList
  | _, _ => True

/-- The path leads to the root or below it. -/
def Inside (cwd : List (List Char)) (root path : String) : Prop := leadFrom cwd root <+: leadFrom cwd path

/-- Only what is inside is opened. -/
def insideProtocol (cwd : List (List Char)) (root : String) : Protocol ToolOp ToolOp.Ans Unit where
  answers := legalAnswer
  awaits _ _ _ op := Inside cwd root op.path
  ends _ _ _ := True

/-- A program opens only what is inside, and what it returns has the property. -/
def ReadsInside {α : Type} (cwd : List (List Char)) (root : String) (p : ToolProgram α) (post : α → Prop) : Prop :=
  ∀ tr m₀ m, (p m).Follows (insideProtocol cwd root) (fun _ _ _ a => post a) (fun _ _ _ _ => True) tr m₀

namespace ReadsInside

variable {α β : Type} {cwd : List (List Char)} {root : String} {p : ToolProgram α} {post : α → Prop}

theorem pure {a : α} (h : post a) : ReadsInside cwd root (Pure.pure a) post := fun _ _ _ => h

theorem throw {message : String} : ReadsInside cwd root (Program.throw message) post := fun _ _ _ => trivial

theorem bind {f : α → ToolProgram β} {post' : β → Prop} (hp : ReadsInside cwd root p post)
    (hf : ∀ a, post a → ReadsInside cwd root (f a) post') : ReadsInside cwd root (p >>= f) post' := by
  intro tr m₀ m
  rw [Program.bind_apply, Outcome.follows_bind]
  exact (hp tr m₀ m).mono (fun tr m₀ m a ha => hf a ha tr m₀ m) fun _ _ _ _ h => h

theorem ask {op : ToolOp} {post : op.Ans → Prop} (hop : Inside cwd root op.path)
    (h : ∀ a, legalAnswer op a → post a) : ReadsInside cwd root (askFiles op) post :=
  fun _ _ _ => ⟨hop, fun a ha _ => h a ha⟩

theorem ite {c : Prop} [Decidable c] {q : ToolProgram α} (hp : c → ReadsInside cwd root p post)
    (hq : ¬c → ReadsInside cwd root q post) : ReadsInside cwd root (if c then p else q) post := by
  split
  · exact hp ‹c›
  · exact hq ‹¬c›

/-- A loop opens only what is inside when every round does, with an invariant on what it carries. -/
theorem foldlM {f : α → β → ToolProgram α} {bs : List β} {a : α} (ha : post a)
    (hround : ∀ b ∈ bs, ∀ a, post a → ReadsInside cwd root (f a b) post) :
    ReadsInside cwd root (bs.foldlM f a) post := by
  induction bs generalizing a with
  | nil => exact pure ha
  | cons b bs ih =>
    rw [List.foldlM_cons]
    exact (hround b List.mem_cons_self a ha).bind fun a' ha' =>
      ih ha' fun b hb => hround b (List.mem_cons_of_mem _ hb)

theorem tryCatch {h : String → ToolProgram α} (hp : ReadsInside cwd root p post)
    (hcatch : ∀ message, ReadsInside cwd root (h message) post) : ReadsInside cwd root (Program.tryCatch p h) post := by
  intro tr m₀ m
  rw [Program.tryCatch_apply, Outcome.follows_tryCatch]
  exact (hp tr m₀ m).mono (fun _ _ _ _ h => h) fun tr m₀ m message _ => hcatch message tr m₀ m

end ReadsInside

section Tools

variable {cwd : List (List Char)} {regExp : String → Option (String → Bool)} {root path : String} {input : JsRecord}
  {ctx : InvestigationToolContext} {name : String}

/-- Joined to the root, the path leads inside. -/
def Below (cwd : List (List Char)) (root file : String) : Prop := Inside cwd root (join root file)

/-- The path goes down into the root again after the levels it goes up. -/
def StaysBelow (cwd : List (List Char)) (root path : String) : Prop :=
  (leadFrom cwd root).drop ((leadFrom cwd root).length - levels (parts path)) <+: descent (parts path)

theorem below_iff (hcwd : AreNames cwd) (hroot : root ≠ "") : Below cwd root path ↔ StaysBelow cwd root path := by
  rw [Below, Inside, leadFrom_join hcwd hroot, StaysBelow]
  exact prefix_walkFrom_iff (areNames_leadFrom hcwd root).isName (parts path)

theorem readRepoFileLocal_inside (h : Below cwd root path) :
    ReadsInside cwd root (readRepoFileLocal root path) fun _ => True :=
  .ask h fun _ _ => trivial

/-- An entry of a directory inside is inside. -/
theorem Inside.entry (hcwd : AreNames cwd) {current : String} (h : Inside cwd root current) (hne : current ≠ "")
    {entry : Dirent} (hentry : IsName entry.name.toList ∧ '/' ∉ entry.name.toList) :
    Inside cwd root (join current entry.name) := by
  have hparts : parts entry.name = [entry.name.toList] := List.splitOn_eq_singleton hentry.2
  have hlead : leadFrom cwd (join current entry.name) = leadFrom cwd current ++ [entry.name.toList] := by
    rw [leadFrom_join hcwd hne, hparts]
    exact walkFrom_names _ fun seg hseg => List.mem_singleton.mp hseg ▸ hentry.1
  rw [Inside, hlead]
  exact h.trans (List.prefix_append _ _)

theorem walk_inside (hcwd : AreNames cwd) (hroot : root ≠ "") (depthLeft : ℕ) {current : String} {out : List String}
    (hcurrent : Inside cwd root current) (hne : current ≠ "") (hout : ∀ file ∈ out, Below cwd root file) :
    ReadsInside cwd root (walk cwd root depthLeft current out) fun out => ∀ file ∈ out, Below cwd root file := by
  -- The induction is on the levels that are left; what was found before stays below the root.
  induction depthLeft generalizing current out with
  | zero => exact .pure hout
  | succ depthLeft ih =>
    refine .ite (fun _ => .pure hout) fun _ => ?_
    have hlist : ReadsInside cwd root (askFiles (.readdir current)) (legalAnswer (.readdir current)) :=
      .ask hcurrent fun _ h => h
    refine hlist.bind fun entries hentries => ?_
    rcases entries with _ | entries
    · exact .pure hout
    refine .foldlM hout fun entry hmem out hout => ?_
    have hentry := hcurrent.entry hcwd hne (hentries entry hmem)
    refine .ite (fun _ => .pure hout) fun _ => .ite (fun _ => .ite (fun _ => .pure hout) fun _ => ?_) fun _ =>
      .ite (fun _ => .pure ?_) fun _ => .pure hout
    · exact ih hentry (join_ne_empty _ _) hout
    · intro file hfile
      rcases List.mem_append.mp hfile with hfile | hfile
      · exact hout file hfile
      · rw [List.mem_singleton.mp hfile, Below, Inside, leadFrom_join_relative hcwd hroot hentry]
        exact hentry

theorem listSourceFiles_inside (hcwd : AreNames cwd) (hroot : root ≠ "") :
    ReadsInside cwd root (listSourceFiles cwd root) fun files => ∀ file ∈ files, Below cwd root file := by
  have hnone : ∀ file ∈ ([] : List String), Below cwd root file := by simp
  refine (walk_inside hcwd hroot _ List.prefix_rfl hroot hnone).bind fun out hout => .pure ?_
  intro file hfile
  exact hout file ((List.perm_insertionSort _ out).subset hfile)

/-- A search opens what is below the root, when the one path that it is given is. -/
theorem grepRepo_inside (hcwd : AreNames cwd) (hroot : root ≠ "") {pattern : String} {onlyPath : Option String}
    {maxMatches : ℚ} (hpath : 0 < maxMatches → ∀ path, onlyPath = some path → Below cwd root path) :
    ReadsInside cwd root (grepRepo cwd regExp root pattern onlyPath maxMatches) fun _ => True := by
  unfold grepRepo
  split
  · exact .throw
  · rename_i test htest
    have hfiles : ReadsInside cwd root (grepFiles cwd root onlyPath) fun files =>
        0 < maxMatches → ∀ file ∈ files, Below cwd root file := by
      rcases onlyPath with _ | path
      · refine (listSourceFiles_inside hcwd hroot).bind fun files hfiles => .pure fun _ file hfile => ?_
        exact hfiles file (List.mem_of_mem_take hfile)
      · refine .pure fun hmax file hfile => ?_
        exact hpath hmax file (congrArg some (List.mem_singleton.mp hfile).symm)
    refine hfiles.bind fun files hfiles => ?_
    apply ReadsInside.foldlM trivial
    intro file hfile found _
    refine .ite (fun _ => .pure trivial) fun hmore => ?_
    have hmax : 0 < maxMatches := lt_of_le_of_lt (Nat.cast_nonneg _) (not_le.mp hmore)
    refine (readRepoFileLocal_inside (hfiles hmax file hfile)).bind fun content _ => ?_
    rcases content with _ | content
    · exact .pure trivial
    · exact .pure trivial

/-- The path that a tool hands on to the file system as it was given. -/
def givenPath (name : String) (input : JsRecord) : Option String :=
  if name = "read_file" then asString (input.lookup "path")
  else if name = "grep" ∧ (asString (input.lookup "pattern")).isSome ∧ 0 < grepLimit input then
    asString (input.lookup "path")
  else none

theorem root_ne_empty (h : ctx.root? = some root) : root ≠ "" := by
  rw [InvestigationToolContext.root?] at h
  simpa using (Option.filter_eq_some_iff.mp h).2

theorem toolReadFile_inside (hroot : ctx.root? = some root)
    (hpath : ∀ path, asString (input.lookup "path") = some path → Below cwd root path) :
    ReadsInside cwd root (toolReadFile input ctx) fun _ => True := by
  rw [toolReadFile, hroot]
  rcases hinput : asString (input.lookup "path") with _ | path
  · exact .pure trivial
  · refine (readRepoFileLocal_inside (hpath path hinput)).bind fun content _ => ?_
    rcases content with _ | content
    · exact .pure trivial
    · exact .pure trivial

theorem toolGrep_inside (hcwd : AreNames cwd) (hroot : ctx.root? = some root)
    (hpath : (asString (input.lookup "pattern")).isSome → 0 < grepLimit input →
      ∀ path, asString (input.lookup "path") = some path → Below cwd root path) :
    ReadsInside cwd root (toolGrep cwd regExp input ctx) fun _ => True := by
  rw [toolGrep, hroot]
  rcases hpattern : asString (input.lookup "pattern") with _ | pattern
  · exact .pure trivial
  · refine (grepRepo_inside hcwd (root_ne_empty hroot) fun hmax path h => ?_).bind fun _ _ => .pure trivial
    exact hpath (by rw [hpattern]; rfl) hmax path h

theorem toolFindDefinition_inside (hcwd : AreNames cwd) (hroot : ctx.root? = some root) :
    ReadsInside cwd root (toolFindDefinition cwd regExp input ctx) fun _ => True := by
  rw [toolFindDefinition, hroot]
  rcases asString (input.lookup "symbol") with _ | symbol
  · exact .pure trivial
  · refine (grepRepo_inside hcwd (root_ne_empty hroot) fun _ path h => ?_).bind fun _ _ => .pure trivial
    cases h

/-- The tools open what is below the root, when the path that one hands on is. -/
theorem executeInvestigationTool_inside (hcwd : AreNames cwd) (hroot : ctx.root? = some root)
    (hpath : ∀ path, givenPath name input = some path → Below cwd root path) :
    ReadsInside cwd root (executeInvestigationTool cwd regExp name input ctx) fun _ => True := by
  refine .tryCatch ?_ fun message => .pure trivial
  refine .ite (fun hread => ?_) fun hread => .ite (fun hgrep => ?_) fun hgrep =>
    .ite (fun _ => toolFindDefinition_inside hcwd hroot) fun _ => .ite (fun _ => .pure trivial) fun _ => .pure trivial
  · rw [givenPath, if_pos hread] at hpath
    exact toolReadFile_inside hroot hpath
  · refine toolGrep_inside hcwd hroot fun hpattern hmax => ?_
    rw [givenPath, if_neg hread, if_pos ⟨hgrep, hpattern, hmax⟩] at hpath
    exact hpath

/-- The path that is handed on is opened first. -/
theorem executeInvestigationTool_opens (hregExp : ∀ s, (regExp (escapeRegExp s)).isSome = true)
    (hroot : ctx.root? = some root) (hpath : givenPath name input = some path) :
    ∃ k, executeInvestigationTool cwd regExp name input ctx () = .await () (.readFile (join root path)) k := by
  rw [givenPath] at hpath
  split_ifs at hpath with hread hgrep
  · subst hread
    rw [executeInvestigationTool, if_pos rfl, Program.tryCatch_apply, toolReadFile, hpath, hroot]
    exact ⟨_, rfl⟩
  · obtain ⟨rfl, hpattern, hmax⟩ := hgrep
    obtain ⟨pattern, hpattern⟩ := Option.isSome_iff_exists.mp hpattern
    have htest : ∃ test, (regExp pattern).or (regExp (escapeRegExp pattern)) = some test := by
      rw [← Option.isSome_iff_exists, Option.isSome_or, hregExp, Bool.or_true]
    obtain ⟨test, htest⟩ := htest
    have hzero : ¬grepLimit input ≤ (([] : List GrepMatch).length : ℚ) := by simpa using hmax
    rw [executeInvestigationTool, if_neg (by decide), if_pos rfl, Program.tryCatch_apply, toolGrep, hpattern, hroot, hpath]
    simp only [grepRepo, htest, grepFiles, Program.bind_apply, Program.pure_apply, Outcome.bind, List.foldlM_cons,
      if_neg hzero]
    exact ⟨_, rfl⟩

theorem readSource_inside (hcwd : AreNames cwd) (root filePath : String) :
    ReadsInside cwd root (readSource cwd root filePath) fun _ => True := by
  refine .ite (fun _ => .pure trivial) fun hinside => .ask ?_ fun _ _ => trivial
  have hbase := areNames_leadFrom hcwd root
  have htarget : AreNames (leadFrom (leadFrom cwd (resolve cwd [root])) filePath) :=
    areNames_leadFrom (areNames_leadFrom hcwd _) filePath
  have hlead : leadFrom cwd (resolve cwd [resolve cwd [root], filePath]) =
      leadFrom (leadFrom cwd (resolve cwd [root])) filePath := leadFrom_rooted htarget
  show leadFrom cwd root <+: leadFrom cwd (resolve cwd [resolve cwd [root], filePath])
  rw [hlead]
  refine prefix_of_rooted_startsWith hbase htarget ?_
  by_contra hnot
  rw [not_or, Bool.not_eq_true] at hnot
  exact hinside hnot

/-- Every path that a program opens, in any run in which directories list names, is inside. -/
def OpensInside {α : Type} (cwd : List (List Char)) (root : String) (p : ToolProgram α) : Prop :=
  ∀ tr m₀ m op k, (∀ x ∈ tr, legalAnswer x.op x.answer) → p.Ran tr m₀ (.await m op k) → Inside cwd root op.path

theorem ReadsInside.opensInside {α : Type} {p : ToolProgram α} {post : α → Prop} (h : ReadsInside cwd root p post) :
    OpensInside cwd root p :=
  fun _ _ _ _ _ hlegal hran => hran.awaits (fun m => h [] m m) hlegal

/-- So is the path that it opens first. -/
theorem OpensInside.first {α : Type} {p : ToolProgram α} (h : OpensInside cwd root p) {op : ToolOp} {k}
    (hp : p () = .await () op k) : Inside cwd root op.path := by
  have hran : p.Ran [] () (.await () op k) := by
    rw [← hp]
    exact .start ()
  exact h [] () () op k (by simp) hran

/-- What the tools and the reader of the fix agent open is inside the root, exactly when the path that a tool hands on
as it was given goes down into the root again after the levels it goes up. -/
theorem tools_open_inside_iff (hcwd : AreNames cwd) (hregExp : ∀ s, (regExp (escapeRegExp s)).isSome = true)
    (name : String) (input : JsRecord) (ctx : InvestigationToolContext) :
    ((∀ root, ctx.root? = some root → OpensInside cwd root (executeInvestigationTool cwd regExp name input ctx)) ∧
        ∀ root filePath, OpensInside cwd root (readSource cwd root filePath)) ↔
      ∀ root path, ctx.root? = some root → givenPath name input = some path → StaysBelow cwd root path := by
  constructor
  · rintro ⟨htools, -⟩ root path hroot hpath
    obtain ⟨k, hopens⟩ := executeInvestigationTool_opens hregExp hroot hpath
    have hinside := (htools root hroot).first hopens
    rw [ToolOp.path_readFile] at hinside
    exact (below_iff hcwd (root_ne_empty hroot)).mp hinside
  · intro h
    refine ⟨fun root hroot => ?_, fun root filePath => (readSource_inside hcwd root filePath).opensInside⟩
    have hpath : ∀ path, givenPath name input = some path → Below cwd root path :=
      fun path hpath => (below_iff hcwd (root_ne_empty hroot)).mpr (h root path hroot hpath)
    exact (executeInvestigationTool_inside hcwd hroot hpath).opensInside

/-- A source file of a checkout at `/repo`. -/
theorem tools_open_inside_iff_source :
    ((∀ root, InvestigationToolContext.root? ⟨some "/repo"⟩ = some root → OpensInside [] root
          (executeInvestigationTool [] (fun _ => some fun _ => false) "read_file" [("path", .str "src/index.ts")]
            ⟨some "/repo"⟩)) ∧
        ∀ root filePath, OpensInside [] root (readSource [] root filePath)) ↔
      ∀ root path, InvestigationToolContext.root? ⟨some "/repo"⟩ = some root →
        givenPath "read_file" [("path", .str "src/index.ts")] = some path → StaysBelow [] root path :=
  tools_open_inside_iff (by simp [AreNames]) (fun _ => rfl) _ _ _

/-- A file next to the checkout is opened by way of the level above it. -/
theorem tools_open_outside :
    ¬∀ root, InvestigationToolContext.root? ⟨some "/repo"⟩ = some root → OpensInside [] root
      (executeInvestigationTool [] (fun _ => some fun _ => false) "read_file" [("path", .str "../secrets.env")]
        ⟨some "/repo"⟩) := by
  intro h
  have hroot : InvestigationToolContext.root? ⟨some "/repo"⟩ = some "/repo" := by decide +kernel
  have hpath : givenPath "read_file" [("path", .str "../secrets.env")] = some "../secrets.env" := by decide +kernel
  obtain ⟨k, hopens⟩ :=
    @executeInvestigationTool_opens [] (fun _ => some fun _ => false) _ _ _ _ _ (fun _ => rfl) hroot hpath
  have hinside := (h "/repo" hroot).first hopens
  rw [ToolOp.path_readFile] at hinside
  have houtside : ¬leadFrom [] "/repo" <+: leadFrom [] (join "/repo" "../secrets.env") := by decide +kernel
  exact houtside hinside

end Tools

end MontrSecure.Confirm
