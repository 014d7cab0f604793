import MontrSecure.Git.Checkout

/-!
# Staging fixes on branches

`stagePatchOnBranch` of `packages/report/src/vcs.ts`: a patch is applied on a new branch of a checkout, committed and
pushed. Calls share the checkout, and what one of them leaves in the working tree is there for the next.
-/

namespace MontrSecure.Vcs

open Git

variable {Path Content : Type}

/-- The options of `stagePatchOnBranch`; the message of the commit is left out. -/
structure StageOptions (Path Content : Type) where
  baseBranch : String
  branch : String
  patch : Patch Path Content
  remote : Option String := none

/-- `opts.remote ?? "origin"`. -/
def StageOptions.remoteName (opts : StageOptions Path Content) : String := opts.remote.getD "origin"

/-- The commands of a call, after its guard. The patch file is removed in the end, whatever happens. -/
def stageCommands (opts : StageOptions Path Content) : List (Command Path Content) :=
  [.checkout opts.baseBranch, .checkoutLocalBranch opts.branch, .writePatch, .apply opts.patch, .addAll, .commit,
    .push opts.remoteName opts.branch]

/-- A call of `stagePatchOnBranch`: it refuses to stage on the base branch, or runs its commands. -/
inductive StagePatchOnBranch (opts : StageOptions Path Content) :
    Checkout Path Content → Option (Ending Path Content) → Checkout Path Content → Prop where
  | refused {s : Checkout Path Content} (same : opts.branch = opts.baseBranch) : StagePatchOnBranch opts s none s
  | runs {s s' : Checkout Path Content} {ending : Ending Path Content} (other : opts.branch ≠ opts.baseBranch)
      (executes : Executes (stageCommands opts) s ending s') : StagePatchOnBranch opts s (some ending) s'

/-- A branch that a call has pushed, with the tree that its base branch had. -/
structure Pushed (Path Content : Type) where
  opts : StageOptions Path Content
  base : Tree Path Content

/-- The states that calls lead to which all meet `p`, with the branches that they push. -/
inductive Reaches (p : StageOptions Path Content → Checkout Path Content → Option (Ending Path Content) → Prop)
    (s₀ : Checkout Path Content) : Checkout Path Content → List (Pushed Path Content) → Prop where
  | start : Reaches p s₀ s₀ []
  | pushes {s s' : Checkout Path Content} {pushed : List (Pushed Path Content)} {opts : StageOptions Path Content}
      {base : Tree Path Content} (reached : Reaches p s₀ s pushed) (meets : p opts s (some .done))
      (call : StagePatchOnBranch opts s (some .done) s') (exists_base : s.branches opts.baseBranch = some base) :
      Reaches p s₀ s' (⟨opts, base⟩ :: pushed)
  | fails {s s' : Checkout Path Content} {pushed : List (Pushed Path Content)} {opts : StageOptions Path Content}
      {ending : Option (Ending Path Content)} (reached : Reaches p s₀ s pushed) (meets : p opts s ending)
      (call : StagePatchOnBranch opts s ending s') (failed : ending ≠ some .done) : Reaches p s₀ s' pushed

/-- Each pushed branch is the tree of its base branch with the patch of its call. -/
def OwnPatches (s : Checkout Path Content) (pushed : List (Pushed Path Content)) : Prop :=
  ∀ r ∈ pushed, ∃ t, r.opts.patch r.base = some t ∧ s.remotes r.opts.remoteName r.opts.branch = some t

/-- A call that stops between the patch and the commit has a patch that changes nothing. -/
def LeavesNothing (opts : StageOptions Path Content) (s : Checkout Path Content)
    (ending : Option (Ending Path Content)) : Prop :=
  ending = some (.failedAt .addAll) ∨ ending = some (.failedAt .commit) →
    ∀ base, s.branches opts.baseBranch = some base → opts.patch base = some base

/-! ## One call -/

/-- What a call does to a clean checkout. -/
structure Stages (opts : StageOptions Path Content) (s : Checkout Path Content)
    (ending : Option (Ending Path Content)) (s' : Checkout Path Content) : Prop where
  clean : s'.Clean
  branches : ∀ b, s.branches b ≠ none → s'.branches b = s.branches b
  remotes : ending ≠ some .done → s'.remotes = s.remotes
  pushed : ending = some .done → s.branches opts.branch = none ∧ s'.branches opts.branch ≠ none ∧
    ∃ base t, s.branches opts.baseBranch = some base ∧ opts.patch base = some t ∧
      s'.remotes = Function.update s.remotes opts.remoteName
        (Function.update (s.remotes opts.remoteName) opts.branch (some t))

section Call

variable {opts : StageOptions Path Content} {s s' : Checkout Path Content} {ending : Option (Ending Path Content)}

theorem clean_of_eq {t : Tree Path Content} (hhead : s.branches s.head = some t) (hindex : s.index = t)
    (hwork : s.work = t) : s.Clean := by
  have htree : s.headTree = t := by rw [Checkout.headTree, hhead, Option.getD_some]
  exact ⟨⟨t, hhead⟩, hindex.trans htree.symm, hwork.trans htree.symm⟩

/-- The checkout on the new branch, whose tree is `tree`. -/
def onNewBranch (opts : StageOptions Path Content) (s : Checkout Path Content) (tree index work : Tree Path Content) :
    Checkout Path Content :=
  { s with
    head := opts.branch
    branches := Function.update s.branches opts.branch (some tree)
    index := index
    work := work }

theorem onNewBranch_self (tree index work : Tree Path Content) :
    (onNewBranch opts s tree index work).branches opts.branch = some tree :=
  Function.update_self _ _ _

theorem headTree_onNewBranch (tree index work : Tree Path Content) :
    (onNewBranch opts s tree index work).headTree = tree := by
  change ((onNewBranch opts s tree index work).branches opts.branch).getD _ = tree
  rw [onNewBranch_self, Option.getD_some]

theorem clean_onNewBranch (t : Tree Path Content) : (onNewBranch opts s t t t).Clean :=
  clean_of_eq (onNewBranch_self t t t) rfl rfl

theorem onNewBranch_of_ne {b : String} (h : b ≠ opts.branch) (tree index work : Tree Path Content) :
    (onNewBranch opts s tree index work).branches b = s.branches b :=
  Function.update_of_ne h _ _

theorem onNewBranch_branches (hfresh : s.branches opts.branch = none) (tree index work : Tree Path Content)
    (b : String) (hb : s.branches b ≠ none) : (onNewBranch opts s tree index work).branches b = s.branches b := by
  refine onNewBranch_of_ne ?_ tree index work
  rintro rfl
  exact hb hfresh

/-- A commit of what is staged there. -/
theorem onNewBranch_commit (base t : Tree Path Content) :
    { onNewBranch opts s base t t with
      branches := Function.update (onNewBranch opts s base t t).branches opts.branch (some t) } =
      onNewBranch opts s t t t := by
  simp only [onNewBranch, Function.update_idem]

/-- A call that has stopped on its new branch, and left nothing there. -/
theorem stages_of_failed {t : Tree Path Content} {c : Command Path Content} (hfresh : s.branches opts.branch = none) :
    Stages opts s (some (.failedAt c)) (onNewBranch opts s t t t) where
  clean := clean_onNewBranch t
  branches := onNewBranch_branches hfresh t t t
  remotes _ := rfl
  pushed h := by cases h

/-- From the patch on. -/
theorem stages_of_apply {base : Tree Path Content} {e : Ending Path Content}
    (hbase : s.branches opts.baseBranch = some base) (hfresh : s.branches opts.branch = none)
    (hleaves : LeavesNothing opts s (some e))
    (h : Executes [.apply opts.patch, .addAll, .commit, .push opts.remoteName opts.branch]
      (onNewBranch opts s base base base) e s') : Stages opts s (some e) s' := by
  obtain ⟨rfl, rfl⟩ | ⟨_, happly, hrest⟩ := h.of_cons
  · exact stages_of_failed hfresh
  obtain ⟨t, happlies, rfl⟩ := happly.of_apply
  have hunchanged : e = .failedAt .addAll ∨ e = .failedAt .commit → t = base := fun he =>
    Option.some.inj (happlies.symm.trans (hleaves (he.imp (congrArg some) (congrArg some)) base hbase))
  obtain ⟨rfl, rfl⟩ | ⟨_, hadd, hrest⟩ := hrest.of_cons
  · obtain rfl := hunchanged (.inl rfl)
    exact stages_of_failed hfresh
  obtain rfl := hadd.of_addAll
  obtain ⟨rfl, rfl⟩ | ⟨_, hcommit, hrest⟩ := hrest.of_cons
  · obtain rfl := hunchanged (.inr rfl)
    exact stages_of_failed hfresh
  obtain rfl := hcommit.of_commit.trans (onNewBranch_commit base t)
  obtain ⟨rfl, rfl⟩ | ⟨_, hpush, hrest⟩ := hrest.of_cons
  · exact stages_of_failed hfresh
  obtain ⟨t', hbranch, rfl⟩ := hpush.of_push
  obtain ⟨rfl, rfl⟩ := hrest.of_nil
  have hself : (onNewBranch opts s t t t).branches opts.branch = some t := onNewBranch_self t t t
  obtain rfl : t = t' := Option.some.inj (hself.symm.trans hbranch)
  refine ⟨clean_of_eq hself rfl rfl, onNewBranch_branches hfresh t t t, fun h => absurd rfl h, fun _ => ?_⟩
  refine ⟨hfresh, ?_, base, t, hbase, happlies, rfl⟩
  change (onNewBranch opts s t t t).branches opts.branch ≠ none
  rw [hself]
  exact Option.some_ne_none t

/-- A call on a clean checkout leaves it clean, and pushes the patch of the call or nothing. -/
theorem StagePatchOnBranch.stages (hclean : s.Clean) (hleaves : LeavesNothing opts s ending)
    (h : StagePatchOnBranch opts s ending s') : Stages opts s ending s' := by
  rcases h with _ | ⟨hother, hruns⟩
  · exact ⟨hclean, fun _ _ => rfl, fun _ => rfl, fun h => nomatch h⟩
  obtain ⟨rfl, rfl⟩ | ⟨_, hcheckout, hrest⟩ := hruns.of_cons
  · exact ⟨hclean, fun _ _ => rfl, fun _ => rfl, fun h => nomatch h⟩
  obtain ⟨base, hbase, rfl⟩ := hcheckout.of_checkout hclean
  obtain ⟨rfl, rfl⟩ | ⟨_, hlocal, hrest⟩ := hrest.of_cons
  · exact ⟨clean_of_eq hbase rfl rfl, fun _ _ => rfl, fun _ => rfl, fun h => nomatch h⟩
  obtain ⟨hfresh, rfl⟩ := hlocal.of_checkoutLocalBranch
  have htree : Checkout.headTree { s with head := opts.baseBranch, index := base, work := base } = base := by
    rw [Checkout.headTree, hbase, Option.getD_some]
  rw [htree] at hrest
  obtain ⟨rfl, rfl⟩ | ⟨_, hwrite, hrest⟩ := hrest.of_cons
  · exact stages_of_failed hfresh
  obtain rfl := hwrite.of_writePatch
  exact stages_of_apply hbase hfresh hleaves hrest

end Call

/-! ## Calls one after the other -/

section Runs

variable {s₀ s : Checkout Path Content} {pushed : List (Pushed Path Content)}

/-- What calls keep that all leave nothing behind. -/
structure Staged (s : Checkout Path Content) (pushed : List (Pushed Path Content)) : Prop where
  clean : s.Clean
  own : OwnPatches s pushed
  here : ∀ r ∈ pushed, s.branches r.opts.branch ≠ none

/-- A branch that is pushed is new, so the ones before stay as they are. -/
theorem Staged.step {opts : StageOptions Path Content} {ending : Option (Ending Path Content)}
    {s' : Checkout Path Content} (h : Staged s pushed) (hstages : Stages opts s ending s') : Staged s' pushed := by
  refine ⟨hstages.clean, fun r hr => ?_, fun r hr => ?_⟩
  · obtain ⟨t, hpatch, hremote⟩ := h.own r hr
    refine ⟨t, hpatch, ?_⟩
    by_cases hdone : ending = some .done
    · obtain ⟨hfresh, -, base, t', -, -, hremotes⟩ := hstages.pushed hdone
      have hother : r.opts.branch ≠ opts.branch := by
        intro heq
        exact h.here r hr (heq ▸ hfresh)
      rw [hremotes]
      by_cases hname : r.opts.remoteName = opts.remoteName
      · rw [hname, Function.update_self, Function.update_of_ne hother, ← hname]
        exact hremote
      · rw [Function.update_of_ne hname]
        exact hremote
    · rw [hstages.remotes hdone]
      exact hremote
  · rw [hstages.branches _ (h.here r hr)]
    exact h.here r hr

theorem Reaches.staged (hclean : s₀.Clean) (h : Reaches LeavesNothing s₀ s pushed) : Staged s pushed := by
  induction h with
  | start => exact ⟨hclean, fun r hr => absurd hr List.not_mem_nil, fun r hr => absurd hr List.not_mem_nil⟩
  | fails _ hmeets hcall _ ih => exact ih.step (hcall.stages ih.clean hmeets)
  | @pushes s s' pushed opts base _ hmeets hcall hbase ih =>
    have hstages := hcall.stages ih.clean hmeets
    have hkept := ih.step hstages
    obtain ⟨-, hhere, base', t, hbase', hpatch, hremotes⟩ := hstages.pushed rfl
    obtain rfl : base = base' := Option.some.inj (hbase.symm.trans hbase')
    refine ⟨hkept.clean, List.forall_mem_cons.mpr ⟨⟨t, hpatch, ?_⟩, hkept.own⟩,
      List.forall_mem_cons.mpr ⟨hhere, hkept.here⟩⟩
    change s'.remotes opts.remoteName opts.branch = some t
    rw [hremotes, Function.update_self, Function.update_self]

end Runs

/-- A tree without files. -/
private def noFiles : Tree String String := fun _ => none

/-- A checkout of an empty `main`. -/
private def emptyMain : Checkout String String where
  head := "main"
  branches branch := if branch = "main" then some noFiles else none
  index := noFiles
  work := noFiles
  remotes _ _ := none

/-- What a patch makes of a tree that writes one file. -/
private def withFile (path : String) (t : Tree String String) : Tree String String :=
  fun p => if p = path then some "fixed" else t p

/-- The fix of one finding. -/
private def fixOf (path : String) : StageOptions String String where
  baseBranch := "main"
  branch := "montr/fix/" ++ path
  patch t := some (withFile path t)

private theorem main_emptyMain : emptyMain.branches "main" = some emptyMain.headTree := rfl

private theorem clean_emptyMain : emptyMain.Clean := clean_of_eq main_emptyMain rfl rfl

/-- The commands before the patch, when the tree that is checked out is that of `main`. -/
private theorem executes_branch {s s' : Checkout String String} {path : String} {ending : Ending String String}
    (hmain : s.branches "main" = some s.headTree) (hfresh : s.branches (fixOf path).branch = none)
    (h : Executes [.apply (fixOf path).patch, .addAll, .commit, .push "origin" (fixOf path).branch]
      (onNewBranch (fixOf path) s s.headTree s.index s.work) ending s') :
    Executes (stageCommands (fixOf path)) s ending s' := by
  have htree : Checkout.headTree { s with head := "main" } = s.headTree := by
    rw [Checkout.headTree, hmain, Option.getD_some]
  have hlocal := Runs.checkoutLocalBranch (s := { s with head := "main" }) hfresh
  rw [htree] at hlocal
  exact .step (.checkout_same hmain) (.step hlocal (.step .writePatch h))

/-- The commands from the patch on, when nothing fails. -/
private theorem executes_patch (s : Checkout String String) (path : String) (tree index work : Tree String String) :
    ∃ s', Executes [.apply (fixOf path).patch, .addAll, .commit, .push "origin" (fixOf path).branch]
        (onNewBranch (fixOf path) s tree index work) .done s' ∧
      s'.remotes "origin" (fixOf path).branch = some (withFile path work) := by
  let changed := withFile path work
  have hcommit : Runs .commit (onNewBranch (fixOf path) s tree changed changed)
      (onNewBranch (fixOf path) s changed changed changed) := by
    rw [← onNewBranch_commit tree changed]
    exact .commit
  refine ⟨_, .step (.apply rfl) (.step .addAll (.step hcommit
    (.step (.push (onNewBranch_self changed changed changed)) .done))), ?_⟩
  exact (congrFun (Function.update_self "origin" _ s.remotes) _).trans (Function.update_self _ _ _)

end MontrSecure.Vcs
