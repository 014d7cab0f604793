import Mathlib.Logic.Function.Basic

/-!
# A git checkout

The working tree, the index and the branches of a checkout, and what the commands do to them that a tool stages a
change with. A command is a relation between states: it has no successor where git refuses it. A sequence of commands
stops at the first that fails, which any of them may, and what the ones before did stays.
-/

namespace Git

/-- What the files of a tree have; there are no ignored paths. -/
abbrev Tree (Path Content : Type) : Type := Path → Option Content

/-- A patch: it applies as a whole, or not at all. -/
abbrev Patch (Path Content : Type) : Type := Tree Path Content → Option (Tree Path Content)

variable {Path Content : Type}

/-- A checkout, and the branches of its remotes. -/
structure Checkout (Path Content : Type) where
  head : String
  branches : String → Option (Tree Path Content)
  index : Tree Path Content
  work : Tree Path Content
  remotes : String → String → Option (Tree Path Content)

namespace Checkout

variable (s : Checkout Path Content)

/-- The tree of the branch that is checked out. -/
def headTree : Tree Path Content := (s.branches s.head).getD fun _ => none

/-- A path with a change that is not committed. -/
def Dirty (p : Path) : Prop := s.index p ≠ s.headTree p ∨ s.work p ≠ s.headTree p

/-- There is a branch, and nothing to commit. -/
structure Clean : Prop where
  exists_head : ∃ t, s.branches s.head = some t
  index_eq : s.index = s.headTree
  work_eq : s.work = s.headTree

end Checkout

/-- The commands. -/
inductive Command (Path Content : Type) where
  | checkout (branch : String)
  | checkoutLocalBranch (branch : String)
  | writePatch
  | apply (patch : Patch Path Content)
  | addAll
  | commit
  | push (remote branch : String)

/-- What a command does when it succeeds. A checkout refuses to lose changes, and keeps those of paths that both
branches have alike. A commit of nothing leaves the branch as it is. -/
inductive Runs : Command Path Content → Checkout Path Content → Checkout Path Content → Prop where
  | checkout {s s' : Checkout Path Content} {branch : String} {t : Tree Path Content}
      (exists_branch : s.branches branch = some t)
      (no_conflict : ∀ p, s.Dirty p → s.headTree p = t p)
      (head : s'.head = branch) (branches : s'.branches = s.branches) (remotes : s'.remotes = s.remotes)
      (kept : ∀ p, s.Dirty p → s'.index p = s.index p ∧ s'.work p = s.work p)
      (switched : ∀ p, ¬s.Dirty p → s'.index p = t p ∧ s'.work p = t p) :
      Runs (.checkout branch) s s'
  | checkoutLocalBranch {s : Checkout Path Content} {branch : String} (fresh : s.branches branch = none) :
      Runs (.checkoutLocalBranch branch) s
        { s with head := branch, branches := Function.update s.branches branch (some s.headTree) }
  | writePatch {s : Checkout Path Content} : Runs .writePatch s s
  | apply {s : Checkout Path Content} {patch : Patch Path Content} {t : Tree Path Content}
      (applies : patch s.work = some t) : Runs (.apply patch) s { s with work := t }
  | addAll {s : Checkout Path Content} : Runs .addAll s { s with index := s.work }
  | commit {s : Checkout Path Content} :
      Runs .commit s { s with branches := Function.update s.branches s.head (some s.index) }
  | push {s : Checkout Path Content} {remote branch : String} {t : Tree Path Content}
      (exists_branch : s.branches branch = some t) :
      Runs (.push remote branch) s
        { s with remotes := Function.update s.remotes remote (Function.update (s.remotes remote) branch (some t)) }

/-- How a sequence of commands ends: it is done, or stops at a command. -/
inductive Ending (Path Content : Type) where
  | done
  | failedAt (command : Command Path Content)

/-- A run of a sequence of commands. -/
inductive Executes :
    List (Command Path Content) → Checkout Path Content → Ending Path Content → Checkout Path Content → Prop where
  | done {s : Checkout Path Content} : Executes [] s .done s
  | step {c : Command Path Content} {cs : List (Command Path Content)} {s s' s'' : Checkout Path Content}
      {ending : Ending Path Content} (first : Runs c s s') (rest : Executes cs s' ending s'') :
      Executes (c :: cs) s ending s''
  | fail {c : Command Path Content} {cs : List (Command Path Content)} {s : Checkout Path Content} :
      Executes (c :: cs) s (.failedAt c) s

variable {s s' : Checkout Path Content} {branch : String}

/-! ## What each command has done -/

theorem Runs.of_checkoutLocalBranch (h : Runs (.checkoutLocalBranch branch) s s') :
    s.branches branch = none ∧
      s' = { s with head := branch, branches := Function.update s.branches branch (some s.headTree) } := by
  rcases h with _ | ⟨hfresh⟩
  exact ⟨hfresh, rfl⟩

theorem Runs.of_writePatch (h : Runs .writePatch s s') : s' = s := by
  rcases h
  rfl

theorem Runs.of_apply {patch : Patch Path Content} (h : Runs (.apply patch) s s') :
    ∃ t, patch s.work = some t ∧ s' = { s with work := t } := by
  rcases h with _ | _ | _ | ⟨happlies⟩
  exact ⟨_, happlies, rfl⟩

theorem Runs.of_addAll (h : Runs .addAll s s') : s' = { s with index := s.work } := by
  rcases h
  rfl

theorem Runs.of_commit (h : Runs .commit s s') :
    s' = { s with branches := Function.update s.branches s.head (some s.index) } := by
  rcases h
  rfl

theorem Runs.of_push {remote : String} (h : Runs (.push remote branch) s s') :
    ∃ t, s.branches branch = some t ∧
      s' = { s with
        remotes := Function.update s.remotes remote (Function.update (s.remotes remote) branch (some t)) } := by
  rcases h
  rename_i t hbranch
  exact ⟨t, hbranch, rfl⟩

/-- A sequence stops at its first command, or goes on behind it. -/
theorem Executes.of_cons {c : Command Path Content} {cs : List (Command Path Content)} {ending : Ending Path Content}
    (h : Executes (c :: cs) s ending s') :
    ending = .failedAt c ∧ s' = s ∨ ∃ mid, Runs c s mid ∧ Executes cs mid ending s' := by
  rcases h with _ | ⟨hfirst, hrest⟩ | _
  · exact .inr ⟨_, hfirst, hrest⟩
  · exact .inl ⟨rfl, rfl⟩

theorem Executes.of_nil {ending : Ending Path Content} (h : Executes [] s ending s') : ending = .done ∧ s' = s := by
  rcases h
  exact ⟨rfl, rfl⟩

/-- In a clean checkout, another branch is there as it is. -/
theorem Runs.of_checkout (hclean : s.Clean) (h : Runs (.checkout branch) s s') :
    ∃ t, s.branches branch = some t ∧
      s' = { s with head := branch, index := t, work := t } := by
  rcases h with ⟨hexists, -, hhead, hbranches, hremotes, -, hswitched⟩
  rename_i t
  have hnone : ∀ p, ¬s.Dirty p := by
    rintro p (hindex | hwork)
    · exact hindex (congrFun hclean.index_eq p)
    · exact hwork (congrFun hclean.work_eq p)
  have hindex : s'.index = t := funext fun p => (hswitched p (hnone p)).1
  have hwork : s'.work = t := funext fun p => (hswitched p (hnone p)).2
  refine ⟨t, hexists, ?_⟩
  rcases s' with ⟨head, branches, index, work, remotes⟩
  simp only [Checkout.mk.injEq]
  exact ⟨hhead, hbranches, hindex, hwork, hremotes⟩

/-- A branch with the tree that is checked out may be switched to, whatever is not committed. -/
theorem Runs.checkout_same (h : s.branches branch = some s.headTree) :
    Runs (.checkout branch) s { s with head := branch } := by
  refine .checkout h (fun _ _ => rfl) rfl rfl rfl (fun _ _ => ⟨rfl, rfl⟩) fun p hp => ?_
  constructor
  · by_contra hne
    exact hp (.inl hne)
  · by_contra hne
    exact hp (.inr hne)

end Git
