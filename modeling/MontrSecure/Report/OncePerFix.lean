import MontrSecure.Async.Running
import MontrSecure.Orchestrator.Runtime
import MontrSecure.Report.AutoFix

/-!
# One pull request for a fix

An execution of the last layer opens what it has planned, and when something fails afterwards the layer is
attempted again from the start, with no record of what was opened. Over any execution no fix has two pull
requests and no branch is used twice, as long as no attempt is made after an open has succeeded and the fixes
are told apart by the slugs of their findings.
-/

namespace MontrSecure

open Async Outcome

/-- What the last layer has awaited. -/
abbrev ReportTrace := Trace ReportOp ReportOp.Ans ReportMemory

/-- `runWithRetry` on the runner of the last layer, with its policy. -/
def layer5Execution (deps : ReportDeps) : ReportProgram (List PullRequest) :=
  let policy := retryPolicies .layer5
  Program.retryFrom (·.aborted) isRetriable (fun i => .sleep (backoffDelayMs policy i))
    (fun _ => runReport deps) (policy.attempts - 1) 0

/-! ## What was opened -/

/-- The plan of an open that has succeeded. -/
def openedPlan (x : Await ReportOp ReportOp.Ans ReportMemory) : Option AutoFixPrPlan :=
  match x with
  | ⟨_, .openPr plan, .ok _⟩ => some plan
  | _ => none

/-- The plans of the opens that have succeeded, latest first. -/
def openedPlans (tr : ReportTrace) : List AutoFixPrPlan := tr.filterMap openedPlan

/-- Two plans have different branches and no fix in common. -/
def Apart (p q : AutoFixPrPlan) : Prop := p.branch ≠ q.branch ∧ ∀ id ∈ p.fixIds, id ∉ q.fixIds

theorem Apart.symm {p q : AutoFixPrPlan} (h : Apart p q) : Apart q p :=
  ⟨h.1.symm, fun id hq hp => h.2 id hp hq⟩

/-! ## When it goes right -/

/-- The pause before an attempt. -/
def ReportOp.isSleep : ReportOp → Bool
  | sleep _ => true
  | _ => false

/-- The fixes of a flow get pull requests of their own: one for all, or different ids and slugs. -/
def FixesApart (input : AutoFixFlowInput) : Prop :=
  match input.prStrategy with
  | .grouped => True
  | .perFix => input.eligible.Pairwise fun f g =>
      f.id ≠ g.id ∧ slug f.confirmedFindingId ≠ slug g.confirmedFindingId

/-- No attempt is made after an open has succeeded, and what was read has its fixes apart. -/
structure Careful (deps : ReportDeps) (tr : ReportTrace) : Prop where
  noLateRetry : ∀ x earlier, x :: earlier <:+ tr → x.op.isSleep = true → openedPlans earlier = []
  fixesApart : ∀ m confirmed fixes,
    (⟨m, .prepare, .ok (confirmed, fixes)⟩ : Await ReportOp ReportOp.Ans ReportMemory) ∈ tr →
      FixesApart (deps.flow confirmed fixes)

variable {deps : ReportDeps} {tr tr' : ReportTrace}

theorem Careful.of_suffix (h : Careful deps tr') (hsuffix : tr <:+ tr') : Careful deps tr where
  noLateRetry x earlier hx := h.noLateRetry x earlier (hx.trans hsuffix)
  fixesApart m confirmed fixes hmem := h.fixesApart m confirmed fixes (hsuffix.subset hmem)

/-- What is planned is apart when the fixes are. -/
theorem plans_apart {input : AutoFixFlowInput} (h : FixesApart input) :
    (planAutoFixPullRequests input).Pairwise Apart := by
  unfold planAutoFixPullRequests
  unfold FixesApart at h
  split
  · exact .nil
  · cases hstrategy : input.prStrategy with
    | grouped => exact List.pairwise_singleton _ _
    | perFix =>
      rw [hstrategy] at h
      apply List.Pairwise.map _ _ h
      rintro f g ⟨hid, hslug⟩
      constructor
      · show "montr/fix/" ++ slug input.scan.id ++ "/" ++ slug f.confirmedFindingId ≠
          "montr/fix/" ++ slug input.scan.id ++ "/" ++ slug g.confirmedFindingId
        simpa using hslug
      · intro id hf hg
        rw [List.mem_singleton.mp hf] at hg
        exact hid (List.mem_singleton.mp hg)

/-! ## Every execution -/

/-- In a careful execution a plan that is opened is apart from all that were opened before. -/
def opensApart (deps : ReportDeps) : Protocol ReportOp ReportOp.Ans ReportMemory where
  answers _ _ := True
  awaits tr _ _ op := ∀ plan, op = .openPr plan → Careful deps tr → ∀ q ∈ openedPlans tr, Apart q plan
  ends _ _ _ := True

/-- What was opened is among some plans. -/
def OpenedAmong (deps : ReportDeps) (plans : List AutoFixPrPlan) (tr : ReportTrace) : Prop :=
  Careful deps tr → ∀ q ∈ openedPlans tr, q ∈ plans

/-- Nothing but an open adds to what was opened. -/
theorem OpenedAmong.cons {plans : List AutoFixPrPlan} {x : Await ReportOp ReportOp.Ans ReportMemory}
    (h : OpenedAmong deps plans tr) (hx : ∀ plan, openedPlan x = some plan → plan ∈ plans) :
    OpenedAmong deps plans (x :: tr) := by
  intro hcareful q hq
  rw [openedPlans, List.filterMap_cons] at hq
  have hbefore := h (hcareful.of_suffix (List.suffix_cons x tr))
  cases hopened : openedPlan x with
  | none =>
    rw [hopened] at hq
    exact hbefore q hq
  | some plan =>
    rw [hopened] at hq
    rcases List.mem_cons.mp hq with rfl | hq
    · exact hx q hopened
    · exact hbefore q hq

theorem OpenedAmong.mono {plans plans' : List AutoFixPrPlan} (h : OpenedAmong deps plans tr)
    (hsub : plans ⊆ plans') : OpenedAmong deps plans' tr :=
  fun hcareful q hq => hsub (h hcareful q hq)

/-- The loop opens plans that are apart from those it has opened. -/
theorem follows_openPlans {input : AutoFixFlowInput} {opened plans : List AutoFixPrPlan} {m₀ m : ReportMemory}
    (hapart : ∀ tr', tr <:+ tr' → Careful deps tr' → (opened ++ plans).Pairwise Apart)
    (hopened : OpenedAmong deps opened tr) :
    (openPlans input plans m).Follows (opensApart deps) (fun _ _ _ _ => True) (fun _ _ _ _ => True) tr m₀ := by
  induction plans generalizing opened tr m₀ m with
  | nil => trivial
  | cons plan plans ih =>
    rw [openPlans]
    refine follows_ofExcept_bind (fun _ _ => ?_) fun _ _ => trivial
    refine follows_ask_bind _ ?_ (fun pr m₁ _ => ?_) fun _ _ _ => trivial
    · rintro _ ⟨⟩ hcareful q hq
      have hpair := hapart tr List.suffix_rfl hcareful
      exact (List.pairwise_append.mp hpair).2.2 q (hopened hcareful q hq) plan List.mem_cons_self
    · -- From here on the plan is one of those that were opened.
      have hopened' : OpenedAmong deps (opened ++ [plan]) (⟨m, .openPr plan, .ok pr⟩ :: tr) := by
        apply (hopened.mono (List.subset_append_left _ _)).cons
        rintro _ ⟨⟩
        exact List.mem_append_right _ (List.mem_singleton_self plan)
      refine follows_ask_bind _ (fun _ hop => by cases hop) (fun _ m₂ _ => ?_) fun _ _ _ => trivial
      rw [Program.bind_apply, follows_bind]
      refine @ih _ (opened ++ [plan]) _ _ (fun tr' hsuffix hcareful => ?_) (hopened'.cons ?_)
      · rw [List.append_assoc]
        exact hapart tr' ((((List.suffix_cons _ _).trans (List.suffix_cons _ _)).trans hsuffix)) hcareful
      · intro _ h
        cases h

/-- An attempt that begins when nothing was opened opens plans that are apart. -/
theorem follows_runReport {m₀ m : ReportMemory} (hnone : OpenedAmong deps [] tr) :
    (runReport deps m).Follows (opensApart deps) (fun _ _ _ _ => True) (fun _ _ _ _ => True) tr m₀ := by
  refine follows_ask_bind _ (fun _ hop => by cases hop) (fun read m₁ _ => ?_) fun _ _ _ => trivial
  obtain ⟨confirmed, fixes⟩ := read
  dsimp only
  rw [Program.bind_apply, follows_bind]
  have hread : OpenedAmong deps [] (⟨m, .prepare, .ok (confirmed, fixes)⟩ :: tr) := by
    apply hnone.cons
    intro _ h
    cases h
  have hassemble : ∀ (tr' : ReportTrace) (m₀' m' : ReportMemory) (prs : List PullRequest), True →
      ((do askReport (.assemble prs); return prs : ReportProgram (List PullRequest)) m').Follows
        (opensApart deps) (fun _ _ _ _ => True) (fun _ _ _ _ => True) tr' m₀' := by
    intro tr' m₀' m' prs _
    exact follows_ask_bind _ (fun _ hop => by cases hop) (fun _ _ _ => trivial) fun _ _ _ => trivial
  unfold openAutoFixPullRequests
  cases (deps.flow confirmed fixes).opener with
  | none => exact hassemble _ _ _ _ trivial
  | some _ =>
    refine Follows.mono (follows_openPlans (fun tr' hsuffix hcareful => ?_) hread) hassemble
      fun _ _ _ _ _ => trivial
    exact plans_apart (hcareful.fixesApart m confirmed fixes (hsuffix.subset List.mem_cons_self))

/-- Every attempt opens plans that are apart: before the first one and after each pause nothing was opened. -/
theorem follows_layer5Execution (m₀ m : ReportMemory) :
    (layer5Execution deps m).Follows (opensApart deps) (fun _ _ _ _ => True) (fun _ _ _ _ => True) [] m₀ := by
  apply Async.Outcome.follows_retryFrom (I := OpenedAmong deps []) (E := fun _ => True)
  · exact fun i tr m₀ m hI => follows_runReport hI
  · rintro i tr m₀ m - _ ⟨⟩
  · intro i tr m r _ hcareful q hq
    have hnone := hcareful.noLateRetry _ tr List.suffix_rfl rfl
    change q ∈ openedPlans tr at hq
    rwa [hnone] at hq
  · intro _ q hq
    cases hq

/-- The plans of a trace that conforms are apart when it is careful. -/
theorem pairwise_of_conforms (h : (opensApart deps).Conforms tr) (hcareful : Careful deps tr) :
    (openedPlans tr).Pairwise Apart := by
  induction tr with
  | nil => exact .nil
  | cons x tr ih =>
    obtain ⟨⟨m₀, hawaits⟩, -, hbefore⟩ := (Protocol.conforms_cons x tr).mp h
    have hpast := hcareful.of_suffix (List.suffix_cons x tr)
    rw [openedPlans, List.filterMap_cons]
    obtain ⟨mem, op, answer⟩ := x
    cases op with
    | openPr plan =>
      cases answer with
      | ok pr => exact .cons (fun q hq => (hawaits plan rfl hpast q hq).symm) (ih hbefore hpast)
      | error e => exact ih hbefore hpast
    | prepare | auditAppend _ | assemble _ | sleep _ => exact ih hbefore hpast

private def shopScan : Scan :=
  { id := "s", clientId := "c", repo := "shop", branch := "main", mode := .full, scope := { mode := .full }
    gateState := .approved, operator := "op", createdAt := 0 }

private def shopReport : ReportDeps := { scan := shopScan, autoApply := true, opener := some .github }

private def corsFix : Fix :=
  { id := "fix_cf", scanId := "s", clientId := "c", confirmedFindingId := "cf", patch := "", rationale := ""
    proofOfFixTest := { code := "", failsPrePatch := true, passesPostPatch := true }
    riskClass := .autoEligible, riskClassRationale := "", createdAt := 0 }

private def shopPr : PullRequest :=
  { id := "pr", scanId := "s", clientId := "c", provider := .github, branch := "b", title := "t"
    bodySummary := "", fixIds := ["fix_cf"], createdAt := 0 }

/-- Everything is resolved but, at times, an append to the audit log. -/
private def reportAnswer (auditFails : Bool) :
    (op : ReportOp) → ReportMemory → ReportOp.Ans op × ReportMemory
  | .prepare, m => (.ok ([], [corsFix]), m)
  | .openPr _, m => (.ok shopPr, m)
  | .auditAppend _, m => (if auditFails then .error (.other "connection lost") else .ok (), m)
  | .assemble _, m => (.ok (), m)
  | .sleep _, m => (.ok (), m)

/-- No pause was made, and what was read is one fix. -/
private def calm (x : Await ReportOp ReportOp.Ans ReportMemory) : Bool :=
  match x with
  | ⟨_, .sleep _, _⟩ => false
  | ⟨_, .prepare, .ok (_, fixes)⟩ => fixes.length ≤ 1
  | _ => true

private theorem careful_of_calm (h : ∀ x ∈ tr, calm x = true) : Careful deps tr where
  noLateRetry x earlier hx hsleep := by
    obtain ⟨mem, op, answer⟩ := x
    have hcalm := h _ (hx.subset List.mem_cons_self)
    cases op with
    | sleep ms => cases hcalm
    | prepare | openPr _ | auditAppend _ | assemble _ => cases hsleep
  fixesApart m confirmed fixes hmem := by
    have hone : fixes.length ≤ 1 := of_decide_eq_true (h _ hmem)
    unfold FixesApart
    split
    · trivial
    · apply List.Pairwise.filter
      cases fixes with
      | nil => exact .nil
      | cons f rest =>
        have hrest : rest = [] := List.length_eq_zero_iff.mp (Nat.le_zero.mp (Nat.le_of_succ_le_succ hone))
        rw [hrest]
        exact List.pairwise_singleton _ _

/-- The execution in which nothing fails. -/
private theorem exists_calm : ∃ tr m₀ o, (layer5Execution shopReport).Ran tr m₀ o ∧
    (openedPlans tr).map (·.fixIds) = [["fix_cf"]] ∧ tr.all calm = true := by
  have hran : (layer5Execution shopReport).Ran
      (Outcome.replay (reportAnswer false) 8 [] {} (layer5Execution shopReport {})).1 _ _ :=
    (Program.Ran.start _).replay
  exact ⟨_, _, _, hran, by decide +kernel, by decide +kernel⟩

/-- The append to the audit log fails after the open: the layer is attempted again. -/
private theorem exists_again : ∃ tr m₀ o, (layer5Execution shopReport).Ran tr m₀ o ∧
    (openedPlans tr).map (·.fixIds) = [["fix_cf"], ["fix_cf"]] := by
  let first := Outcome.replay (reportAnswer true) 3 [] {} (layer5Execution shopReport {})
  have hfirst : (layer5Execution shopReport).Ran first.1 first.2.1 first.2.2 := (Program.Ran.start _).replay
  have hran : (layer5Execution shopReport).Ran (Outcome.replay (reportAnswer false) 8 first.1 first.2.1 first.2.2).1
      _ _ := hfirst.replay
  exact ⟨_, _, _, hran, by decide +kernel⟩

end MontrSecure
