import MontrSecure.Confirm.Guard
import MontrSecure.Data.Fallible
import MontrSecure.Text.Splitting

/-!
# The egress guard

`packages/security/src/egress-guard.ts`: a default-deny policy is compiled from the configuration, and every outbound
request is held against it. `new URL(s).hostname` belongs to the runtime; a reader of host names stands for it.

* `Permitted` says from the configuration alone which hosts may be reached; the broad defaults of a provider are read
  as domains, label by label (`splitOn_suffix_iff`).
* `assert_createEgressGuard_iff` is the default-deny: a guard that was created lets a target through exactly when its
  host is permitted.
* `createEgressGuard_ok_iff` says when there is a guard at all. A provider always has a default host, so that the
  check for an empty policy never fails.
-/

/-! ## Suffixes in parts -/

namespace List

variable {α : Type} [BEq α] [LawfulBEq α] {x : α} {l d : List α}

omit [BEq α] [LawfulBEq α] in
/-- Parts in front of others, put together. -/
theorem cons_intercalate_suffix {parts rest : List (List α)} (hparts : parts ≠ []) (hrest : rest ≠ []) :
    (x :: [x].intercalate rest) <:+ [x].intercalate (parts ++ rest) := by
  induction parts with
  | nil => exact absurd rfl hparts
  | cons part parts ih =>
    rw [cons_append, intercalate_cons_of_ne_nil (by simp [hrest])]
    by_cases hnil : parts = []
    · subst hnil
      rw [nil_append, append_assoc]
      exact suffix_append _ _
    · exact (ih hnil).trans (suffix_append _ _)

/-- The parts of a list end with the parts of another exactly when it is that list, or ends with it after a
separator. -/
theorem splitOn_suffix_iff : d.splitOn x <:+ l.splitOn x ↔ l = d ∨ (x :: d) <:+ l := by
  constructor
  · rintro ⟨parts, hparts⟩
    -- put the parts together again
    have hl : [x].intercalate (parts ++ d.splitOn x) = l := by rw [hparts, intercalate_splitOn]
    have hd : [x].intercalate (d.splitOn x) = d := intercalate_splitOn x
    by_cases hnil : parts = []
    · left
      rw [← hl, hnil, nil_append, hd]
    · have hfront := cons_intercalate_suffix (x := x) hnil (splitOn_ne_nil x d)
      rw [hd, hl] at hfront
      exact .inr hfront
  · rintro (rfl | ⟨front, rfl⟩)
    · exact suffix_rfl
    · rw [splitOn_append_cons_self]
      exact suffix_append _ _

end List

namespace MontrSecure.Egress

open Confirm Fallible

/-! ## The configuration -/

/-- `Provider`. -/
inductive Provider where
  | anthropic
  | bedrock
  | vertex
  | azure
  | openai
  | google
  | xai
  | moonshot
  | zhipu
  | deepseek
  deriving DecidableEq

/-- The string of a provider. -/
def Provider.name : Provider → String
  | anthropic => "anthropic"
  | bedrock => "bedrock"
  | vertex => "vertex"
  | azure => "azure"
  | openai => "openai"
  | google => "google"
  | xai => "xai"
  | moonshot => "moonshot"
  | zhipu => "zhipu"
  | deepseek => "deepseek"

/-- `PROVIDER_DEFAULT_HOSTS`. -/
def providerDefaultHosts : Provider → List String
  | .anthropic => ["api.anthropic.com"]
  | .bedrock => [".amazonaws.com"]
  | .vertex => [".googleapis.com"]
  | .azure => [".openai.azure.com"]
  | .openai => ["api.openai.com"]
  | .google => ["generativelanguage.googleapis.com"]
  | .xai => ["api.x.ai"]
  | .moonshot => ["api.moonshot.ai"]
  | .zhipu => ["open.bigmodel.cn"]
  | .deepseek => ["api.deepseek.com"]

/-- `EgressConfig`. -/
structure EgressConfig where
  provider : Option Provider := none
  endpoint : Option String := none
  egressPolicy : Option String := none
  allowedEgressHosts : List String := []
  telemetryEnabled : Bool := false
  telemetryEndpoint : Option String := none
  dastAllowlist : List String := []

/-- `DeriveEgressOptions`. -/
structure DeriveEgressOptions where
  includeDastTargets : Bool := false
  extraHosts : List String := []

/-- `EgressAllowSource`. -/
inductive EgressAllowSource where
  | llmEndpoint
  | providerDefault
  | configAllowlist
  | telemetry
  | dastTarget
  deriving DecidableEq

/-- `EgressAllowEntry`. -/
structure EgressAllowEntry where
  host : String
  source : EgressAllowSource
  suffix : Bool
  deriving DecidableEq

/-- `EgressPolicy`. -/
structure EgressPolicy where
  entries : List EgressAllowEntry
  warnings : List String
  llmHost : Option String := none
  deriving DecidableEq

/-- `allowedHosts`. -/
def EgressPolicy.allowedHosts (policy : EgressPolicy) : List String :=
  (policy.entries.filter fun e => !e.suffix).map (·.host)

/-- `allowedSuffixes`. -/
def EgressPolicy.allowedSuffixes (policy : EgressPolicy) : List String :=
  (policy.entries.filter fun e => e.suffix).map (·.host)

/-! ## The policy -/

/-- A setting that is there and not empty. -/
def setting : Option String → Option String
  | some "" => none
  | s => s

example : setting none = none := by decide +kernel

/-- `EgressBlockedError`. -/
def egressBlocked (message : String) : Err := .montr .egressBlocked message false

section Policy

variable (hostname : String → Option String) (config : EgressConfig) (opts : DeriveEgressOptions)

/-- `normalizeHost`. -/
def normalizeHost (target : String) : Except Err String :=
  let t := trim target
  if t = "" then .error (egressBlocked "empty egress target")
  else
    match hostname (if hasScheme t then t else if ['/', '/'].isPrefixOf t.toList then "http:" ++ t
      else "http://" ++ t) with
    | some host => .ok (lower host)
    | none => .error (egressBlocked ("invalid egress target: " ++ t))

/-- `addExact`, as an entry. -/
def exactEntry (source : EgressAllowSource) (raw : String) : Except Err EgressAllowEntry := do
  return { host := ← normalizeHost hostname raw, source, suffix := false }

/-- The entry of a default host. -/
def defaultEntry (d : String) : EgressAllowEntry where
  host := lower d
  source := .providerDefault
  suffix := ['.'].isPrefixOf d.toList

/-- The warning about a default host. -/
def defaultWarning (provider : Provider) (d : String) : String :=
  "egress: provider '" ++ provider.name ++ "' has no explicit llm.endpoint; allowing broad suffix '" ++ d ++
    "'. Set llm.endpoint to narrow egress to a single host."

/-- The part of `deriveEgressPolicy` about the model: its endpoint, or the defaults of the provider. -/
def llmPolicy : Except Err EgressPolicy :=
  match setting config.endpoint with
  | some endpoint => do
    let llmHost ← normalizeHost hostname endpoint
    return { entries := [{ host := llmHost, source := .llmEndpoint, suffix := false }], warnings := []
             llmHost := some llmHost }
  | none =>
    let provider := config.provider.getD .anthropic
    let defaults := providerDefaultHosts provider
    .ok
      { entries := defaults.map defaultEntry
        warnings := (defaults.filter fun d => (defaultEntry d).suffix).map (defaultWarning provider)
        llmHost := (defaults.filter fun d => !(defaultEntry d).suffix).getLast?.map lower }

/-- The telemetry endpoint, when it is on. -/
def telemetryTargets : List String :=
  if config.telemetryEnabled then (setting config.telemetryEndpoint).toList else []

/-- The staging targets, when they are included. Malformed ones are skipped. -/
def dastEntries : List EgressAllowEntry :=
  if opts.includeDastTargets then
    config.dastAllowlist.filterMap fun t => (exactEntry hostname .dastTarget t).toOption
  else []

/-- The policy that is configured. -/
def configuredPolicy : String := config.egressPolicy.getD "default-deny"

/-- `deriveEgressPolicy`. -/
def deriveEgressPolicy : Except Err EgressPolicy := do
  let llm ← llmPolicy hostname config
  let listed ← config.allowedEgressHosts.mapM (exactEntry hostname .configAllowlist)
  let extra ← opts.extraHosts.mapM (exactEntry hostname .configAllowlist)
  let telemetry ← (telemetryTargets config).mapM (exactEntry hostname .telemetry)
  return {
    llm with
    entries := llm.entries ++ listed ++ extra ++ telemetry ++ dastEntries hostname config opts
    warnings := llm.warnings ++
      if configuredPolicy config = "default-deny" then []
      else ["egress policy is '" ++ configuredPolicy config ++ "', expected 'default-deny' (golden rule #1)."] }

/-- A host and a suffix: it is the domain, or a host under it. -/
def underSuffix (host suffix : String) : Bool :=
  decide (host.toList = suffix.toList.drop 1) || suffix.toList.isSuffixOf host.toList

/-- `isEgressAllowed`. -/
def isEgressAllowed (policy : EgressPolicy) (target : String) : Bool :=
  match normalizeHost hostname target with
  | .error _ => false
  | .ok host => policy.allowedHosts.contains host || policy.allowedSuffixes.any (underSuffix host)

/-- `assertEgressAllowed`. -/
def assertEgressAllowed (policy : EgressPolicy) (target : String) : Except Err Unit :=
  if isEgressAllowed hostname policy target then .ok ()
  else .error (egressBlocked ("egress denied: " ++ target ++ " is not the configured LLM endpoint"))

/-- `assertStartupEgress`. The warnings go to a sink. -/
def assertStartupEgress : Except Err EgressPolicy := do
  let policy ← deriveEgressPolicy hostname config opts
  if configuredPolicy config ≠ "default-deny" then
    throw (egressBlocked
      ("egress policy must be 'default-deny', got '" ++ configuredPolicy config ++ "' (golden rule #1)."))
  else if policy.allowedHosts = [] ∧ policy.allowedSuffixes = [] then
    throw (egressBlocked
      ("no egress destination resolved — configure llm.endpoint or a provider so the LLM is reachable."))
  else return policy

/-- `createEgressGuard`, of which `assert` is read. -/
def createEgressGuard : Except Err EgressGuard := do
  let policy ← assertStartupEgress hostname config opts
  return assertEgressAllowed hostname policy

end Policy

/-! ## What may be reached -/

/-- The labels of a host name. -/
def labels (host : String) : List (List Char) := host.toList.splitOn '.'

/-- A host that a default of a provider stands for: itself, or for a domain the hosts in it. -/
def InDefault (d host : String) : Prop :=
  if (defaultEntry d).suffix then ((lower d).toList.drop 1).splitOn '.' <:+ labels host else host = lower d

/-- What the configuration permits, and nothing else. -/
inductive Permitted (hostname : String → Option String) (config : EgressConfig) (opts : DeriveEgressOptions)
    (host : String) : Prop where
  | endpoint {endpoint : String} (h : setting config.endpoint = some endpoint)
      (hhost : normalizeHost hostname endpoint = .ok host)
  | provider {d : String} (h : setting config.endpoint = none)
      (hd : d ∈ providerDefaultHosts (config.provider.getD .anthropic)) (hhost : InDefault d host)
  | listed {raw : String} (h : raw ∈ config.allowedEgressHosts ++ opts.extraHosts)
      (hhost : normalizeHost hostname raw = .ok host)
  | telemetry {raw : String} (h : raw ∈ telemetryTargets config) (hhost : normalizeHost hostname raw = .ok host)
  | dast {raw : String} (hinclude : opts.includeDastTargets = true) (h : raw ∈ config.dastAllowlist)
      (hhost : normalizeHost hostname raw = .ok host)

/-- An entry lets a host through. -/
def EgressAllowEntry.Admits (e : EgressAllowEntry) (host : String) : Prop :=
  if e.suffix then underSuffix host e.host = true else host = e.host

section Permitted

variable {hostname : String → Option String} {config : EgressConfig} {opts : DeriveEgressOptions}
  {policy : EgressPolicy} {host raw target d : String} {source : EgressAllowSource}

/-- A policy lets a target through when one of its entries lets its host through. -/
theorem isEgressAllowed_iff : isEgressAllowed hostname policy target = true ↔
    ∃ host, normalizeHost hostname target = .ok host ∧ ∃ e ∈ policy.entries, e.Admits host := by
  unfold isEgressAllowed
  cases normalizeHost hostname target with
  | error e => simp
  | ok host =>
    simp only [Except.ok.injEq, exists_eq_left', Bool.or_eq_true, List.contains_iff_mem, List.any_eq_true,
      EgressPolicy.allowedHosts, EgressPolicy.allowedSuffixes, List.mem_map, List.mem_filter]
    constructor
    · rintro (⟨e, ⟨he, hexact⟩, rfl⟩ | ⟨_, ⟨e, ⟨he, hsuffix⟩, rfl⟩, hunder⟩)
      · refine ⟨e, he, ?_⟩
        rw [EgressAllowEntry.Admits, if_neg (by simpa using hexact)]
      · exact ⟨e, he, by rw [EgressAllowEntry.Admits, if_pos hsuffix]; exact hunder⟩
    · rintro ⟨e, he, hadmits⟩
      unfold EgressAllowEntry.Admits at hadmits
      split at hadmits
      · rename_i hsuffix
        exact .inr ⟨_, ⟨e, ⟨he, hsuffix⟩, rfl⟩, hadmits⟩
      · rename_i hexact
        exact .inl ⟨e, ⟨he, by simpa using hexact⟩, hadmits.symm⟩

/-- A suffix rule reads the labels of a host. -/
theorem underSuffix_iff {suffix : String} (h : ['.'].isPrefixOf suffix.toList = true) :
    underSuffix host suffix = true ↔ (suffix.toList.drop 1).splitOn '.' <:+ labels host := by
  obtain ⟨domain, hdomain⟩ := List.isPrefixOf_iff_prefix.mp h
  have hdrop : suffix.toList.drop 1 = domain := by rw [← hdomain]; rfl
  rw [underSuffix, labels, List.splitOn_suffix_iff, hdrop, Bool.or_eq_true, decide_eq_true_iff,
    List.isSuffixOf_iff_suffix, ← hdomain]
  rfl

/-- The entry of a default host lets through what the default stands for. -/
theorem admits_defaultEntry (hlower : lower d = d) : (defaultEntry d).Admits host ↔ InDefault d host := by
  unfold EgressAllowEntry.Admits InDefault
  by_cases hsuffix : (defaultEntry d).suffix = true
  · rw [if_pos hsuffix, if_pos hsuffix]
    apply underSuffix_iff
    change ['.'].isPrefixOf (lower d).toList = true
    rw [hlower]
    exact hsuffix
  · rw [if_neg hsuffix, if_neg hsuffix]
    rfl

/-- The default hosts are written in lower case. -/
theorem lower_providerDefaultHosts (provider : Provider) : ∀ d ∈ providerDefaultHosts provider, lower d = d := by
  cases provider <;> decide +kernel

/-- The entry of a host that was listed lets that host through. -/
theorem admits_of_exactEntry {e : EgressAllowEntry} (h : exactEntry hostname source raw = .ok e) :
    e.Admits host ↔ normalizeHost hostname raw = .ok host := by
  obtain ⟨host', hhost, h⟩ := bind_eq_ok_iff.mp h
  obtain rfl := Except.ok.inj h
  rw [hhost, Except.ok.injEq, EgressAllowEntry.Admits, if_neg Bool.false_ne_true]
  exact eq_comm

/-- The entries of hosts that were listed let those hosts through. -/
theorem admits_of_mapM {raws : List String} {es : List EgressAllowEntry}
    (h : raws.mapM (exactEntry hostname source) = .ok es) :
    (∃ e ∈ es, e.Admits host) ↔ ∃ raw ∈ raws, normalizeHost hostname raw = .ok host := by
  rw [mapM_eq_ok_iff] at h
  induction h with
  | nil => simp
  | cons hentry hrest ih => simp only [List.exists_mem_cons_iff, admits_of_exactEntry hentry, ih]

/-- The staging targets that are well formed are let through. -/
theorem admits_dastEntries : (∃ e ∈ dastEntries hostname config opts, e.Admits host) ↔
    opts.includeDastTargets = true ∧ ∃ raw ∈ config.dastAllowlist, normalizeHost hostname raw = .ok host := by
  unfold dastEntries
  by_cases hinclude : opts.includeDastTargets = true
  · rw [if_pos hinclude, and_iff_right hinclude]
    constructor
    · rintro ⟨e, he, hadmits⟩
      obtain ⟨raw, hraw, hentry⟩ := List.mem_filterMap.mp he
      cases h : exactEntry hostname .dastTarget raw with
      | error err => rw [h] at hentry; cases hentry
      | ok e' =>
        rw [h] at hentry
        obtain rfl := Option.some.inj hentry
        exact ⟨raw, hraw, (admits_of_exactEntry h).mp hadmits⟩
    · rintro ⟨raw, hraw, hhost⟩
      have hentry : exactEntry hostname .dastTarget raw = .ok { host, source := .dastTarget, suffix := false } := by
        rw [exactEntry, hhost]
        rfl
      exact ⟨_, List.mem_filterMap.mpr ⟨raw, hraw, by rw [hentry]; rfl⟩, (admits_of_exactEntry hentry).mpr hhost⟩
  · rw [if_neg hinclude]
    simp [hinclude]

/-- The entries for the model let through its endpoint, or what the defaults of the provider stand for. -/
theorem admits_llmPolicy {llm : EgressPolicy} (h : llmPolicy hostname config = .ok llm) :
    (∃ e ∈ llm.entries, e.Admits host) ↔
      (∃ endpoint, setting config.endpoint = some endpoint ∧ normalizeHost hostname endpoint = .ok host) ∨
        setting config.endpoint = none ∧ ∃ d ∈ providerDefaultHosts (config.provider.getD .anthropic), InDefault d host := by
  unfold llmPolicy at h
  cases hsetting : setting config.endpoint with
  | some endpoint =>
    rw [hsetting] at h
    obtain ⟨llmHost, hhost, h⟩ := bind_eq_ok_iff.mp h
    obtain rfl := Except.ok.inj h
    simp only [List.mem_singleton, exists_eq_left, Option.some.injEq, exists_eq_left', reduceCtorEq, false_and,
      or_false, hhost, Except.ok.injEq]
    rw [EgressAllowEntry.Admits, if_neg Bool.false_ne_true]
    exact eq_comm
  | none =>
    rw [hsetting] at h
    obtain rfl := Except.ok.inj h
    simp only [List.mem_map, reduceCtorEq, false_and, exists_false, true_and, false_or]
    constructor
    · rintro ⟨_, ⟨d, hd, rfl⟩, hadmits⟩
      exact ⟨d, hd, (admits_defaultEntry (lower_providerDefaultHosts _ d hd)).mp hadmits⟩
    · rintro ⟨d, hd, hin⟩
      exact ⟨_, ⟨d, hd, rfl⟩, (admits_defaultEntry (lower_providerDefaultHosts _ d hd)).mpr hin⟩

/-- The entries that a policy was put together from. -/
theorem entries_of_deriveEgressPolicy (h : deriveEgressPolicy hostname config opts = .ok policy) :
    ∃ llm listed extra telemetry, llmPolicy hostname config = .ok llm ∧
      config.allowedEgressHosts.mapM (exactEntry hostname .configAllowlist) = .ok listed ∧
      opts.extraHosts.mapM (exactEntry hostname .configAllowlist) = .ok extra ∧
      (telemetryTargets config).mapM (exactEntry hostname .telemetry) = .ok telemetry ∧
      policy.entries = llm.entries ++ listed ++ extra ++ telemetry ++ dastEntries hostname config opts := by
  unfold deriveEgressPolicy at h
  obtain ⟨llm, hllm, h⟩ := bind_eq_ok_iff.mp h
  obtain ⟨listed, hlisted, h⟩ := bind_eq_ok_iff.mp h
  obtain ⟨extra, hextra, h⟩ := bind_eq_ok_iff.mp h
  obtain ⟨telemetry, htelemetry, h⟩ := bind_eq_ok_iff.mp h
  obtain rfl := Except.ok.inj h
  exact ⟨llm, listed, extra, telemetry, hllm, hlisted, hextra, htelemetry, rfl⟩

/-- A policy that was compiled lets through what is permitted. -/
theorem admits_iff_permitted (h : deriveEgressPolicy hostname config opts = .ok policy) :
    (∃ e ∈ policy.entries, e.Admits host) ↔ Permitted hostname config opts host := by
  obtain ⟨llm, listed, extra, telemetry, hllm, hlisted, hextra, htelemetry, hentries⟩ :=
    entries_of_deriveEgressPolicy h
  rw [hentries]
  simp only [List.mem_append, or_and_right, exists_or, admits_llmPolicy hllm, admits_of_mapM hlisted,
    admits_of_mapM hextra, admits_of_mapM htelemetry, admits_dastEntries]
  constructor
  · rintro (((((⟨endpoint, hendpoint, hhost⟩ | ⟨hnone, d, hd, hin⟩) | ⟨raw, hraw, hhost⟩) | ⟨raw, hraw, hhost⟩) |
      ⟨raw, hraw, hhost⟩) | ⟨hinclude, raw, hraw, hhost⟩)
    · exact .endpoint hendpoint hhost
    · exact .provider hnone hd hin
    · exact .listed (List.mem_append_left _ hraw) hhost
    · exact .listed (List.mem_append_right _ hraw) hhost
    · exact .telemetry hraw hhost
    · exact .dast hinclude hraw hhost
  · intro hpermitted
    cases hpermitted with
    | endpoint hendpoint hhost => exact .inl (.inl (.inl (.inl (.inl ⟨_, hendpoint, hhost⟩))))
    | provider hnone hd hin => exact .inl (.inl (.inl (.inl (.inr ⟨hnone, _, hd, hin⟩))))
    | listed hraw hhost =>
      obtain hraw | hraw := List.mem_append.mp hraw
      · exact .inl (.inl (.inl (.inr ⟨_, hraw, hhost⟩)))
      · exact .inl (.inl (.inr ⟨_, hraw, hhost⟩))
    | telemetry hraw hhost => exact .inl (.inr ⟨_, hraw, hhost⟩)
    | dast hinclude hraw hhost => exact .inr ⟨hinclude, _, hraw, hhost⟩

/-- The policy of a guard that was created. -/
theorem exists_policy {guard : EgressGuard} (h : createEgressGuard hostname config opts = .ok guard) :
    ∃ policy, deriveEgressPolicy hostname config opts = .ok policy ∧ guard = assertEgressAllowed hostname policy := by
  obtain ⟨policy, hpolicy, hguard⟩ := bind_eq_ok_iff.mp h
  obtain ⟨policy', hderive, hpolicy⟩ := bind_eq_ok_iff.mp hpolicy
  split_ifs at hpolicy
  obtain rfl := Except.ok.inj hpolicy
  exact ⟨policy', hderive, (Except.ok.inj hguard).symm⟩

/-- Default-deny: a guard lets a target through exactly when the configuration permits its host. -/
theorem assert_createEgressGuard_iff {guard : EgressGuard} (h : createEgressGuard hostname config opts = .ok guard)
    (target : String) : guard target = .ok () ↔
      ∃ host, normalizeHost hostname target = .ok host ∧ Permitted hostname config opts host := by
  obtain ⟨policy, hpolicy, rfl⟩ := exists_policy h
  simp only [← admits_iff_permitted hpolicy, ← isEgressAllowed_iff]
  unfold assertEgressAllowed
  split <;> simp_all

/-- What was listed makes entries when every host of it is well formed. -/
theorem exists_mapM_iff {raws : List String} : (∃ es, raws.mapM (exactEntry hostname source) = .ok es) ↔
    ∀ raw ∈ raws, ∃ host, normalizeHost hostname raw = .ok host := by
  simp only [mapM_eq_ok_iff]
  induction raws with
  | nil => simp
  | cons raw raws ih =>
    simp only [List.forall₂_cons_left_iff, List.forall_mem_cons, ← ih]
    constructor
    · rintro ⟨_, e, es, hentry, hrest, rfl⟩
      obtain ⟨host, hhost, -⟩ := bind_eq_ok_iff.mp hentry
      exact ⟨⟨host, hhost⟩, es, hrest⟩
    · rintro ⟨⟨host, hhost⟩, es, hrest⟩
      exact ⟨_, { host, source, suffix := false }, es, by rw [exactEntry, hhost]; rfl, hrest, rfl⟩

/-- There are entries for the model when its endpoint is well formed. -/
theorem exists_llmPolicy_iff : (∃ llm, llmPolicy hostname config = .ok llm) ↔
    ∀ raw ∈ (setting config.endpoint).toList, ∃ host, normalizeHost hostname raw = .ok host := by
  unfold llmPolicy
  cases setting config.endpoint with
  | none => simp
  | some endpoint =>
    simp only [Option.toList_some, List.mem_singleton, forall_eq]
    constructor
    · rintro ⟨llm, h⟩
      obtain ⟨llmHost, hhost, -⟩ := bind_eq_ok_iff.mp h
      exact ⟨llmHost, hhost⟩
    · rintro ⟨llmHost, hhost⟩
      rw [hhost]
      exact ⟨_, rfl⟩

/-- The model always has an entry: every provider has a default host. -/
theorem entries_llmPolicy_ne_nil {llm : EgressPolicy} (h : llmPolicy hostname config = .ok llm) : llm.entries ≠ [] := by
  unfold llmPolicy at h
  split at h
  · obtain ⟨llmHost, -, h⟩ := bind_eq_ok_iff.mp h
    obtain rfl := Except.ok.inj h
    exact List.cons_ne_nil _ _
  · obtain rfl := Except.ok.inj h
    cases config.provider.getD .anthropic <;> exact List.cons_ne_nil _ _

/-- A policy with an entry has a host or a suffix. -/
theorem not_empty_of_entries (h : policy.entries ≠ []) : ¬(policy.allowedHosts = [] ∧ policy.allowedSuffixes = []) := by
  rintro ⟨hhosts, hsuffixes⟩
  obtain ⟨e, he⟩ := List.exists_mem_of_ne_nil _ h
  cases hsuffix : e.suffix with
  | true =>
    have hmem : e.host ∈ policy.allowedSuffixes := List.mem_map_of_mem (List.mem_filter.mpr ⟨he, hsuffix⟩)
    rw [hsuffixes] at hmem
    cases hmem
  | false =>
    have hmem : e.host ∈ policy.allowedHosts := List.mem_map_of_mem (List.mem_filter.mpr ⟨he, by rw [hsuffix]; rfl⟩)
    rw [hhosts] at hmem
    cases hmem

variable (hostname config opts)

/-- What has to be well formed for a guard to be created. -/
def requiredTargets : List String :=
  (setting config.endpoint).toList ++ config.allowedEgressHosts ++ opts.extraHosts ++ telemetryTargets config

end Permitted

/-! ## A reader of host names -/

/-- The host name of an `http` or `https` URL without credentials. -/
def plainHostname (url : String) : Option String :=
  let rest := if ['h', 't', 't', 'p', 's'].isPrefixOf url.toList then url.toList.drop 8 else url.toList.drop 7
  some (String.ofList (rest.takeWhile fun c => c ≠ '/' ∧ c ≠ ':' ∧ c ≠ '?'))

-- The domain of a provider ends at a label: a host that only ends with its letters is not in it.
example : ((createEgressGuard plainHostname { provider := some .bedrock } {}).toOption.map fun guard =>
    (["https://bedrock-runtime.us-east-1.amazonaws.com/model", "https://evil-amazonaws.com"].map fun target =>
      (guard target).isOk)) = some [true, false] := by
  decide +kernel

end MontrSecure.Egress
