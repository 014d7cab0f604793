import MontrSecure.Api.DastRoutes
import MontrSecure.Confirm.Guard

/-!
# The three checks of a live target

A staging target is checked where it is authorized (`isAllowlisted` of `routes/dast.ts`), where the Layer 3
job is built (`computeAllowLive`) and before Layer 3 probes it (`assertLiveAuthorized`). The first two compare
texts and bare hosts, the third parsed hosts and paths. They agree on a target unless it is of one of the
kinds of `Diverges`: `checks_agree_iff`.
-/

namespace MontrSecure.Confirm

variable (parseUrl : UrlParser)

/-! ## The checks -/

/-- `hostOf` of `routes/dast.ts`. -/
def routeHostOf (value : String) : Option String :=
  (parseUrl (if includes value "://" then value else "https://" ++ value)).map (·.host)

/-- The route authorizes the target. -/
def routeAccepts (config : LiveConfig) (url : String) : Bool :=
  MontrSecure.isAllowlisted (routeHostOf parseUrl) url config.dast.allowlist

/-- The scan with this target and this approver. -/
def targeting (scan : Scan) (url : String) (approver : EntityId) : Scan :=
  { scan with scope := { scan.scope with stagingUrl := some url }, approver := some approver }

/-- Layer 3 goes live against the target. -/
def layer3Accepts (config : LiveConfig) (url : String) : Bool :=
  (assertLiveAuthorized parseUrl config true (some url)).isOk

/-- The target has the host of the entry, and its path is at or under the entry's. -/
def LiesUnder (url entry : String) : Prop :=
  ∃ u e, toUrl parseUrl url = .ok u ∧ toUrl parseUrl entry = .ok e ∧ u.under e = true

/-- The three checks agree on the target unless it is classified as production, and accept it only under an
entry; and what unlocks live probing Layer 3 does not refuse. -/
structure ChecksAgree (config : LiveConfig) (scan : Scan) (url : String) (approver : EntityId) : Prop where
  agree : looksLikeProduction parseUrl url = false →
    routeAccepts parseUrl config url = layer3Accepts parseUrl config url ∧
      computeAllowLive (targeting scan url approver) config.toMontrConfig =
        layer3Accepts parseUrl config url
  under : looksLikeProduction parseUrl url = false →
    (routeAccepts parseUrl config url = true ∨
      computeAllowLive (targeting scan url approver) config.toMontrConfig = true ∨
      layer3Accepts parseUrl config url = true) →
    ∃ entry ∈ config.dast.allowlist, LiesUnder parseUrl url entry
  unlocked : computeAllowLive (targeting scan url approver) config.toMontrConfig = true →
    layer3Accepts parseUrl config url = true

/-! ## What each check compares -/

/-- The text of some entry is a prefix of the text of the target. -/
def TextPrefix (allowlist : List String) (url : String) : Prop :=
  ∃ entry ∈ allowlist, entry.toList <+: url.toList

/-- Some entry has the host of the target, as the route parses them. -/
def SameHost (allowlist : List String) (url : String) : Prop :=
  ∃ entry ∈ allowlist, entry ≠ "" ∧ ∃ host, routeHostOf parseUrl entry = some host ∧
    routeHostOf parseUrl url = some host

variable {parseUrl} {config : LiveConfig} {scan : Scan} {url : String} {approver : EntityId}

theorem routeAccepts_iff :
    routeAccepts parseUrl config url = true ↔
      (∃ entry ∈ config.dast.allowlist, entry ≠ "" ∧ entry.toList <+: url.toList) ∨
        SameHost parseUrl config.dast.allowlist url := by
  simp only [routeAccepts, MontrSecure.isAllowlisted, List.any_eq_true, Bool.and_eq_true, Bool.or_eq_true,
    decide_eq_true_eq, List.isPrefixOf_iff_prefix, Option.isSome_iff_exists]
  constructor
  · rintro ⟨entry, hentry, hne, htext | ⟨⟨host, hhost⟩, hsame⟩⟩
    · exact .inl ⟨entry, hentry, hne, htext⟩
    · exact .inr ⟨entry, hentry, hne, host, hhost, hsame ▸ hhost⟩
  · rintro (⟨entry, hentry, hne, htext⟩ | ⟨entry, hentry, hne, host, hhost, hurl⟩)
    · exact ⟨entry, hentry, hne, .inl htext⟩
    · exact ⟨entry, hentry, hne, .inr ⟨⟨host, hhost⟩, hhost.trans hurl.symm⟩⟩

theorem computeAllowLive_targeting_iff (henabled : config.dast.enabled = true) (happrover : approver ≠ "") :
    computeAllowLive (targeting scan url approver) config.toMontrConfig = true ↔
      url ≠ "" ∧ TextPrefix config.dast.allowlist url := by
  simp [computeAllowLive, targeting, henabled, happrover, TextPrefix]

/-- A URL lies under itself. -/
theorem Url.under_self (u : Url) : u.under u = true := by
  have hpath : u.path = u.root ∨ u.root ++ "/" = u.path := by
    unfold Url.root stripSlash
    split
    · rename_i hslash
      obtain ⟨front, hfront⟩ := List.isSuffixOf_iff_suffix.mp hslash
      right
      apply String.toList_injective
      rw [String.toList_append, String.toList_ofList, ← hfront]
      simp
    · exact .inl rfl
  obtain hpath | hpath := hpath
  · simp [Url.under, ← hpath]
  · simp [Url.under, hpath]

/-- A target is on the allowlist of Layer 3 when it lies under an entry. -/
theorem isAllowlisted_iff {allowlist : List String} :
    isAllowlisted parseUrl url allowlist = true ↔ ∃ entry ∈ allowlist, LiesUnder parseUrl url entry := by
  unfold isAllowlisted
  split
  · rename_i e hurl
    refine iff_of_false Bool.false_ne_true ?_
    rintro ⟨entry, -, u, -, hparsed, -⟩
    cases hurl.symm.trans hparsed
  · rename_i u hurl
    simp only [List.any_eq_true, admits, Bool.or_eq_true, decide_eq_true_eq]
    constructor
    · rintro ⟨entry, hentry, rfl | hunder⟩
      · exact ⟨url, hentry, u, u, hurl, hurl, u.under_self⟩
      · split at hunder
        · rename_i e he
          exact ⟨entry, hentry, u, e, hurl, he, hunder⟩
        · cases hunder
    · rintro ⟨entry, hentry, u', e, hurl', he, hunder⟩
      cases hurl.symm.trans hurl'
      refine ⟨entry, hentry, .inr ?_⟩
      rw [he]
      exact hunder

theorem layer3Accepts_iff (henabled : config.dast.enabled = true) (hblocked : config.productionBlocked = true) :
    layer3Accepts parseUrl config url = true ↔
      url ≠ "" ∧ looksLikeProduction parseUrl url = false ∧
        ∃ entry ∈ config.dast.allowlist, LiesUnder parseUrl url entry := by
  have hok (e : Err) : (Except.error e : Except Err String).isOk = false := rfl
  rw [← isAllowlisted_iff, layer3Accepts]
  unfold assertLiveAuthorized
  split
  · rename_i hdisabled
    rw [henabled] at hdisabled
    cases hdisabled
  · split
    · rename_i h
      cases h
    · split
      · rename_i h
        cases h
      · rename_i h
        exact iff_of_false (by simp [hok]) fun hurl => hurl.1 (Option.some.inj h)
      · rename_i target hempty h
        obtain rfl := Option.some.inj h
        have hne : url ≠ "" := fun h => hempty (h ▸ rfl)
        by_cases hlist : config.dast.allowlist = []
        · rw [if_pos hlist, hlist]
          refine iff_of_false (by simp [hok]) fun hlisted => ?_
          obtain ⟨entry, hentry, -⟩ := isAllowlisted_iff.mp hlisted.2.2
          cases hentry
        · rw [if_neg hlist, hblocked]
          cases isAllowlisted parseUrl url config.dast.allowlist with
          | false => exact iff_of_false (by simp [hok]) fun hlisted => Bool.false_ne_true hlisted.2.2
          | true =>
            cases looksLikeProduction parseUrl url with
            | false => exact iff_of_true rfl ⟨hne, rfl, rfl⟩
            | true => exact iff_of_false (by simp [hok]) fun hlisted => Bool.false_ne_true hlisted.2.1.symm

/-! ## Where they differ -/

/-- The targets the checks do not agree on. -/
inductive Diverges (parseUrl : UrlParser) (allowlist : List String) (url : String) : Prop where
  /-- It only begins with the text of an entry: a longer host, or a sibling of the path. -/
  | beyond (htarget : looksLikeProduction parseUrl url = false) (htext : TextPrefix allowlist url)
      (hunder : ¬∃ entry ∈ allowlist, LiesUnder parseUrl url entry)
  /-- It lies under an entry that is written otherwise: without a scheme, or in other letters. -/
  | respelled (htarget : looksLikeProduction parseUrl url = false)
      (hunder : ∃ entry ∈ allowlist, LiesUnder parseUrl url entry) (htext : ¬TextPrefix allowlist url)
  /-- It has only the host of an entry. -/
  | hostOnly (htarget : looksLikeProduction parseUrl url = false)
      (hhost : SameHost parseUrl allowlist url) (htext : ¬TextPrefix allowlist url)
  /-- It begins only with the empty entry. -/
  | emptyEntry (htarget : looksLikeProduction parseUrl url = false) (htext : TextPrefix allowlist url)
      (hempty : ∀ entry ∈ allowlist, entry.toList <+: url.toList → entry = "")
      (hhost : ¬SameHost parseUrl allowlist url)
  /-- It looks like production, and begins with an entry. -/
  | production (htarget : looksLikeProduction parseUrl url = true) (hurl : url ≠ "")
      (htext : TextPrefix allowlist url)

/-- An unparseable target looks like production. -/
theorem toUrl_of_looksLikeProduction (h : looksLikeProduction parseUrl url = false) :
    ∃ u, toUrl parseUrl url = .ok u := by
  unfold looksLikeProduction at h
  split at h
  · cases h
  · exact ⟨_, by assumption⟩

/-- What is not production is not empty. -/
theorem ne_empty_of_looksLikeProduction (h : looksLikeProduction parseUrl url = false) : url ≠ "" := by
  rintro rfl
  obtain ⟨u, hu⟩ := toUrl_of_looksLikeProduction h
  cases hu

/-- The checks agree on a target exactly when it is of none of these kinds. -/
theorem checks_agree_iff (parseUrl : UrlParser) (config : LiveConfig) (scan : Scan) (url : String)
    (approver : EntityId) (henabled : config.dast.enabled = true)
    (hblocked : config.productionBlocked = true) (happrover : approver ≠ "") :
    ChecksAgree parseUrl config scan url approver ↔ ¬Diverges parseUrl config.dast.allowlist url := by
  have hlive : computeAllowLive (targeting scan url approver) config.toMontrConfig = true ↔
      url ≠ "" ∧ TextPrefix config.dast.allowlist url := computeAllowLive_targeting_iff henabled happrover
  have hlayer : layer3Accepts parseUrl config url = true ↔ _ := layer3Accepts_iff henabled hblocked
  have hroute : routeAccepts parseUrl config url = true ↔ _ := routeAccepts_iff
  constructor
  · intro h hdiverges
    cases hdiverges with
    | beyond htarget htext hunder =>
      have haccepts := hlive.mpr ⟨ne_empty_of_looksLikeProduction htarget, htext⟩
      exact hunder (hlayer.mp ((h.agree htarget).2 ▸ haccepts)).2.2
    | respelled htarget hunder htext =>
      have haccepts := hlayer.mpr ⟨ne_empty_of_looksLikeProduction htarget, htarget, hunder⟩
      exact htext (hlive.mp ((h.agree htarget).2.trans haccepts)).2
    | hostOnly htarget hhost htext =>
      have haccepts := (h.agree htarget).1.symm.trans (hroute.mpr (.inr hhost))
      exact htext (hlive.mp ((h.agree htarget).2.trans haccepts)).2
    | emptyEntry htarget htext hempty hhost =>
      have haccepts := hlive.mpr ⟨ne_empty_of_looksLikeProduction htarget, htext⟩
      obtain ⟨entry, hentry, hne, hentry'⟩ | hsame :=
        hroute.mp ((h.agree htarget).1.trans ((h.agree htarget).2.symm.trans haccepts))
      · exact hne (hempty entry hentry hentry')
      · exact hhost hsame
    | production htarget hurl htext =>
      have haccepts := hlayer.mp (h.unlocked (hlive.mpr ⟨hurl, htext⟩))
      exact Bool.false_ne_true (haccepts.2.1.symm.trans htarget)
  · intro hagree
    by_cases htarget : looksLikeProduction parseUrl url = false
    · have hurl := ne_empty_of_looksLikeProduction htarget
      have hunder : TextPrefix config.dast.allowlist url →
          ∃ entry ∈ config.dast.allowlist, LiesUnder parseUrl url entry := by
        intro htext
        by_contra hunder
        exact hagree (.beyond htarget htext hunder)
      have htext : (∃ entry ∈ config.dast.allowlist, LiesUnder parseUrl url entry) →
          TextPrefix config.dast.allowlist url := by
        intro hunder
        by_contra htext
        exact hagree (.respelled htarget hunder htext)
      have hlayer' : layer3Accepts parseUrl config url = true ↔ TextPrefix config.dast.allowlist url :=
        hlayer.trans ⟨fun h => htext h.2.2, fun h => ⟨hurl, htarget, hunder h⟩⟩
      have hlive' : computeAllowLive (targeting scan url approver) config.toMontrConfig = true ↔
          TextPrefix config.dast.allowlist url := hlive.trans ⟨fun h => h.2, fun h => ⟨hurl, h⟩⟩
      have hroute' : routeAccepts parseUrl config url = true ↔ TextPrefix config.dast.allowlist url := by
        rw [hroute]
        constructor
        · rintro (⟨entry, hentry, -, hentry'⟩ | hhost)
          · exact ⟨entry, hentry, hentry'⟩
          · by_contra hnone
            exact hagree (.hostOnly htarget hhost hnone)
        · intro htext
          by_contra hnone
          obtain ⟨hempty, hhost⟩ := not_or.mp hnone
          refine hagree (.emptyEntry htarget htext (fun entry hentry hentry' => ?_) hhost)
          by_contra hne
          exact hempty ⟨entry, hentry, hne, hentry'⟩
      refine ⟨fun _ => ⟨?_, ?_⟩, fun _ haccepts => ?_, fun haccepts => hlayer'.mpr (hlive'.mp haccepts)⟩
      · exact Bool.eq_iff_iff.mpr (hroute'.trans hlayer'.symm)
      · exact Bool.eq_iff_iff.mpr (hlive'.trans hlayer'.symm)
      · obtain haccepts | haccepts | haccepts := haccepts
        · exact hunder (hroute'.mp haccepts)
        · exact hunder (hlive'.mp haccepts)
        · exact hunder (hlayer'.mp haccepts)
    · refine ⟨fun h => absurd h htarget, fun h => absurd h htarget, fun haccepts => ?_⟩
      obtain ⟨hurl, htext⟩ := hlive.mp haccepts
      exact absurd (.production (by simpa using htarget) hurl htext) hagree

/-! ## Two targets -/

/-- `new URL` on a plain `https` URL: the host ends at the next slash, and the rest is the path. -/
def plainUrl : UrlParser := fun s =>
  if "https://".toList.isPrefixOf s.toList then
    let rest := s.toList.drop 8
    let path := rest.dropWhile (· ≠ '/')
    some { host := String.ofList (rest.takeWhile (· ≠ '/'))
           pathname := if path = [] then "/" else String.ofList path }
  else none

/-- Live DAST is on for one host. -/
def stagingConfig : LiveConfig :=
  { clientId := "acme", dast := { enabled := true, allowlist := ["https://staging.shop.test"] } }

/-- A scan to check targets for. -/
def checkedScan : Scan :=
  { id := "scan", clientId := "acme", repo := "shop", branch := "main", mode := .full
    scope := { mode := .full }, operator := "ann", createdAt := 0 }

/-- The checks agree on a path of the host. -/
theorem checks_agree_iff_app :
    ChecksAgree plainUrl stagingConfig checkedScan "https://staging.shop.test/app" "bob" := by
  refine (checks_agree_iff plainUrl stagingConfig checkedScan _ "bob" rfl rfl (by decide)).mpr fun h => ?_
  have htext : TextPrefix stagingConfig.dast.allowlist "https://staging.shop.test/app" :=
    ⟨"https://staging.shop.test", List.mem_cons_self, by decide +kernel⟩
  cases h with
  | beyond htarget _ hunder => exact hunder (isAllowlisted_iff.mp (by decide +kernel))
  | respelled htarget _ hnone => exact hnone htext
  | hostOnly htarget _ hnone => exact hnone htext
  | emptyEntry htarget _ hempty _ =>
    obtain ⟨entry, hentry, hentry'⟩ := htext
    have hne := hempty entry hentry hentry'
    rw [List.mem_singleton.mp hentry] at hne
    exact absurd hne (by decide)
  | production htarget _ _ => exact absurd htarget (by decide +kernel)

/-- A longer host that begins like the entry is authorized and unlocked, and refused by Layer 3 alone. -/
theorem checks_disagree :
    stagingConfig.dast.enabled = true ∧ stagingConfig.productionBlocked = true ∧
      looksLikeProduction plainUrl "https://staging.shop.test.evil.com" = false ∧
      routeAccepts plainUrl stagingConfig "https://staging.shop.test.evil.com" = true ∧
      ¬ChecksAgree plainUrl stagingConfig checkedScan "https://staging.shop.test.evil.com" "bob" := by
  have htarget : looksLikeProduction plainUrl "https://staging.shop.test.evil.com" = false := by
    decide +kernel
  refine ⟨rfl, rfl, htarget, by decide +kernel, fun h => ?_⟩
  exact absurd (h.agree htarget).1 (by decide +kernel)

end MontrSecure.Confirm
