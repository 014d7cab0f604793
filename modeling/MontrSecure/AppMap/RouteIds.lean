import MontrSecure.AppMap.ExpressRoutes
import MontrSecure.AppMap.NextRoutes
import MontrSecure.Data.Table

/-!
# Ids of routes

The routes of the TypeScript analyzer have ids made of their paths, which do not tell all paths apart, and are told apart
by their paths. `routes_identified_iff` says for which projects the ids identify them: a row of the table and a handler
are then found by the id of their route.
-/

namespace MontrSecure

/-! ## The analyzer -/

section Analyzer

variable (localeCompare : String → String → ℤ) (project : List ScannedFile) (dir : String) (express : Bool)

/-- `scans`, for a project with or without Express. -/
def routeScans : List RouteScan :=
  Next.scanRoutes localeCompare project dir ::
    if express then [Express.scanExpressRoutes localeCompare project dir] else []

/-- `merged`. -/
def mergedScan : RouteScan := mergeRouteScans localeCompare (routeScans localeCompare project dir express)

/-- The registrations of the scanners. -/
def analyzerRegistrations : List Registration :=
  Next.registrations project dir ++ if express then Express.registrations project dir else []

end Analyzer

/-- The ids of the routes identify them: different routes have different ids, the table of routes takes them all, and
the handler that is linked to a route is one that was registered for it. -/
structure Identified (regs : List Registration) (s : RouteScan) : Prop where
  distinct : ∀ r ∈ s.routes, ∀ r' ∈ s.routes, r.method ≠ r'.method ∨ r.path ≠ r'.path → r.id ≠ r'.id
  stored : ((Table.empty : Table ScannedRoute.id).insertAll? s.routes).isSome = true
  linked : ∀ r ∈ s.routes, ∀ fn, InsertionMap.get s.handlersByRouteId r.id = some fn →
    ∃ reg ∈ regs, reg.route.method = r.method ∧ reg.route.path = r.path ∧ reg.handlerFn = some fn

/-! ## Any scan -/

section Scans

variable {regs : List Registration} {s : RouteScan}

/-- The ids are those that `routeId` gives. -/
def HaveRouteIds (regs : List Registration) : Prop :=
  ∀ reg ∈ regs, reg.route.id = routeId reg.route.method reg.route.path

/-- No two paths of a method have the same words. -/
def WordsTell (regs : List Registration) : Prop :=
  ∀ reg ∈ regs, ∀ reg' ∈ regs, reg.route.method = reg'.route.method →
    pathWords reg.route.path = pathWords reg'.route.path → reg.route.path = reg'.route.path

/-- The id of a route of a scan. -/
theorem id_of_mem (hscan : ScanOf regs s) (hids : HaveRouteIds regs) {r : ScannedRoute} (hr : r ∈ s.routes) :
    r.id = routeId r.method r.path := by
  obtain ⟨reg, hreg, hid, hmethod, hpath, -⟩ := hscan.sound r hr
  rw [hid, hmethod, hpath, hids reg hreg]

theorem wordsTell_of_distinct (hscan : ScanOf regs s) (hids : HaveRouteIds regs)
    (h : ∀ r ∈ s.routes, ∀ r' ∈ s.routes, r.method ≠ r'.method ∨ r.path ≠ r'.path → r.id ≠ r'.id) :
    WordsTell regs := by
  intro reg hreg reg' hreg' hmethod hwords
  obtain ⟨r, hr, hkey⟩ := hscan.complete reg hreg
  obtain ⟨r', hr', hkey'⟩ := hscan.complete reg' hreg'
  obtain ⟨hm, hp⟩ := ScannedRoute.key_eq_iff.mp hkey
  obtain ⟨hm', hp'⟩ := ScannedRoute.key_eq_iff.mp hkey'
  by_contra hpath
  have hpaths : r.path ≠ r'.path := fun heq => hpath (hp.symm.trans (heq.trans hp'))
  refine h r hr r' hr' (.inr hpaths) ?_
  rw [id_of_mem hscan hids hr, id_of_mem hscan hids hr', hm, hm', hp, hp', routeId_eq_iff]
  exact ⟨hmethod, hwords⟩

/-- Routes of a scan with one id are one route. -/
theorem key_eq_of_id_eq (hscan : ScanOf regs s) (hids : HaveRouteIds regs) (h : WordsTell regs) {r : ScannedRoute}
    (hr : r ∈ s.routes) {reg : Registration} (hreg : reg ∈ regs) (hid : reg.route.id = r.id) :
    reg.route.key = r.key := by
  obtain ⟨reg', hreg', -, hmethod', hpath', -⟩ := hscan.sound r hr
  rw [hids reg hreg, id_of_mem hscan hids hr, routeId_eq_iff, hmethod', hpath'] at hid
  rw [ScannedRoute.key_eq_iff, hmethod', hpath']
  exact ⟨hid.1, h reg hreg reg' hreg' hid.1 hid.2⟩

theorem identified_iff (hscan : ScanOf regs s) (hids : HaveRouteIds regs) : Identified regs s ↔ WordsTell regs := by
  refine ⟨fun h => wordsTell_of_distinct hscan hids h.distinct, fun h => ?_⟩
  have hinj : ∀ r ∈ s.routes, ∀ r' ∈ s.routes, r.id = r'.id → r.key = r'.key := by
    intro r hr r' hr' hid
    obtain ⟨reg, hreg, hid', hmethod, hpath, -⟩ := hscan.sound r hr
    rw [← key_eq_of_id_eq hscan hids h hr' hreg (hid'.symm.trans hid)]
    exact ScannedRoute.key_eq_iff.mpr ⟨hmethod, hpath⟩
  refine ⟨fun r hr r' hr' hne hid => ?_, ?_, fun r hr fn hfn => ?_⟩
  · obtain ⟨hmethod, hpath⟩ := ScannedRoute.key_eq_iff.mp (hinj r hr r' hr' hid)
    exact hne.elim (· hmethod) (· hpath)
  · have hnodup : (s.routes.map ScannedRoute.id).Nodup := by
      have hroutes : s.routes.Nodup := .of_map _ hscan.nodup
      refine hroutes.map_on fun r hr r' hr' hid => ?_
      exact List.inj_on_of_nodup_map hscan.nodup hr hr' (hinj r hr r' hr' hid)
    rw [Option.isSome_iff_exists]
    exact ⟨_, Table.insertAll?_eq_some_iff.mpr ⟨⟨hnodup, fun _ _ => rfl⟩, rfl⟩⟩
  · obtain ⟨reg, hreg, hid, hhandler⟩ := hscan.handlers r.id fn hfn
    obtain ⟨hmethod, hpath⟩ := ScannedRoute.key_eq_iff.mp (key_eq_of_id_eq hscan hids h hr hreg hid)
    exact ⟨reg, hreg, hmethod, hpath, hhandler⟩

end Scans

/-! ## The scans of a project -/

section Projects

variable (localeCompare : String → String → ℤ) (project : List ScannedFile) (dir : String) (express : Bool)

theorem Next.upgrade_same (mw : ScannedFile) (guard : String) (r : ScannedRoute) :
    (upgrade mw guard r).id = r.id ∧ (upgrade mw guard r).method = r.method ∧ (upgrade mw guard r).path = r.path ∧
      (upgrade mw guard r).handler = r.handler := by
  unfold upgrade
  split_ifs <;> exact ⟨rfl, rfl, rfl, rfl⟩

/-- The middleware changes the auth of routes only. -/
theorem Next.scanOf_scanRoutes :
    ScanOf (Next.registrations project dir) (Next.scanRoutes localeCompare project dir) := by
  have hscan := (Scanning.scanRegistrations (Next.registrations project dir)).toScanOf
  rcases hmw : authMiddleware project dir with _ | ⟨mw, guard⟩
  · refine hscan.congr id (fun r => ⟨rfl, rfl, rfl, rfl⟩) ?_ rfl
    refine (List.mergeSort_perm _ _).trans (.of_eq ?_)
    rw [applyNextMiddlewareAuth, hmw, List.map_id]
    rfl
  · refine hscan.congr (upgrade mw guard) (upgrade_same mw guard) ?_ rfl
    refine (List.mergeSort_perm _ _).trans (.of_eq ?_)
    rw [applyNextMiddlewareAuth, hmw]
    rfl

theorem scanOf_mergedScan :
    ScanOf (analyzerRegistrations project dir express) (mergedScan localeCompare project dir express) := by
  have hnext := Next.scanOf_scanRoutes localeCompare project dir
  have hregs : analyzerRegistrations project dir express =
      (Next.registrations project dir :: if express then [Express.registrations project dir] else []).flatten := by
    cases express <;> simp [analyzerRegistrations]
  rw [hregs]
  refine scanOf_mergeRouteScans localeCompare (.cons hnext ?_)
  cases express with
  | false => exact .nil
  | true => exact .cons (Express.scanOf_scanExpressRoutes localeCompare project dir) .nil

theorem Next.id_of_mem {reg : Registration} (h : reg ∈ Next.registrations project dir) :
    reg.route.id = routeId reg.route.method reg.route.path := by
  obtain ⟨sf, -, h⟩ := List.mem_flatMap.mp h
  unfold fileRegistrations at h
  rcases hroot : stripNextRoot (relPath sf.filePath dir) with _ | ⟨_ | _, rest⟩ <;> simp only [hroot] at h
  · cases h
  · split_ifs at h
    iterate 2
      · obtain ⟨m, -, rfl⟩ := List.mem_map.mp h
        rfl
    · rw [List.mem_singleton.mp h]
      rfl
    · cases h
  · split_ifs at h
    · cases h
    all_goals
      rw [List.mem_singleton.mp h]
      rfl

theorem Express.id_of_mem {reg : Registration} (h : reg ∈ Express.registrations project dir) :
    reg.route.id = routeId reg.route.method reg.route.path := by
  obtain ⟨sf, -, h⟩ := List.mem_flatMap.mp h
  rw [fileRegistrations] at h
  generalize sf.calls.filterMap (rawReg (relPath sf.filePath dir)) = regs at h
  induction regs using List.reverseRecOn with
  | nil => cases h
  | append_singleton regs raw ih =>
    rw [List.foldl_append, List.foldl_cons, List.foldl_nil, mountReg] at h
    obtain h | h := List.mem_append.mp h
    · exact ih h
    · obtain ⟨front, -, rfl⟩ := List.mem_map.mp h
      rfl

theorem haveRouteIds : HaveRouteIds (analyzerRegistrations project dir express) := by
  intro reg hreg
  obtain hreg | hreg := List.mem_append.mp hreg
  · exact Next.id_of_mem project dir hreg
  · cases express with
    | false => cases hreg
    | true => exact Express.id_of_mem project dir hreg

end Projects

/-- The ids of the routes of a project identify them exactly when no two paths that are registered for a method have
the same words. -/
theorem routes_identified_iff (localeCompare : String → String → ℤ) (project : List ScannedFile) (dir : String)
    (express : Bool) :
    Identified (analyzerRegistrations project dir express) (mergedScan localeCompare project dir express) ↔
      WordsTell (analyzerRegistrations project dir express) :=
  identified_iff (scanOf_mergedScan localeCompare project dir express) (haveRouteIds project dir express)

/-- Two API routes, of which one has a parameter. -/
private def twoUserRoutes : List ScannedFile :=
  [{ filePath := "/w/app/users/[id]/route.ts"
     functions := [{ name := some "GET", isExported := true, fn := ⟨"app/users/[id]/route.ts", 0, 1⟩ }] },
    { filePath := "/w/app/users/id/route.ts"
      functions := [{ name := some "GET", isExported := true, fn := ⟨"app/users/id/route.ts", 0, 1⟩ }] }]

/-- Different routes get one id. -/
theorem routes_share_id : ¬∀ (localeCompare : String → String → ℤ) (project : List ScannedFile) (dir : String)
    (express : Bool),
    Identified (analyzerRegistrations project dir express) (mergedScan localeCompare project dir express) := by
  intro h
  have htell := wordsTell_of_distinct (scanOf_mergedScan _ _ _ _) (haveRouteIds _ _ _)
    (h (fun _ _ => 0) twoUserRoutes "/w" false).distinct
  have hregs : (analyzerRegistrations twoUserRoutes "/w" false).map (fun reg => (reg.route.method, reg.route.path)) =
      [(.http .get, "/users/[id]"), (.http .get, "/users/id")] := by decide +kernel
  have hmem : ∀ path ∈ ["/users/[id]", "/users/id"], ∃ reg ∈ analyzerRegistrations twoUserRoutes "/w" false,
      (reg.route.method, reg.route.path) = (.http .get, path) := by
    intro path hpath
    rw [← List.mem_map, hregs]
    simpa using hpath
  obtain ⟨reg, hreg, heq⟩ := hmem "/users/[id]" (by decide)
  obtain ⟨reg', hreg', heq'⟩ := hmem "/users/id" (by decide)
  obtain ⟨hmethod, hpath⟩ := Prod.mk.inj heq
  obtain ⟨hmethod', hpath'⟩ := Prod.mk.inj heq'
  have hwords : pathWords "/users/[id]" = pathWords "/users/id" := by decide +kernel
  have hsame := htell reg hreg reg' hreg' (hmethod.trans hmethod'.symm) (by rw [hpath, hpath', hwords])
  rw [hpath, hpath'] at hsame
  revert hsame
  decide

end MontrSecure
