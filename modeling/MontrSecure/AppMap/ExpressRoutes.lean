import MontrSecure.AppMap.RouteScan
import MontrSecure.Graph.ChainValues

/-!
# Routes of an Express project

`packages/appmap/src/languages/typescript/express.ts`: the registrations in a file get the paths at which their routers
are mounted in it. `scanExpressRoutes_lossless_iff` says when no registration is lost: what is registered a second time
for a method and a path is left out, wherever it comes from.
-/

namespace MontrSecure.Express

open ChainValues

/-! ## One file -/

/-- `VERB_METHODS`. -/
def verbMethods : List (String × HttpMethod) :=
  [("get", .get), ("post", .post), ("put", .put), ("patch", .patch), ("delete", .delete), ("head", .head),
    ("options", .options), ("all", .all)]

/-- `VERB_METHODS[name]`. -/
def verbMethod (name : String) : Option RouteMethod :=
  ((verbMethods.find? (·.1 = name)).map fun e => RouteMethod.http e.2).or
    ((ObjectMember.members.find? (·.name = name)).map RouteMethod.member)

/-- `normalizePath`. -/
def normalizePath (p : String) : String := if p.toList.head? = some '/' then p else "/" ++ p

/-- `prefix.replace(/\/+$/, "")`. -/
def stripSlashes (p : String) : String := String.ofList (p.toList.rdropWhile (· = '/'))

/-- `joinSeg`. -/
def joinSeg (front seg : String) : String :=
  let joined := stripSlashes front ++ if seg = "/" then "" else seg
  if joined = "" then "/" else joined

/-- `isRouterInit`: a call of `Router`, or of a property `Router`. -/
def isRouterInit : Option Expr → Bool
  | some (.call _ calleeText) =>
    calleeText = "Router" || ".Router".toList.isSuffixOf calleeText.toList
  | _ => false

/-- `RawReg`. -/
structure RawReg where
  receiver : String
  method : RouteMethod
  path : String
  handlerLoc : SourceLocation
  handlerFn : Option FnLike
  authState : AuthState
  authGate : Option String

/-- `RawMount`, an edge from the container to the router, with the mount path. -/
abbrev RawMount : Type := Edge String String

/-- The variables at the top of a file that are initialized with a router. -/
def routerVars (sf : ScannedFile) : List String :=
  (sf.variableStatements.flatMap (·.declarations)).filterMap fun d =>
    if d.isIdentifier ∧ isRouterInit d.initializer then some d.name else none

/-- The mount of a call `receiver.use(router)` or `receiver.use(path, router, …)`. -/
def rawMount (call : MethodCall) : Option RawMount :=
  if call.name ≠ "use" then none
  else
    match call.args with
    | [⟨.identifier _, text⟩] => some ⟨call.receiver, text, "/"⟩
    | ⟨.literal path, _⟩ :: ⟨.identifier _, text⟩ :: _ => some ⟨call.receiver, text, normalizePath path⟩
    | _ => none

/-- The handler of a call, when its last argument is a function. -/
def handlerFn (call : MethodCall) : Option FnLike :=
  match call.args.getLast? with
  | some ⟨.function fn, _⟩ => some fn
  | _ => none

/-- `handlerLoc`. -/
def handlerLoc (rel : String) (call : MethodCall) : SourceLocation :=
  { file := rel, line := ((handlerFn call).map (·.line)).getD call.line }

/-- The registration of a call `receiver.verb(path, …, handler)`. -/
def rawReg (rel : String) (call : MethodCall) : Option RawReg :=
  if call.name = "use" then none
  else
    (verbMethod call.name).bind fun method =>
      match call.args with
      | ⟨.literal path, _⟩ :: a :: rest =>
        let auth := detectAuth (" ".intercalate ((a :: rest).map (·.text)))
        some
          { receiver := call.receiver, method, path := normalizePath path, handlerLoc := handlerLoc rel call
            handlerFn := handlerFn call, authState := auth.1, authGate := auth.2 }
      | _ => none

/-- `mountEdgesByChild`: the mounts of router variables. -/
def mountEdges (sf : ScannedFile) : List RawMount :=
  (sf.calls.filterMap rawMount).filter fun m => m.target ∈ routerVars sf

/-! ## The project -/

/-- `prefixesOf`. -/
def prefixesOf (edges : List RawMount) (varName : String) (memo : List (String × List String)) :
    List String × List (String × List String) :=
  collect edges "" joinSeg varName [] memo

/-- A registration under one mount. -/
def mountedRoute (rel : String) (reg : RawReg) (front : String) : Registration :=
  { route :=
      { id := routeId reg.method (joinSeg front reg.path), path := joinSeg front reg.path, method := reg.method
        authState := reg.authState, isApiRoute := true, handler := reg.handlerLoc, authGate := reg.authGate }
    file := rel
    handlerFn := reg.handlerFn }

/-- One step of the loop over the registrations of a file. -/
def mountReg (edges : List RawMount) (rel : String) (acc : List Registration × List (String × List String))
    (reg : RawReg) : List Registration × List (String × List String) :=
  let found := prefixesOf edges reg.receiver acc.2
  (acc.1 ++ found.1.map (mountedRoute rel reg), found.2)

/-- The routes of one file. -/
def fileRegistrations (sf : ScannedFile) (dir : String) : List Registration :=
  let rel := relPath sf.filePath dir
  ((sf.calls.filterMap (rawReg rel)).foldl (mountReg (mountEdges sf) rel) ([], [])).1

/-- The routes of the files, in their order. -/
def registrations (project : List ScannedFile) (dir : String) : List Registration :=
  project.flatMap (fileRegistrations · dir)

/-- `scanExpressRoutes`. -/
def scanExpressRoutes (localeCompare : String → String → ℤ) (project : List ScannedFile) (dir : String) : RouteScan :=
  let s := scanRegistrations (registrations project dir)
  { s with
    routes := sortBy (compareByPath localeCompare) s.routes
    entrypoints := sortEntrypoints localeCompare s.entrypoints }

/-! ## What is registered -/

/-- The mount paths, without the slashes at their ends, and the path behind them; the path `/` adds nothing. -/
def mountedPath (mounts : List String) (path : String) : String :=
  let whole := String.join (mounts.map stripSlashes) ++ if path = "/" then "" else path
  if whole = "" then "/" else whole

/-- The first argument of a call is a path, and it is not the only one. -/
def HasPath (call : MethodCall) (path : String) : Prop :=
  ∃ text a rest, call.args = ⟨.literal path, text⟩ :: a :: rest

/-- `receiver.verb(path, …, handler)`. -/
def Registers (call : MethodCall) (m : HttpMethod) (path : String) : Prop :=
  (call.name, m) ∈ verbMethods ∧ HasPath call path

/-- A registration of the project, under a chain of mounts that leads to its receiver: its method, its whole path and
where its handler is. -/
inductive Declares (project : List ScannedFile) (dir : String) : HttpMethod → String → SourceLocation → Prop
  | intro {sf : ScannedFile} {call : MethodCall} {m : HttpMethod} {path : String} {mounts : List String}
    (hsf : sf ∈ project) (hcall : call ∈ sf.calls) (hreg : Registers call m path)
    (hchain : Chain (mountEdges sf) call.receiver mounts) :
    Declares project dir m (mountedPath mounts (normalizePath path)) (handlerLoc (relPath sf.filePath dir) call)

/-- The routes are the registrations. -/
structure Lossless (project : List ScannedFile) (dir : String) (routes : List ScannedRoute) : Prop where
  complete : ∀ m path loc, Declares project dir m path loc →
    ∃ r ∈ routes, r.method = .http m ∧ r.path = path ∧ r.handler = loc
  sound : ∀ r ∈ routes, ∃ m, r.method = .http m ∧ Declares project dir m r.path r.handler

/-! ## Paths -/

theorem stripSlashes_joinSeg (front seg : String) :
    stripSlashes (joinSeg front seg) = stripSlashes front ++ stripSlashes seg := by
  have hroot : stripSlashes "/" = "" := by decide
  have hjoined : ∀ t, stripSlashes (if t = "" then "/" else t) = stripSlashes t := by
    intro t
    split_ifs with h
    · rw [h, hroot]
      decide
    · rfl
  rw [joinSeg, hjoined]
  by_cases hseg : seg = "/"
  · rw [if_pos hseg, hseg, hroot, String.append_empty, stripSlashes, stripSlashes, String.toList_ofList,
      List.rdropWhile_idempotent]
  · rw [if_neg hseg, ← String.toList_inj]
    simp only [stripSlashes, String.toList_append, String.toList_ofList]
    exact Text.rdropWhile_rdropWhile_append _ _

/-- The path of a registration under some mounts. -/
theorem joinSeg_foldl (mounts : List String) (path : String) :
    joinSeg (mounts.foldl joinSeg "") path = mountedPath mounts path := by
  have hstrip : stripSlashes (mounts.foldl joinSeg "") = String.join (mounts.map stripSlashes) := by
    induction mounts using List.reverseRecOn with
    | nil => decide
    | append_singleton mounts mount ih =>
      rw [List.foldl_append, List.foldl_cons, List.foldl_nil, stripSlashes_joinSeg, ih, List.map_append]
      simp
  rw [joinSeg, hstrip, mountedPath]

/-! ## Methods -/

theorem verbMethod_eq_http_iff {name : String} {m : HttpMethod} :
    verbMethod name = some (.http m) ↔ (name, m) ∈ verbMethods := by
  constructor
  · intro h
    obtain h | ⟨-, h⟩ := Option.or_eq_some_iff.mp h
    · obtain ⟨e, he, hm⟩ := Option.map_eq_some_iff.mp h
      cases hm
      have hname : e.1 = name := by simpa using List.find?_some he
      exact hname ▸ List.mem_of_find?_eq_some he
    · obtain ⟨k, -, hk⟩ := Option.map_eq_some_iff.mp h
      cases hk
  · have hall : ∀ e ∈ verbMethods, verbMethod e.1 = some (.http e.2) := by decide
    exact hall (name, m)

theorem verbMethod_eq_member_iff {name : String} {k : ObjectMember} :
    verbMethod name = some (.member k) ↔ name = k.name := by
  constructor
  · intro h
    obtain h | ⟨-, h⟩ := Option.or_eq_some_iff.mp h
    · obtain ⟨e, -, hm⟩ := Option.map_eq_some_iff.mp h
      cases hm
    · obtain ⟨k', hk', hk⟩ := Option.map_eq_some_iff.mp h
      cases hk
      have hname : k.name = name := by simpa using List.find?_some hk'
      exact hname.symm
  · rintro rfl
    cases k <;> decide

/-! ## Registrations -/

section Registrations

variable {project : List ScannedFile} {dir rel : String} {sf : ScannedFile} {call : MethodCall} {reg : Registration}

/-- What a registration of a call says. -/
structure OfCall (rel : String) (call : MethodCall) (reg : RawReg) : Prop where
  method : verbMethod call.name = some reg.method
  path : ∃ path, HasPath call path ∧ reg.path = normalizePath path
  receiver : reg.receiver = call.receiver
  handlerLoc : reg.handlerLoc = Express.handlerLoc rel call

theorem ofCall_of_rawReg {raw : RawReg} (h : rawReg rel call = some raw) : OfCall rel call raw := by
  unfold rawReg at h
  split_ifs at h
  obtain ⟨method, hmethod, h⟩ := Option.bind_eq_some_iff.mp h
  split at h
  · rename_i path text a rest hargs
    cases h
    exact ⟨hmethod, ⟨path, ⟨text, a, rest, hargs⟩, rfl⟩, rfl, rfl⟩
  · cases h

theorem exists_rawReg (rel : String) {method : RouteMethod} {path : String} (hmethod : verbMethod call.name = some method)
    (hpath : HasPath call path) : ∃ raw, rawReg rel call = some raw ∧ raw.method = method ∧
      raw.path = normalizePath path := by
  have hname : call.name ≠ "use" := by
    intro huse
    have hnone : verbMethod "use" = none := by decide
    rw [huse, hnone] at hmethod
    cases hmethod
  obtain ⟨text, a, rest, hargs⟩ := hpath
  rw [rawReg, if_neg hname, hmethod, Option.bind_some, hargs]
  exact ⟨_, rfl, rfl, rfl⟩

/-- The loop over the registrations of a file without cycles of mounts. -/
theorem mem_foldl_mountReg {edges : List RawMount} (hacyclic : Acyclic edges) (regs : List RawReg) :
    ChainValues.Known edges "" joinSeg (regs.foldl (mountReg edges rel) ([], [])).2 ∧
      ∀ reg, reg ∈ (regs.foldl (mountReg edges rel) ([], [])).1 ↔ ∃ raw ∈ regs,
        ∃ mounts, Chain edges raw.receiver mounts ∧ reg = mountedRoute rel raw (mounts.foldl joinSeg "") := by
  induction regs using List.reverseRecOn with
  | nil =>
    refine ⟨fun _ _ h => ?_, fun _ => by simp⟩
    cases h
  | append_singleton regs raw ih =>
    obtain ⟨hknown, hmem⟩ := ih
    obtain ⟨hvalues, hknown⟩ := collect_spec hacyclic hknown
      (fun u hu => nomatch hu : ∀ u ∈ [], Relation.TransGen (Leads edges) raw.receiver u)
    rw [List.foldl_append, List.foldl_cons, List.foldl_nil]
    refine ⟨hknown, fun reg => ?_⟩
    rw [mountReg, List.mem_append, hmem]
    have hlast : reg ∈ (prefixesOf edges raw.receiver (regs.foldl (mountReg edges rel) ([], [])).2).1.map
        (mountedRoute rel raw) ↔ ∃ raw' ∈ [raw], ∃ mounts, Chain edges raw'.receiver mounts ∧
          reg = mountedRoute rel raw' (mounts.foldl joinSeg "") := by
      simp only [List.mem_map, List.mem_singleton, exists_eq_left]
      constructor
      · rintro ⟨front, hfront, rfl⟩
        obtain ⟨mounts, hchain, rfl⟩ := (hvalues.mem_iff front).mp hfront
        exact ⟨mounts, hchain, rfl⟩
      · rintro ⟨mounts, hchain, rfl⟩
        exact ⟨_, (hvalues.mem_iff _).mpr ⟨mounts, hchain, rfl⟩, rfl⟩
    rw [hlast]
    simp only [List.mem_append, or_and_right, exists_or]

/-- The registrations of a file: those of its calls, under each chain of mounts. -/
theorem mem_fileRegistrations (hacyclic : Acyclic (mountEdges sf)) : reg ∈ fileRegistrations sf dir ↔
    ∃ call ∈ sf.calls, ∃ raw, rawReg (relPath sf.filePath dir) call = some raw ∧
      ∃ mounts, Chain (mountEdges sf) raw.receiver mounts ∧
        reg = mountedRoute (relPath sf.filePath dir) raw (mounts.foldl joinSeg "") := by
  refine ((mem_foldl_mountReg hacyclic _).2 reg).trans ?_
  simp only [List.mem_filterMap]
  constructor
  · rintro ⟨raw, ⟨call, hcall, hraw⟩, hmounts⟩
    exact ⟨call, hcall, raw, hraw, hmounts⟩
  · rintro ⟨call, hcall, raw, hraw, hmounts⟩
    exact ⟨raw, ⟨call, hcall, hraw⟩, hmounts⟩

/-- The registrations of a project of such files that have an HTTP method are those it declares. -/
theorem declares_of_mem (hacyclic : ∀ sf ∈ project, Acyclic (mountEdges sf)) (hreg : reg ∈ registrations project dir)
    {m : HttpMethod} (hmethod : reg.route.method = .http m) :
    Declares project dir m reg.route.path reg.route.handler := by
  obtain ⟨sf, hsf, hreg⟩ := List.mem_flatMap.mp hreg
  obtain ⟨call, hcall, raw, hraw, mounts, hchain, rfl⟩ := (mem_fileRegistrations (hacyclic sf hsf)).mp hreg
  obtain ⟨hverb, ⟨path, hpath, hnormal⟩, hreceiver, hloc⟩ := ofCall_of_rawReg hraw
  have hmethod : raw.method = .http m := hmethod
  rw [hmethod, verbMethod_eq_http_iff] at hverb
  show Declares project dir m (joinSeg (mounts.foldl joinSeg "") raw.path) raw.handlerLoc
  rw [joinSeg_foldl, hnormal, hloc]
  exact .intro hsf hcall ⟨hverb, hpath⟩ (hreceiver ▸ hchain)

theorem exists_mem_of_declares (hacyclic : ∀ sf ∈ project, Acyclic (mountEdges sf)) {m : HttpMethod} {path : String}
    {loc : SourceLocation} (h : Declares project dir m path loc) : ∃ reg ∈ registrations project dir,
      reg.route.method = .http m ∧ reg.route.path = path ∧ reg.route.handler = loc := by
  obtain ⟨hsf, hcall, ⟨hverb, hpath⟩, hchain⟩ := h
  rename_i sf call path mounts
  obtain ⟨raw, hraw, hmethod, hnormal⟩ := exists_rawReg (relPath sf.filePath dir)
    (verbMethod_eq_http_iff.mpr hverb) hpath
  obtain ⟨-, -, hreceiver, hloc⟩ := ofCall_of_rawReg hraw
  refine ⟨mountedRoute (relPath sf.filePath dir) raw (mounts.foldl joinSeg ""), List.mem_flatMap.mpr ⟨sf, hsf,
    (mem_fileRegistrations (hacyclic sf hsf)).mpr ⟨call, hcall, raw, hraw, mounts, hreceiver ▸ hchain, rfl⟩⟩,
    hmethod, ?_, hloc⟩
  show joinSeg (mounts.foldl joinSeg "") raw.path = _
  rw [joinSeg_foldl, hnormal]

/-- A call of a member that every object has is registered, when it has a path. -/
theorem exists_mem_of_member (dir : String) (hacyclic : ∀ sf ∈ project, Acyclic (mountEdges sf)) (hsf : sf ∈ project)
    (hcall : call ∈ sf.calls) {k : ObjectMember} (hname : call.name = k.name) {path : String}
    (hpath : HasPath call path) : ∃ reg ∈ registrations project dir, reg.route.method = .member k := by
  obtain ⟨raw, hraw, hmethod, -⟩ := exists_rawReg (relPath sf.filePath dir)
    (verbMethod_eq_member_iff.mpr hname) hpath
  have hvalues : IsValues (mountEdges sf) "" joinSeg raw.receiver (prefixesOf (mountEdges sf) raw.receiver []).1 :=
    isValues_collect (hacyclic sf hsf) raw.receiver
  obtain ⟨mounts, hchain⟩ := exists_chain hvalues
  exact ⟨mountedRoute (relPath sf.filePath dir) raw (mounts.foldl joinSeg ""), List.mem_flatMap.mpr ⟨sf, hsf,
    (mem_fileRegistrations (hacyclic sf hsf)).mpr ⟨call, hcall, raw, hraw, mounts, hchain, rfl⟩⟩, hmethod⟩

theorem scanOf_scanExpressRoutes (localeCompare : String → String → ℤ) (project : List ScannedFile) (dir : String) :
    ScanOf (registrations project dir) (scanExpressRoutes localeCompare project dir) := by
  refine (Scanning.scanRegistrations _).toScanOf.congr id (fun r => ⟨rfl, rfl, rfl, rfl⟩) ?_ rfl
  rw [List.map_id]
  exact List.mergeSort_perm _ _

end Registrations

/-- A scan has one route for a method and a path, and it has one handler. -/
theorem Lossless.handler_unique {project : List ScannedFile} {dir : String} {s : RouteScan}
    (h : Lossless project dir s.routes) (hscan : ScanOf (registrations project dir) s) {m : HttpMethod} {path : String}
    {loc loc' : SourceLocation} (hloc : Declares project dir m path loc) (hloc' : Declares project dir m path loc') :
    loc = loc' := by
  obtain ⟨r, hr, hm, hpath, rfl⟩ := h.complete m path loc hloc
  obtain ⟨r', hr', hm', hpath', rfl⟩ := h.complete m path loc' hloc'
  have hkey : r.key = r'.key := ScannedRoute.key_eq_iff.mpr ⟨hm.trans hm'.symm, hpath.trans hpath'.symm⟩
  rw [List.inj_on_of_nodup_map hscan.nodup hr hr' hkey]

/-- No registration is lost, and nothing else is found, exactly when what is registered for one method and path has one
handler, and no member that every object has is called with a path. -/
theorem scanExpressRoutes_lossless_iff (localeCompare : String → String → ℤ) (project : List ScannedFile) (dir : String)
    (hacyclic : ∀ sf ∈ project, Acyclic (mountEdges sf)) :
    Lossless project dir (scanExpressRoutes localeCompare project dir).routes ↔
      (∀ m path loc loc', Declares project dir m path loc → Declares project dir m path loc' → loc = loc') ∧
        ∀ sf ∈ project, ∀ call ∈ sf.calls, ∀ (k : ObjectMember) (path : String), call.name = k.name →
          ¬HasPath call path := by
  have hscan := scanOf_scanExpressRoutes localeCompare project dir
  constructor
  · intro h
    constructor
    · exact fun m path loc loc' hloc hloc' => h.handler_unique hscan hloc hloc'
    · intro sf hsf call hcall k path hname hpath
      obtain ⟨reg, hreg, hmember⟩ := exists_mem_of_member dir hacyclic hsf hcall hname hpath
      obtain ⟨r, hr, hkey⟩ := hscan.complete reg hreg
      obtain ⟨m, hm, -⟩ := h.sound r hr
      rw [(ScannedRoute.key_eq_iff.mp hkey).1, hmember] at hm
      cases hm
  · rintro ⟨hone, hmember⟩
    constructor
    · intro m path loc hloc
      obtain ⟨reg, hreg, hm, rfl, -⟩ := exists_mem_of_declares hacyclic hloc
      obtain ⟨r, hr, hkey⟩ := hscan.complete reg hreg
      obtain ⟨hmethod, hpath⟩ := ScannedRoute.key_eq_iff.mp hkey
      refine ⟨r, hr, hmethod.trans hm, hpath, ?_⟩
      -- The route has the handler of the first registration.
      obtain ⟨reg', hreg', -, hmethod', hpath', hhandler⟩ := hscan.sound r hr
      have hfirst := declares_of_mem hacyclic hreg' (hmethod'.symm.trans (hmethod.trans hm))
      rw [← hpath', hpath, ← hhandler] at hfirst
      exact hone m _ _ _ hfirst hloc
    · intro r hr
      obtain ⟨reg, hreg, -, hmethod, hpath, hhandler⟩ := hscan.sound r hr
      rcases hm : reg.route.method with m | k
      · refine ⟨m, hmethod.trans hm, ?_⟩
        rw [hpath, hhandler]
        exact declares_of_mem hacyclic hreg hm
      · obtain ⟨sf, hsf, hreg⟩ := List.mem_flatMap.mp hreg
        obtain ⟨call, hcall, raw, hraw, mounts, -, rfl⟩ := (mem_fileRegistrations (hacyclic sf hsf)).mp hreg
        obtain ⟨hverb, ⟨path, hargs, -⟩, -⟩ := ofCall_of_rawReg hraw
        have hm : raw.method = .member k := hm
        rw [hm, verbMethod_eq_member_iff] at hverb
        exact absurd hargs (hmember sf hsf call hcall k path hverb)

/-- A router that is mounted in its file, with one route. -/
private def usersFile : ScannedFile :=
  { filePath := "/w/users.ts"
    variableStatements := [{ declarations :=
      [{ name := "router", line := 2, initializer := some (.call .other "express.Router") }] }]
    calls :=
      [⟨"router", "get", [⟨.literal "/", "\"/\""⟩, ⟨.identifier "listUsers", "listUsers"⟩], 3⟩,
        ⟨"app", "use", [⟨.literal "/users", "\"/users\""⟩, ⟨.identifier "router", "router"⟩], 4⟩] }

theorem scanExpressRoutes_lossless_users :
    Lossless [usersFile] "/w" (scanExpressRoutes (fun _ _ => 0) [usersFile] "/w").routes := by
  have hedges : mountEdges usersFile = [⟨"app", "router", "/users"⟩] := by decide +kernel
  have hacyclic : ∀ sf ∈ [usersFile], Acyclic (mountEdges sf) := by
    intro sf hsf
    rw [List.mem_singleton.mp hsf, hedges]
    exact acyclic_of_rank (fun v => if v = "router" then 1 else 0) (by decide)
  have hline : ∀ {m path loc}, Declares [usersFile] "/w" m path loc → loc = { file := "users.ts", line := 3 } := by
    rintro m path loc ⟨hsf, hcall, ⟨hverb, -⟩, -⟩
    rw [List.mem_singleton.mp hsf] at hcall ⊢
    obtain rfl | hcall := List.mem_cons.mp hcall
    · rfl
    · rw [List.mem_singleton.mp hcall] at hverb
      simp [verbMethods] at hverb
  refine (scanExpressRoutes_lossless_iff (fun _ _ => 0) [usersFile] "/w" hacyclic).mpr
    ⟨fun m path loc loc' hloc hloc' => (hline hloc).trans (hline hloc').symm, fun sf hsf call hcall k path hname => ?_⟩
  have hmember : "get" ≠ k.name ∧ "use" ≠ k.name := by cases k <;> decide
  rw [List.mem_singleton.mp hsf] at hcall
  obtain rfl | hcall := List.mem_cons.mp hcall
  · exact absurd hname hmember.1
  · rw [List.mem_singleton.mp hcall] at hname
    exact absurd hname hmember.2

/-- Two files, each with a router of its own for the path `/`. -/
private def twoRouters : List ScannedFile :=
  [{ filePath := "/w/users.ts"
     calls := [⟨"router", "get", [⟨.literal "/", "\"/\""⟩, ⟨.identifier "listUsers", "listUsers"⟩], 3⟩] },
    { filePath := "/w/posts.ts"
      calls := [⟨"router", "get", [⟨.literal "/", "\"/\""⟩, ⟨.identifier "listPosts", "listPosts"⟩], 3⟩] }]

/-- The route of the second file is lost. -/
theorem second_router_lost : ¬∀ (localeCompare : String → String → ℤ) (project : List ScannedFile) (dir : String),
    (∀ sf ∈ project, Acyclic (mountEdges sf)) →
      Lossless project dir (scanExpressRoutes localeCompare project dir).routes := by
  intro h
  have hedges : ∀ sf ∈ twoRouters, mountEdges sf = [] := by decide +kernel
  have hlossless := h (fun _ _ => 0) twoRouters "/w" fun sf hsf => by
    rw [hedges sf hsf]
    exact acyclic_of_rank (fun _ => 0) (by simp)
  have hdeclares : ∀ sf ∈ twoRouters, ∀ call ∈ sf.calls,
      Declares twoRouters "/w" .get "/" (handlerLoc (relPath sf.filePath "/w") call) := by
    intro sf hsf call hcall
    have hreg : Registers call .get "/" := by
      simp only [twoRouters, List.mem_cons, List.not_mem_nil, or_false] at hsf
      rcases hsf with rfl | rfl <;> rw [List.mem_singleton.mp hcall] <;> exact ⟨by decide, _, _, _, rfl⟩
    exact .intro hsf hcall hreg (.root (by simp [hedges sf hsf]))
  have hsame := hlossless.handler_unique (scanOf_scanExpressRoutes _ _ _)
    (hdeclares _ List.mem_cons_self _ List.mem_cons_self)
    (hdeclares _ (List.mem_cons_of_mem _ List.mem_cons_self) _ List.mem_cons_self)
  have hfile := congrArg SourceLocation.file hsame
  revert hfile
  decide +kernel

end MontrSecure.Express
