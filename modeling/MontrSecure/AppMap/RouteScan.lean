import MontrSecure.AppMap.SourceSyntax
import MontrSecure.Data.InsertionMap
import MontrSecure.Text.SelfDelimiting
import MontrSecure.Text.Slugs
import Mathlib.Data.List.Nodup

/-!
# Scans for routes

What the route scanners of `packages/appmap/src/languages/typescript` share: the ids of routes, the scan that the
registrations of a project add up to, and `mergeRouteScans`. `ScanOf` says what a scan keeps of its registrations,
whichever scanner made it.
-/

namespace MontrSecure

open Text

/-! ## Methods -/

/-- The members that every object has. -/
inductive ObjectMember where
  | ctor
  | defineGetter
  | defineSetter
  | hasOwnProperty
  | lookupGetter
  | lookupSetter
  | isPrototypeOf
  | propertyIsEnumerable
  | toString
  | valueOf
  | proto
  | toLocaleString
  deriving DecidableEq

namespace ObjectMember

def name : ObjectMember → String
  | ctor => "constructor"
  | defineGetter => "__defineGetter__"
  | defineSetter => "__defineSetter__"
  | hasOwnProperty => "hasOwnProperty"
  | lookupGetter => "__lookupGetter__"
  | lookupSetter => "__lookupSetter__"
  | isPrototypeOf => "isPrototypeOf"
  | propertyIsEnumerable => "propertyIsEnumerable"
  | toString => "toString"
  | valueOf => "valueOf"
  | proto => "__proto__"
  | toLocaleString => "toLocaleString"

/-- All of them. -/
def members : List ObjectMember :=
  [ctor, defineGetter, defineSetter, hasOwnProperty, lookupGetter, lookupSetter, isPrototypeOf, propertyIsEnumerable,
    toString, valueOf, proto, toLocaleString]

/-- What the member is as a text. -/
def text : ObjectMember → String
  | proto => "[object Object]"
  | ctor => "function Object() \x7b [native code] \x7d"
  | m => "function " ++ m.name ++ "() \x7b [native code] \x7d"

end ObjectMember

/-- The method of a scanned route. A table of methods that is asked for a member that every object has gives that
member. -/
inductive RouteMethod where
  | http (m : HttpMethod)
  | member (m : ObjectMember)
  deriving DecidableEq

namespace RouteMethod

/-- The methods that there are. -/
def methods : List RouteMethod :=
  [.http .get, .http .post, .http .put, .http .patch, .http .delete, .http .options, .http .head, .http .all] ++
    ObjectMember.members.map .member

/-- What a method is in a template. -/
def text : RouteMethod → String
  | http .get => "GET"
  | http .post => "POST"
  | http .put => "PUT"
  | http .patch => "PATCH"
  | http .delete => "DELETE"
  | http .options => "OPTIONS"
  | http .head => "HEAD"
  | http .all => "ALL"
  | member m => m.text

theorem mem_methods (m : RouteMethod) : m ∈ methods := by
  rcases m with m | m <;> cases m <;> decide

/-- The texts of two methods, with a separator behind them, and one is the beginning of the other. -/
def startsAs (sep : Char) (m m' : RouteMethod) : Bool :=
  (m.text.toList ++ [sep]).isPrefixOf (m'.text.toList ++ [sep])

theorem eq_of_startsAs {sep : Char} (hsep : sep = ' ' ∨ sep = '_') {m m' : RouteMethod}
    (h : startsAs sep m m' = true) : m = m' := by
  have hall : (methods.all fun m => methods.all fun m' => !startsAs sep m m' || m = m') = true := by
    obtain rfl | rfl := hsep <;> decide +kernel
  have hm' := List.all_eq_true.mp (List.all_eq_true.mp hall m (mem_methods m)) m' (mem_methods m')
  rw [h] at hm'
  simpa using hm'

/-- A method and a separator are not the beginning of another one and its separator. -/
theorem selfDelimiting_text {sep : Char} (hsep : sep = ' ' ∨ sep = '_') (m : RouteMethod) :
    SelfDelimiting Anything (fun m : RouteMethod => m.text.toList ++ [sep]) m := by
  intro m' s t _ _ heq
  have hm : m = m' := by
    rcases List.prefix_or_prefix_of_prefix (List.prefix_append _ s) (heq ▸ List.prefix_append _ t) with h | h
    · exact eq_of_startsAs hsep (List.isPrefixOf_iff_prefix.mpr h)
    · exact (eq_of_startsAs hsep (List.isPrefixOf_iff_prefix.mpr h)).symm
  subst hm
  exact ⟨rfl, List.append_cancel_left heq⟩

end RouteMethod

/-! ## Routes -/

/-- `Route`, as the scanners make it. -/
structure ScannedRoute where
  id : String
  path : String
  method : RouteMethod
  authState : AuthState
  isApiRoute : Bool
  handler : SourceLocation
  authGate : Option String

/-- A character that a slug keeps: `[a-zA-Z0-9]`. -/
def isRouteChar (c : Char) : Bool := c.isAlphanum

/-- The path without the characters `[`, `]`, `(`, `)` and `.`. -/
def withoutBrackets (path : String) : List Char := path.toList.filter fun c => c ∉ ['[', ']', '(', ')', '.']

example : withoutBrackets "[id]" = ['i', 'd'] := by decide +kernel

/-- The slug of a path, in `routeId`. -/
def pathSlug (path : String) : String :=
  String.ofList (trimSymbol '_' (squeeze (!isRouteChar ·) '_' (withoutBrackets path)))

/-- `routeId`. -/
def routeId (method : RouteMethod) (path : String) : String :=
  "route_" ++ method.text ++ "_" ++ if pathSlug path = "" then "root" else pathSlug path

/-- `${route.method} ${route.path}`. -/
def ScannedRoute.key (r : ScannedRoute) : String := r.method.text ++ " " ++ r.path

/-- A route that a scanner has come across, in a file, with its handler when that is a function. -/
structure Registration where
  route : ScannedRoute
  file : String
  handlerFn : Option FnLike

/-! ## Scans -/

/-- `RouteScan`. -/
structure RouteScan where
  routes : List ScannedRoute := []
  entrypoints : List Entrypoint := []
  routeIdsByFile : List (String × List String) := []
  handlersByRouteId : List (String × FnLike) := []

/-- `addRoute`, with the keys that have been seen. -/
def addRoute (acc : RouteScan × List String) (r : Registration) : RouteScan × List String :=
  let (s, seen) := acc
  if r.route.key ∈ seen then acc
  else
    ({ routes := s.routes ++ [r.route]
       entrypoints := s.entrypoints ++ [{ name := r.route.key, location := some r.route.handler }]
       routeIdsByFile := InsertionMap.set r.file ((InsertionMap.get s.routeIdsByFile r.file).getD [] ++ [r.route.id]) s.routeIdsByFile
       handlersByRouteId :=
        match r.handlerFn with
        | some fn => InsertionMap.set r.route.id fn s.handlersByRouteId
        | none => s.handlersByRouteId },
      seen ++ [r.route.key])

/-- The scan that registrations add up to. -/
def scanRegistrations (regs : List Registration) : RouteScan := (regs.foldl addRoute ({}, [])).1

/-- `list.sort(compare)`. -/
def sortBy {α : Type} (compare : α → α → ℤ) (l : List α) : List α := l.mergeSort fun a b => compare a b ≤ 0

section Order

variable (localeCompare : String → String → ℤ)

/-- `a.path.localeCompare(b.path) || a.method.localeCompare(b.method)`; a member of every object is compared as its
text. -/
def compareByPath (a b : ScannedRoute) : ℤ :=
  if localeCompare a.path b.path ≠ 0 then localeCompare a.path b.path
  else localeCompare a.method.text b.method.text

/-- API routes first, then by path. -/
def compareRoutes (a b : ScannedRoute) : ℤ :=
  if a.isApiRoute = b.isApiRoute then compareByPath localeCompare a b else if a.isApiRoute then -1 else 1

/-- The entrypoints by their names. -/
def sortEntrypoints (l : List Entrypoint) : List Entrypoint := sortBy (fun a b => localeCompare a.name b.name) l

/-- One step of the loop over the routes, in `mergeRouteScans`. -/
def mergeRoute (acc : List ScannedRoute × List String) (r : ScannedRoute) : List ScannedRoute × List String :=
  if r.key ∈ acc.2 then acc else (acc.1 ++ [r], acc.2 ++ [r.key])

/-- One step of the loop over the scans, in `mergeRouteScans`. -/
def mergeScan (acc : RouteScan × List String) (s : RouteScan) : RouteScan × List String :=
  let (routes, seen) := s.routes.foldl mergeRoute (acc.1.routes, acc.2)
  ({ routes
     entrypoints := acc.1.entrypoints ++ s.entrypoints
     routeIdsByFile :=
      s.routeIdsByFile.foldl (fun m e => InsertionMap.set e.1 ((InsertionMap.get m e.1).getD [] ++ e.2) m) acc.1.routeIdsByFile
     handlersByRouteId :=
      s.handlersByRouteId.foldl (fun m e => if (InsertionMap.get m e.1).isSome then m else InsertionMap.set e.1 e.2 m)
        acc.1.handlersByRouteId },
    seen)

/-- `mergeRouteScans`. -/
def mergeRouteScans (scans : List RouteScan) : RouteScan :=
  match scans with
  | [s] => s
  | scans =>
    let merged := (scans.foldl mergeScan ({}, [])).1
    { merged with
      routes := sortBy (compareRoutes localeCompare) merged.routes
      entrypoints := sortEntrypoints localeCompare merged.entrypoints }

end Order

/-! ## Ids -/

/-- The words of a path, as its id has them. -/
def pathWords (path : String) : List (List Char) :=
  let words := runs (!isRouteChar ·) (withoutBrackets path)
  if words = [] then ["root".toList] else words

theorem toList_pathSlug (path : String) :
    (pathSlug path).toList = ['_'].intercalate (runs (!isRouteChar ·) (withoutBrackets path)) := by
  rw [pathSlug, String.toList_ofList, trimSymbol_squeeze (by decide)]

theorem pathSlug_eq_empty_iff {path : String} : pathSlug path = "" ↔ runs (!isRouteChar ·) (withoutBrackets path) = [] := by
  rw [← String.toList_eq_nil_iff, toList_pathSlug]
  exact intercalate_runs_eq_nil_iff

/-- The text behind the method in an id has the words of the path. -/
theorem exists_pathWords (path : String) : ∃ l, pathWords path = runs (!isRouteChar ·) l ∧
    (if pathSlug path = "" then "root" else pathSlug path).toList = ['_'].intercalate (runs (!isRouteChar ·) l) := by
  unfold pathWords
  by_cases h : runs (!isRouteChar ·) (withoutBrackets path) = []
  · have hroot : runs (!isRouteChar ·) "root".toList = ["root".toList] := by decide
    rw [if_pos (pathSlug_eq_empty_iff.mpr h)]
    exact ⟨"root".toList, by rw [if_pos h, hroot], by rw [hroot, List.intercalate_singleton]⟩
  · rw [if_neg fun hslug => h (pathSlug_eq_empty_iff.mp hslug), toList_pathSlug]
    exact ⟨withoutBrackets path, if_neg h, rfl⟩

/-- The id of a route has its method and the words of its path, and tells them. -/
theorem routeId_eq_iff {m m' : RouteMethod} {path path' : String} :
    routeId m path = routeId m' path' ↔ m = m' ∧ pathWords path = pathWords path' := by
  obtain ⟨l, hl, htext⟩ := exists_pathWords path
  obtain ⟨l', hl', htext'⟩ := exists_pathWords path'
  have hid : routeId m path = routeId m' path' ↔
      (m.text.toList ++ ['_']) ++ ['_'].intercalate (runs (!isRouteChar ·) l) =
        (m'.text.toList ++ ['_']) ++ ['_'].intercalate (runs (!isRouteChar ·) l') := by
    rw [routeId, routeId, ← String.toList_inj]
    simp only [String.toList_append, List.append_assoc, List.append_cancel_left_eq, htext, htext']
    rfl
  rw [hid, hl, hl', ← intercalate_runs_inj '_' (by decide)]
  constructor
  · exact RouteMethod.selfDelimiting_text (.inr rfl) m m' _ _ trivial trivial
  · rintro ⟨rfl, h⟩
    rw [h]

theorem ScannedRoute.key_eq_iff {a b : ScannedRoute} : a.key = b.key ↔ a.method = b.method ∧ a.path = b.path := by
  have hkey : a.key = b.key ↔
      (a.method.text.toList ++ [' ']) ++ a.path.toList = (b.method.text.toList ++ [' ']) ++ b.path.toList := by
    rw [key, key, ← String.toList_inj, String.toList_append, String.toList_append, String.toList_append,
      String.toList_append]
    rfl
  rw [hkey]
  constructor
  · intro h
    obtain ⟨hmethod, hpath⟩ := RouteMethod.selfDelimiting_text (.inl rfl) a.method b.method _ _ trivial trivial h
    exact ⟨hmethod, String.toList_inj.mp hpath⟩
  · rintro ⟨hmethod, hpath⟩
    rw [hmethod, hpath]

/-! ## What a scan keeps -/

/-- A scan has one route for every method and path that was registered, and its handlers are registered under the ids
that it has them by. -/
structure ScanOf (regs : List Registration) (s : RouteScan) : Prop where
  sound : ∀ r ∈ s.routes, ∃ reg ∈ regs,
    r.id = reg.route.id ∧ r.method = reg.route.method ∧ r.path = reg.route.path ∧ r.handler = reg.route.handler
  complete : ∀ reg ∈ regs, ∃ r ∈ s.routes, r.key = reg.route.key
  nodup : (s.routes.map ScannedRoute.key).Nodup
  handlers : ∀ id fn, InsertionMap.get s.handlersByRouteId id = some fn → ∃ reg ∈ regs,
    reg.route.id = id ∧ reg.handlerFn = some fn

/-- A loop over routes, with the keys of the routes it has kept. -/
structure Scanning (regs : List Registration) (acc : RouteScan × List String) : Prop extends ScanOf regs acc.1 where
  seen : acc.2 = acc.1.routes.map ScannedRoute.key

namespace Scanning

variable {regs regs' : List Registration} {acc : RouteScan × List String}

theorem empty : Scanning [] ({}, []) where
  sound _ h := nomatch h
  complete _ h := nomatch h
  nodup := List.nodup_nil
  handlers _ _ h := nomatch h
  seen := rfl

/-- One registration more. -/
theorem addRoute (h : Scanning regs acc) (reg : Registration) :
    Scanning (regs ++ [reg]) (MontrSecure.addRoute acc reg) := by
  obtain ⟨s, seen⟩ := acc
  have hold : ∀ {P : Registration → Prop}, (∃ r ∈ regs, P r) → ∃ r ∈ regs ++ [reg], P r := by
    rintro P ⟨r, hr, hP⟩
    exact ⟨r, List.mem_append_left _ hr, hP⟩
  have hseen : seen = s.routes.map ScannedRoute.key := h.seen
  unfold MontrSecure.addRoute
  simp only
  split_ifs with hkey
  · -- The route has been registered before.
    refine ⟨⟨fun r hr => hold (h.sound r hr), fun r hr => ?_, h.nodup, fun id fn hfn => hold (h.handlers id fn hfn)⟩,
      h.seen⟩
    obtain hr | hr := List.mem_append.mp hr
    · exact h.complete r hr
    · rw [hseen] at hkey
      rw [List.mem_singleton.mp hr]
      exact List.mem_map.mp hkey
  · refine ⟨⟨fun r hr => ?_, fun r hr => ?_, ?_, fun id fn hfn => ?_⟩, ?_⟩
    · obtain hr | hr := List.mem_append.mp hr
      · exact hold (h.sound r hr)
      · rw [List.mem_singleton.mp hr]
        exact ⟨reg, by simp, rfl, rfl, rfl, rfl⟩
    · obtain hr | hr := List.mem_append.mp hr
      · obtain ⟨r', hr', heq⟩ := h.complete r hr
        exact ⟨r', List.mem_append_left _ hr', heq⟩
      · rw [List.mem_singleton.mp hr]
        exact ⟨reg.route, by simp, rfl⟩
    · rw [List.map_append, List.map_singleton]
      exact List.Nodup.append h.nodup (List.nodup_singleton _) (List.disjoint_singleton.mpr (hseen ▸ hkey))
    · rcases hhandler : reg.handlerFn with _ | fn'
      · rw [hhandler] at hfn
        exact hold (h.handlers id fn hfn)
      · rw [hhandler] at hfn
        change InsertionMap.get (InsertionMap.set reg.route.id fn' s.handlersByRouteId) id = some fn at hfn
        rw [InsertionMap.get_set] at hfn
        split_ifs at hfn with hid
        · cases hfn
          exact ⟨reg, by simp, hid, hhandler⟩
        · exact hold (h.handlers id fn hfn)
    · show seen ++ [reg.route.key] = (s.routes ++ [reg.route]).map ScannedRoute.key
      rw [hseen, List.map_append, List.map_singleton]

theorem scanRegistrations (regs : List Registration) :
    Scanning regs (regs.foldl MontrSecure.addRoute ({}, [])) := by
  induction regs using List.reverseRecOn with
  | nil => exact .empty
  | append_singleton regs reg ih =>
    rw [List.foldl_append]
    exact ih.addRoute reg

/-- The routes that are kept, when further ones are gone through. -/
structure Merged (routes rs : List ScannedRoute) (acc : List ScannedRoute × List String) : Prop where
  seen : acc.2 = acc.1.map ScannedRoute.key
  nodup : (acc.1.map ScannedRoute.key).Nodup
  mem : ∀ r ∈ acc.1, r ∈ routes ∨ r ∈ rs
  subset : routes ⊆ acc.1
  complete : ∀ r ∈ rs, ∃ r' ∈ acc.1, r'.key = r.key

theorem foldl_mergeRoute {routes : List ScannedRoute} (hnodup : (routes.map ScannedRoute.key).Nodup)
    (rs : List ScannedRoute) : Merged routes rs (rs.foldl mergeRoute (routes, routes.map ScannedRoute.key)) := by
  induction rs using List.reverseRecOn with
  | nil => exact ⟨rfl, hnodup, fun r hr => .inl hr, List.Subset.refl _, fun _ h => nomatch h⟩
  | append_singleton rs r ih =>
    rw [List.foldl_append, List.foldl_cons, List.foldl_nil, mergeRoute]
    generalize rs.foldl mergeRoute (routes, routes.map ScannedRoute.key) = acc at ih
    split_ifs with hkey
    · refine ⟨ih.seen, ih.nodup, fun r' hr' => (ih.mem r' hr').imp_right (List.mem_append_left _), ih.subset,
        fun r' hr' => ?_⟩
      obtain hr' | hr' := List.mem_append.mp hr'
      · exact ih.complete r' hr'
      · rw [List.mem_singleton.mp hr']
        exact List.mem_map.mp (ih.seen ▸ hkey)
    · refine ⟨?_, ?_, fun r' hr' => ?_, fun r' hr' => List.mem_append_left _ (ih.subset hr'), fun r' hr' => ?_⟩
      · show acc.2 ++ [r.key] = (acc.1 ++ [r]).map ScannedRoute.key
        rw [ih.seen, List.map_append, List.map_singleton]
      · rw [List.map_append, List.map_singleton]
        exact List.Nodup.append ih.nodup (List.nodup_singleton _) (List.disjoint_singleton.mpr (ih.seen ▸ hkey))
      · obtain hr' | hr' := List.mem_append.mp hr'
        · exact (ih.mem r' hr').imp_right (List.mem_append_left _)
        · exact .inr (List.mem_append_right _ hr')
      · obtain hr' | hr' := List.mem_append.mp hr'
        · obtain ⟨r'', hr'', heq⟩ := ih.complete r' hr'
          exact ⟨r'', List.mem_append_left _ hr'', heq⟩
        · exact ⟨r, by simp, by rw [List.mem_singleton.mp hr']⟩

/-- One scan more. -/
theorem mergeScan (h : Scanning regs acc) {s : RouteScan} (hs : ScanOf regs' s) :
    Scanning (regs ++ regs') (MontrSecure.mergeScan acc s) := by
  obtain ⟨merged, seen⟩ := acc
  have hseen : seen = merged.routes.map ScannedRoute.key := h.seen
  have hroutes := foldl_mergeRoute h.nodup s.routes
  rw [← h.seen] at hroutes
  refine ⟨⟨fun r hr => ?_, fun reg hreg => ?_, hroutes.nodup, fun id fn hfn => ?_⟩, hroutes.seen⟩
  · obtain hr | hr := hroutes.mem r hr
    · obtain ⟨reg, hreg, heq⟩ := h.sound r hr
      exact ⟨reg, List.mem_append_left _ hreg, heq⟩
    · obtain ⟨reg, hreg, heq⟩ := hs.sound r hr
      exact ⟨reg, List.mem_append_right _ hreg, heq⟩
  · obtain hreg | hreg := List.mem_append.mp hreg
    · obtain ⟨r, hr, heq⟩ := h.complete reg hreg
      exact ⟨r, hroutes.subset hr, heq⟩
    · obtain ⟨r, hr, heq⟩ := hs.complete reg hreg
      obtain ⟨r', hr', heq'⟩ := hroutes.complete r hr
      exact ⟨r', hr', heq'.trans heq⟩
  · rw [MontrSecure.mergeScan, InsertionMap.get_foldl_add, Option.or_eq_some_iff] at hfn
    obtain hfn | ⟨-, hfn⟩ := hfn
    · obtain ⟨reg, hreg, heq⟩ := h.handlers id fn hfn
      exact ⟨reg, List.mem_append_left _ hreg, heq⟩
    · obtain ⟨reg, hreg, heq⟩ := hs.handlers id fn hfn
      exact ⟨reg, List.mem_append_right _ hreg, heq⟩

end Scanning

/-- Sorting and what does not concern the ids make no difference. -/
theorem ScanOf.congr {regs : List Registration} {s s' : RouteScan} (h : ScanOf regs s)
    (f : ScannedRoute → ScannedRoute)
    (hf : ∀ r, (f r).id = r.id ∧ (f r).method = r.method ∧ (f r).path = r.path ∧ (f r).handler = r.handler)
    (hroutes : s'.routes.Perm (s.routes.map f)) (hhandlers : s'.handlersByRouteId = s.handlersByRouteId) :
    ScanOf regs s' := by
  have hkey : ∀ r, (f r).key = r.key := fun r => ScannedRoute.key_eq_iff.mpr ⟨(hf r).2.1, (hf r).2.2.1⟩
  refine ⟨fun r hr => ?_, fun reg hreg => ?_, ?_, fun id fn hfn => h.handlers id fn (hhandlers ▸ hfn)⟩
  · obtain ⟨r', hr', rfl⟩ := List.mem_map.mp (hroutes.mem_iff.mp hr)
    obtain ⟨hid, hmethod, hpath, hhandler⟩ := hf r'
    rw [hid, hmethod, hpath, hhandler]
    exact h.sound r' hr'
  · obtain ⟨r, hr, heq⟩ := h.complete reg hreg
    exact ⟨f r, hroutes.mem_iff.mpr (List.mem_map_of_mem hr), (hkey r).trans heq⟩
  · have hmap : (s.routes.map f).map ScannedRoute.key = s.routes.map ScannedRoute.key := by
      rw [List.map_map]
      exact List.map_congr_left fun r _ => hkey r
    rw [(hroutes.map _).nodup_iff, hmap]
    exact h.nodup

/-- The merged scan is one of all registrations. -/
theorem scanOf_mergeRouteScans (localeCompare : String → String → ℤ) {regs : List (List Registration)}
    {scans : List RouteScan} (h : List.Forall₂ ScanOf regs scans) :
    ScanOf regs.flatten (mergeRouteScans localeCompare scans) := by
  have hmerged : ∀ {rs ss} {regs : List Registration} {acc}, List.Forall₂ ScanOf rs ss → Scanning regs acc →
      Scanning (regs ++ rs.flatten) (ss.foldl mergeScan acc) := by
    intro rs ss regs acc hrs hacc
    induction hrs generalizing regs acc with
    | nil => simpa using hacc
    | cons hr _ ih => simpa using ih (hacc.mergeScan hr)
  have hall : ScanOf regs.flatten (scans.foldl mergeScan ({}, [])).1 := (hmerged h .empty).toScanOf
  unfold mergeRouteScans
  split
  · obtain ⟨rs, _, hr, hnil, rfl⟩ := List.forall₂_cons_right_iff.mp h
    rw [List.forall₂_nil_right_iff.mp hnil]
    simpa using hr
  · exact hall.congr id (fun r => ⟨rfl, rfl, rfl, rfl⟩) ((List.mergeSort_perm _ _).trans (by simp)) rfl

end MontrSecure
