import Mathlib.Data.List.Infix
import MontrSecure.Text.Splitting

/-!
# Paths

The functions of `node:path` for POSIX paths, and the replacements the layers make in repo-relative ones.
-/

namespace NodePath

/-! ## `node:path` -/

/-- The parts of a path between its slashes. -/
def parts (path : String) : List (List Char) := path.toList.splitOn '/'

/-- One part of `normalizeString`: `..` takes back the part before it, when there is one. -/
def resolvePart (allowAboveRoot : Bool) (resolved : List (List Char)) (part : List Char) : List (List Char) :=
  if part = [] ∨ part = ['.'] then resolved
  else if part = ['.', '.'] then
    if resolved ≠ [] ∧ resolved.getLast? ≠ some ['.', '.'] then resolved.dropLast
    else if allowAboveRoot then resolved ++ [part] else resolved
  else resolved ++ [part]

/-- `path.normalize`. -/
def normalize (path : String) : String :=
  if path = "" then "."
  else
    let isAbsolute := path.toList.head? = some '/'
    let trailingSeparator := path.toList.getLast? = some '/'
    let resolved := ['/'].intercalate ((parts path).foldl (resolvePart !isAbsolute) [])
    let body := if trailingSeparator then resolved ++ ['/'] else resolved
    if resolved = [] then if isAbsolute then "/" else if trailingSeparator then "./" else "."
    else String.ofList (if isAbsolute then '/' :: body else body)

/-- `path.join` of two paths. -/
def join (a b : String) : String :=
  if a = "" then if b = "" then "." else normalize b
  else if b = "" then normalize a
  else normalize (a ++ "/" ++ b)

example : join "a/b" "../c" = "a/c" := by decide +kernel

/-- `path.dirname`. -/
def dirname (path : String) : String :=
  match path.toList with
  | [] => "."
  | first :: rest =>
    -- the slashes at the end, then the last part, then the slash before it
    let before := (rest.reverse.dropWhile (· = '/')).dropWhile (· ≠ '/')
    match before with
    | [] => if first = '/' then "/" else "."
    | _ :: dir => if first = '/' ∧ dir = [] then "//" else String.ofList (first :: dir.reverse)

/-! ## Repo-relative paths -/

/-- `p.replace(/^\.\//, "")`. -/
def stripDotSlash (p : String) : String :=
  match p.toList with
  | '.' :: '/' :: rest => String.ofList rest
  | _ => p

/-- `p.replace(/\/$/, "")`. -/
def stripSlash (p : String) : String :=
  if p.toList.getLast? = some '/' then String.ofList p.toList.dropLast else p

/-- `p.replace(/^\//, "")`. -/
def stripRoot (p : String) : String :=
  match p.toList with
  | '/' :: rest => String.ofList rest
  | _ => p

example : stripRoot "/a" = "a" := by decide +kernel

/-- `p.replace(/\\/g, "/")`. -/
def slashes (p : String) : String := String.ofList (p.toList.map fun c => if c = '\\' then '/' else c)

/-- `posix`. -/
def posix (p : String) : String := stripDotSlash (slashes p)

/-- `p.startsWith(start)`. -/
def startsWith (p start : String) : Bool := start.toList.isPrefixOf p.toList

/-- The path of a file below a directory, when it is there. -/
def below (dir abs : String) : String :=
  if startsWith abs dir then stripRoot (String.ofList (abs.toList.drop dir.toList.length)) else abs

/-- What is under a path without its last slash is under the path. -/
theorem startsWith_stripSlash (p : String) :
    stripSlash p = p ∨ startsWith p (stripSlash p ++ "/") := by
  unfold stripSlash
  by_cases h : p.toList.getLast? = some '/'
  · right
    rw [if_pos h]
    have hne : p.toList ≠ [] := by
      intro hnil
      rw [hnil] at h
      cases h
    have hlast : p.toList.getLast hne = '/' := by
      rw [List.getLast?_eq_getLast_of_ne_nil hne] at h
      exact Option.some.inj h
    have hwhole : (String.ofList p.toList.dropLast ++ "/").toList = p.toList := by
      rw [String.toList_append, String.toList_ofList, ← List.dropLast_append_getLast hne, hlast]
      simp
    rw [startsWith, hwhole]
    exact List.isPrefixOf_iff_prefix.mpr List.prefix_rfl
  · left
    rw [if_neg h]

end NodePath

/-!
## Where paths lead

The segments that a path leads to from a directory, with `.` and `..` resolved, and what the functions of
`node:path` make of them. A relative path goes some levels up and from there down again; it stays below the
directory it starts from exactly when it goes down the same way.
-/

namespace NodePath

open Text

/-- `..` as a segment. -/
abbrev up : List Char := ['.', '.']

/-- The segments that parts of a path lead to from a directory; above the root there is nothing. -/
def walkFrom (dir : List (List Char)) (ps : List (List Char)) : List (List Char) := ps.foldl (resolvePart false) dir

/-- The segments of a relative path on its own: levels up, and what follows. -/
def relativeSegments (ps : List (List Char)) : List (List Char) := ps.foldl (resolvePart true) []

/-- The segment names something: it is no separator of its own, and neither `.` nor `..`. -/
structure IsName (seg : List Char) : Prop where
  ne_nil : seg ≠ []
  ne_dot : seg ≠ ['.']
  ne_up : seg ≠ up

variable {dir rest ps segs : List (List Char)} {part : List Char} {k : ℕ} {allow : Bool}

theorem resolvePart_name (h : IsName part) : resolvePart allow segs part = segs ++ [part] := by
  rw [resolvePart, if_neg (not_or.mpr ⟨h.ne_nil, h.ne_dot⟩), if_neg h.ne_up]

theorem resolvePart_skip (h : part = [] ∨ part = ['.']) : resolvePart allow segs part = segs := by
  rw [resolvePart, if_pos h]

theorem resolvePart_up_concat (h : IsName part) : resolvePart allow (segs ++ [part]) up = segs := by
  have hlast : segs ++ [part] ≠ [] ∧ (segs ++ [part]).getLast? ≠ some up := by
    refine ⟨by simp, ?_⟩
    rw [List.getLast?_concat]
    exact fun heq => h.ne_up (Option.some.inj heq)
  rw [resolvePart, if_neg (by decide), if_pos rfl, if_pos hlast, List.dropLast_concat]

/-- A level up from a directory, as far as there is one. -/
theorem resolvePart_up_take (hdir : ∀ seg ∈ dir, IsName seg) (n : ℕ) (hn : n ≤ dir.length) :
    resolvePart false (dir.take n) up = dir.take (n - 1) := by
  rcases n with _ | n
  · rw [resolvePart, if_neg (by decide), if_pos rfl, if_neg (by simp), if_neg (by decide)]
  · have hname : IsName (dir[n]) := hdir _ (List.getElem_mem hn)
    rw [List.take_succ_eq_append_getElem hn, resolvePart_up_concat hname, Nat.add_sub_cancel]

theorem resolvePart_up_replicate (k : ℕ) :
    resolvePart true (List.replicate k up) up = List.replicate (k + 1) up := by
  have hlast : ¬(List.replicate k up ≠ [] ∧ (List.replicate k up).getLast? ≠ some ['.', '.']) := by
    rintro ⟨hne, hlast⟩
    refine hlast ?_
    rw [List.getLast?_replicate, if_neg (fun h => hne (by rw [h]; rfl))]
  rw [resolvePart, if_neg (by decide), if_pos (by rfl), if_neg hlast, if_pos rfl, List.replicate_succ']

/-- Every part is one that is left out, one level up, or a name. -/
theorem part_cases (part : List Char) : (part = [] ∨ part = ['.']) ∨ part = up ∨ IsName part := by
  by_cases h : part = [] ∨ part = ['.']
  · exact .inl h
  · by_cases hup : part = up
    · exact .inr (.inl hup)
    · exact .inr (.inr ⟨fun heq => h (.inl heq), fun heq => h (.inr heq), hup⟩)

/-- A relative path goes levels up first and then down, and from a directory it leads where that does. -/
theorem walkFrom_eq (hdir : ∀ seg ∈ dir, IsName seg) (ps : List (List Char)) :
    ∃ k rest, (∀ seg ∈ rest, IsName seg) ∧ relativeSegments ps = List.replicate k up ++ rest ∧
      walkFrom dir ps = dir.take (dir.length - k) ++ rest := by
  induction ps using List.reverseRecOn with
  | nil => exact ⟨0, [], by simp, rfl, by simp [walkFrom]⟩
  | append_singleton ps part ih =>
    obtain ⟨k, rest, hrest, hrelative, hwalk⟩ := ih
    simp only [relativeSegments, walkFrom] at hrelative hwalk
    simp only [relativeSegments, walkFrom, List.foldl_append, List.foldl_cons, List.foldl_nil, hrelative, hwalk]
    rcases part_cases part with hskip | rfl | hname
    · exact ⟨k, rest, hrest, resolvePart_skip hskip, resolvePart_skip hskip⟩
    · -- A level up takes the last name back, or else another level.
      rcases List.eq_nil_or_concat rest with rfl | ⟨rest, last, rfl⟩
      · refine ⟨k + 1, [], hrest, ?_, ?_⟩
        · rw [List.append_nil, List.append_nil, resolvePart_up_replicate]
        · rw [List.append_nil, List.append_nil, resolvePart_up_take hdir _ (Nat.sub_le _ _), Nat.sub_sub]
      · have hlast := hrest last (by simp)
        refine ⟨k, rest, fun seg hseg => hrest seg (by simp [hseg]), ?_, ?_⟩
        · rw [List.concat_eq_append, ← List.append_assoc, resolvePart_up_concat hlast]
        · rw [List.concat_eq_append, ← List.append_assoc, resolvePart_up_concat hlast]
    · refine ⟨k, rest ++ [part], ?_, ?_, ?_⟩
      · intro seg hseg
        rcases List.mem_append.mp hseg with hseg | hseg
        · exact hrest seg hseg
        · exact List.mem_singleton.mp hseg ▸ hname
      · rw [resolvePart_name hname, List.append_assoc]
      · rw [resolvePart_name hname, List.append_assoc]

/-- The levels that a relative path goes up, and the names that it goes down then. -/
def levels (ps : List (List Char)) : ℕ := (relativeSegments ps).countP (· = up)

def descent (ps : List (List Char)) : List (List Char) := (relativeSegments ps).drop (levels ps)

theorem walkFrom_levels (hdir : ∀ seg ∈ dir, IsName seg) (ps : List (List Char)) :
    walkFrom dir ps = dir.take (dir.length - levels ps) ++ descent ps ∧ ∀ seg ∈ descent ps, IsName seg := by
  obtain ⟨k, rest, hrest, hrelative, hwalk⟩ := walkFrom_eq hdir ps
  have hnone : rest.countP (· = up) = 0 := by
    rw [List.countP_eq_zero]
    intro seg hseg
    simpa using (hrest seg hseg).ne_up
  have hlevels : levels ps = k := by
    rw [levels, hrelative, List.countP_append, hnone, Nat.add_zero, List.countP_replicate]
    simp
  have hdescent : descent ps = rest := by
    rw [descent, hlevels, hrelative, List.drop_left' (List.length_replicate)]
  rw [hlevels, hdescent]
  exact ⟨hwalk, hrest⟩

/-- A path stays below the directory when it goes down again the way it went up. -/
theorem prefix_walkFrom_iff (hdir : ∀ seg ∈ dir, IsName seg) (ps : List (List Char)) :
    dir <+: walkFrom dir ps ↔ dir.drop (dir.length - levels ps) <+: descent ps := by
  rw [(walkFrom_levels hdir ps).1]
  generalize dir.length - levels ps = n
  calc dir <+: dir.take n ++ descent ps ↔ dir.take n ++ dir.drop n <+: dir.take n ++ descent ps := by
        rw [List.take_append_drop]
    _ ↔ dir.drop n <+: descent ps := List.prefix_append_right_inj _

theorem walkFrom_append (dir ps qs : List (List Char)) : walkFrom dir (ps ++ qs) = walkFrom (walkFrom dir ps) qs :=
  List.foldl_append

theorem walkFrom_nil_cons (dir ps : List (List Char)) : walkFrom dir ([] :: ps) = walkFrom dir ps := by
  rw [walkFrom, List.foldl_cons, resolvePart_skip (.inl rfl), ← walkFrom]

theorem walkFrom_concat_nil (dir ps : List (List Char)) : walkFrom dir (ps ++ [[]]) = walkFrom dir ps := by
  rw [walkFrom_append, walkFrom_nil_cons]
  rfl

/-- Names lead straight down. -/
theorem walkFrom_names (dir : List (List Char)) (h : ∀ seg ∈ rest, IsName seg) : walkFrom dir rest = dir ++ rest := by
  induction rest generalizing dir with
  | nil => simp [walkFrom]
  | cons part rest ih =>
    obtain ⟨hname, hrest⟩ := List.forall_mem_cons.mp h
    rw [walkFrom, List.foldl_cons, resolvePart_name hname, ← walkFrom, ih _ hrest, List.append_assoc, List.singleton_append]

/-- The segments of a relative path are their own. -/
theorem relativeSegments_relativeSegments (ps : List (List Char)) :
    relativeSegments (relativeSegments ps) = relativeSegments ps := by
  obtain ⟨k, rest, hrest, hrelative, -⟩ := walkFrom_eq (show ∀ seg ∈ ([] : List (List Char)), IsName seg by simp) ps
  have hups : ∀ k, relativeSegments (List.replicate k up) = List.replicate k up := by
    intro k
    induction k with
    | zero => rfl
    | succ k ih =>
      rw [List.replicate_succ', relativeSegments, List.foldl_append, ← relativeSegments, ih, List.foldl_cons,
        List.foldl_nil, resolvePart_up_replicate, List.replicate_succ']
  have hnames : ∀ segs, (rest.foldl (resolvePart true) segs) = segs ++ rest := by
    clear hrelative
    intro segs
    induction rest generalizing segs with
    | nil => simp
    | cons part rest ih =>
      obtain ⟨hname, hrest⟩ := List.forall_mem_cons.mp hrest
      rw [List.foldl_cons, resolvePart_name hname, ih hrest, List.append_assoc, List.singleton_append]
  rw [hrelative, relativeSegments, List.foldl_append, ← relativeSegments, hups, hnames]

/-- A path and its own segments lead to the same place. -/
theorem walkFrom_relativeSegments (hdir : ∀ seg ∈ dir, IsName seg) (ps : List (List Char)) :
    walkFrom dir (relativeSegments ps) = walkFrom dir ps := by
  rw [(walkFrom_levels hdir ps).1, (walkFrom_levels hdir _).1, descent, descent, levels, levels,
    relativeSegments_relativeSegments]

/-! ## Texts of segments -/

/-- What is left of the parts of a path are parts of it. -/
theorem foldl_resolvePart_subset (segs ps : List (List Char)) : ps.foldl (resolvePart allow) segs ⊆ segs ++ ps := by
  induction ps generalizing segs with
  | nil => simp
  | cons part ps ih =>
    rw [List.foldl_cons]
    refine List.Subset.trans (ih _) ?_
    rw [List.append_subset]
    constructor
    · intro seg hseg
      rw [resolvePart] at hseg
      split_ifs at hseg
      · simp [hseg]
      · simp [List.mem_of_mem_dropLast hseg]
      · simp only [List.mem_append, List.mem_singleton] at hseg
        simp only [List.mem_append, List.mem_cons]
        tauto
      · simp [hseg]
      · simp only [List.mem_append, List.mem_singleton] at hseg
        simp only [List.mem_append, List.mem_cons]
        tauto
    · intro seg hseg
      simp [hseg]

theorem not_slash_of_mem_parts {path : String} (h : part ∈ parts path) : '/' ∉ part := not_mem_of_mem_splitOn h

/-! ## The functions of `node:path` -/

/-- `path.isAbsolute`. -/
def isAbsolute (path : String) : Bool := path.toList.head? = some '/'

/-- Where a path leads from a directory. -/
def leadFrom (dir : List (List Char)) (path : String) : List (List Char) :=
  walkFrom (if isAbsolute path then [] else dir) (parts path)

/-- The absolute path of segments. -/
def rooted (segs : List (List Char)) : String := String.ofList ('/' :: ['/'].intercalate segs)

/-- `path.resolve` in a working directory: every path from where the ones before it lead. -/
def resolve (cwd : List (List Char)) (paths : List String) : String := rooted (paths.foldl leadFrom cwd)

/-- `path.relative` in a working directory: up from the one path to what both have in common, and down. -/
def relative (cwd : List (List Char)) (start path : String) : String :=
  let dir := leadFrom cwd start
  let segs := leadFrom cwd path
  let common := ((dir.zip segs).takeWhile fun p => p.1 = p.2).length
  String.ofList (['/'].intercalate (List.replicate (dir.length - common) up ++ segs.drop common))

/-- The segments are names, as in a path. -/
def AreNames (segs : List (List Char)) : Prop := ∀ seg ∈ segs, IsName seg ∧ '/' ∉ seg

theorem AreNames.isName (h : AreNames segs) : ∀ seg ∈ segs, IsName seg := fun seg hseg => (h seg hseg).1

theorem areNames_walkFrom (hdir : AreNames dir) (hps : ∀ part ∈ ps, '/' ∉ part) : AreNames (walkFrom dir ps) := by
  intro seg hseg
  refine ⟨?_, ?_⟩
  · obtain ⟨hwalk, hnames⟩ := walkFrom_levels hdir.isName ps
    rw [hwalk] at hseg
    rcases List.mem_append.mp hseg with hseg | hseg
    · exact (hdir seg (List.mem_of_mem_take hseg)).1
    · exact hnames seg hseg
  · rcases List.mem_append.mp (foldl_resolvePart_subset _ _ hseg) with hseg | hseg
    · exact (hdir seg hseg).2
    · exact hps seg hseg

theorem areNames_leadFrom (hdir : AreNames dir) (path : String) : AreNames (leadFrom dir path) := by
  refine areNames_walkFrom ?_ fun part hpart => not_slash_of_mem_parts hpart
  split
  · exact fun seg hseg => nomatch hseg
  · exact hdir

theorem parts_ofList (l : List Char) : parts (String.ofList l) = l.splitOn '/' := by
  rw [parts, String.toList_ofList]

theorem splitOn_join (hne : segs ≠ []) (hsegs : ∀ seg ∈ segs, '/' ∉ seg) :
    (['/'].intercalate segs).splitOn '/' = segs := List.splitOn_intercalate _ hsegs hne

/-- The parts of a text of segments lead where the segments do. -/
theorem walkFrom_join (dir : List (List Char)) (hsegs : ∀ seg ∈ segs, '/' ∉ seg) :
    walkFrom dir ((['/'].intercalate segs).splitOn '/') = walkFrom dir segs := by
  rcases eq_or_ne segs [] with rfl | hne
  · exact walkFrom_nil_cons dir []
  · rw [splitOn_join hne hsegs]

theorem splitOn_cons_slash (l : List Char) : ('/' :: l).splitOn '/' = [] :: l.splitOn '/' := by
  show ([] ++ '/' :: l).splitOn '/' = _
  exact List.splitOn_append_cons_self_of_not_mem (by simp) l

theorem splitOn_concat_slash (l : List Char) : (l ++ ['/']).splitOn '/' = l.splitOn '/' ++ [[]] :=
  List.splitOn_append_cons_self l []

theorem join_eq_nil_iff (hsegs : ∀ seg ∈ segs, seg ≠ []) : ['/'].intercalate segs = [] ↔ segs = [] := by
  rcases segs with _ | ⟨seg, segs⟩
  · simp
  · have hne := hsegs seg (by simp)
    rcases segs with _ | ⟨next, segs⟩
    · simpa using hne
    · simp [List.intercalate_cons_cons]

/-- A text of segments does not begin with a separator. -/
theorem head?_join (hsegs : ∀ seg ∈ segs, seg ≠ [] ∧ '/' ∉ seg) (l : List Char) (h : segs ≠ []) :
    (['/'].intercalate segs ++ l).head? ≠ some '/' := by
  rcases segs with _ | ⟨seg, segs⟩
  · exact absurd rfl h
  · obtain ⟨hne, hslash⟩ := hsegs seg (by simp)
    rcases seg with _ | ⟨c, seg⟩
    · exact absurd rfl hne
    · have hc : c ≠ '/' := fun heq => hslash (by simp [heq])
      rcases segs with _ | ⟨next, segs⟩
      · simpa using hc
      · simpa [List.intercalate_cons_cons] using hc

/-- The segments of a relative path are levels up or names. -/
theorem mem_relativeSegments {path : String} {seg : List Char} (h : seg ∈ relativeSegments (parts path)) :
    seg ≠ [] ∧ '/' ∉ seg := by
  obtain ⟨k, rest, hrest, hrelative, -⟩ := walkFrom_eq (show ∀ seg ∈ ([] : List (List Char)), IsName seg by simp) (parts path)
  refine ⟨?_, ?_⟩
  · rw [hrelative, List.mem_append, List.mem_replicate] at h
    rcases h with ⟨-, rfl⟩ | h
    · decide
    · exact (hrest seg h).ne_nil
  · exact not_slash_of_mem_parts (foldl_resolvePart_subset [] _ h)

theorem leadFrom_relative {l : List Char} (h : l.head? ≠ some '/') :
    leadFrom dir (String.ofList l) = walkFrom dir (l.splitOn '/') := by
  have habs : isAbsolute (String.ofList l) = false := by
    rw [isAbsolute, String.toList_ofList]
    exact decide_eq_false h
  rw [leadFrom, habs, parts_ofList]
  rfl

theorem leadFrom_absolute (l : List Char) :
    leadFrom dir (String.ofList ('/' :: l)) = walkFrom [] (l.splitOn '/') := by
  have habs : isAbsolute (String.ofList ('/' :: l)) = true := by
    rw [isAbsolute, String.toList_ofList]
    rfl
  rw [leadFrom, habs, parts_ofList, splitOn_cons_slash, walkFrom_nil_cons]
  rfl

theorem leadFrom_rooted (h : AreNames segs) : leadFrom dir (rooted segs) = segs := by
  rw [rooted, leadFrom_absolute, walkFrom_join _ fun seg hseg => (h seg hseg).2, walkFrom_names [] h.isName,
    List.nil_append]

/-- Normalizing a path does not change where it leads. -/
theorem leadFrom_normalize (hdir : AreNames dir) (path : String) : leadFrom dir (normalize path) = leadFrom dir path := by
  rcases eq_or_ne path "" with rfl | hne
  · rfl
  rw [normalize, if_neg hne]
  rcases habs : isAbsolute path with _ | _
  · have hrelative : ¬path.toList.head? = some '/' := of_decide_eq_false habs
    have hlead : leadFrom dir path = walkFrom dir (relativeSegments (parts path)) := by
      rw [leadFrom, habs, walkFrom_relativeSegments hdir.isName]
      rfl
    have hfold : (parts path).foldl (resolvePart !decide (path.toList.head? = some '/')) [] =
        relativeSegments (parts path) := by
      rw [decide_eq_false hrelative]
      rfl
    have hsegs : ∀ seg ∈ relativeSegments (parts path), seg ≠ [] ∧ '/' ∉ seg := fun seg hseg => mem_relativeSegments hseg
    have hslash : ∀ seg ∈ relativeSegments (parts path), '/' ∉ seg := fun seg hseg => (hsegs seg hseg).2
    simp only [hfold, join_eq_nil_iff fun seg hseg => (hsegs seg hseg).1]
    rw [if_neg hrelative, if_neg hrelative, hlead]
    split_ifs with hnil htrailing htrailing
    · rw [hnil]
      rfl
    · rw [hnil]
      rfl
    · rw [leadFrom_relative (head?_join hsegs ['/'] hnil), splitOn_concat_slash, walkFrom_concat_nil,
        walkFrom_join dir hslash]
    · have hhead := head?_join hsegs [] hnil
      rw [List.append_nil] at hhead
      rw [leadFrom_relative hhead, walkFrom_join dir hslash]
  · have habsolute : path.toList.head? = some '/' := of_decide_eq_true habs
    have hlead : leadFrom dir path = walkFrom [] (parts path) := by
      rw [leadFrom, habs]
      rfl
    have hfold : (parts path).foldl (resolvePart !decide (path.toList.head? = some '/')) [] =
        walkFrom [] (parts path) := by
      rw [decide_eq_true habsolute]
      rfl
    have hsegs : AreNames (walkFrom [] (parts path)) :=
      areNames_walkFrom (fun seg hseg => nomatch hseg) fun part hpart => not_slash_of_mem_parts hpart
    have hslash : ∀ seg ∈ walkFrom [] (parts path), '/' ∉ seg := fun seg hseg => (hsegs seg hseg).2
    have hself : walkFrom [] (walkFrom [] (parts path)) = walkFrom [] (parts path) := by
      rw [walkFrom_names [] hsegs.isName, List.nil_append]
    simp only [hfold, join_eq_nil_iff fun seg hseg => (hsegs seg hseg).1.ne_nil]
    rw [if_pos habsolute, if_pos habsolute, hlead]
    split_ifs with hnil htrailing
    · rw [hnil]
      rfl
    · rw [leadFrom_absolute, splitOn_concat_slash, walkFrom_concat_nil, walkFrom_join [] hslash, hself]
    · rw [leadFrom_absolute, walkFrom_join [] hslash, hself]

example : normalize "a/../b" = "b" := by decide +kernel

/-- Joining a path to another leads on from where that one leads. -/
theorem leadFrom_join (hdir : AreNames dir) {a : String} (ha : a ≠ "") (b : String) :
    leadFrom dir (join a b) = walkFrom (leadFrom dir a) (parts b) := by
  rw [join, if_neg ha]
  split_ifs with hb
  · rw [leadFrom_normalize hdir, hb]
    rfl
  · rw [leadFrom_normalize hdir]
    have habs : isAbsolute (a ++ "/" ++ b) = isAbsolute a := by
      rw [isAbsolute, isAbsolute, String.toList_append, String.toList_append]
      rcases hlist : a.toList with _ | ⟨c, l⟩
      · exact absurd (String.toList_inj.mp (hlist.trans rfl)) ha
      · rfl
    have hparts : parts (a ++ "/" ++ b) = parts a ++ parts b := by
      rw [parts, String.toList_append, String.toList_append, List.append_assoc]
      exact List.splitOn_append_cons_self a.toList b.toList
    rw [leadFrom, habs, hparts, walkFrom_append, leadFrom]

theorem normalize_ne_empty (path : String) : normalize path ≠ "" := by
  have hne {l : List Char} (h : l ≠ []) : String.ofList l ≠ "" := by
    intro heq
    have hlist := congrArg String.toList heq
    rw [String.toList_ofList] at hlist
    exact h hlist
  rw [normalize]
  split_ifs with hempty
  · decide
  · dsimp only
    split_ifs with hnil
    · decide
    · decide
    · decide
    · exact hne (List.cons_ne_nil _ _)
    · exact hne (List.cons_ne_nil _ _)
    · exact hne (List.append_ne_nil_of_right_ne_nil _ (List.cons_ne_nil '/' []))
    · exact hne hnil

theorem join_ne_empty (a b : String) : join a b ≠ "" := by
  rw [join]
  split_ifs
  · decide
  · exact normalize_ne_empty b
  · exact normalize_ne_empty a
  · exact normalize_ne_empty _

theorem length_common (dir rest : List (List Char)) :
    ((dir.zip (dir ++ rest)).takeWhile fun p => p.1 = p.2).length = dir.length := by
  induction dir with
  | nil => rfl
  | cons seg dir ih => simp [ih]

/-- The path from a directory to what is below it leads there. -/
theorem leadFrom_join_relative {cwd : List (List Char)} (hcwd : AreNames cwd) {a b : String} (ha : a ≠ "")
    (h : leadFrom cwd a <+: leadFrom cwd b) : leadFrom cwd (join a (relative cwd a b)) = leadFrom cwd b := by
  obtain ⟨rest, hrest⟩ := h
  have hnames := areNames_leadFrom hcwd b
  have hbelow : ∀ seg ∈ rest, IsName seg ∧ '/' ∉ seg := fun seg hseg => hnames seg (hrest ▸ by simp [hseg])
  have hrelative : relative cwd a b = String.ofList (['/'].intercalate rest) := by
    rw [relative, ← hrest]
    simp only [length_common, Nat.sub_self, List.replicate_zero, List.nil_append, List.drop_left]
  rw [leadFrom_join hcwd ha, hrelative, parts_ofList, walkFrom_join _ fun seg hseg => (hbelow seg hseg).2,
    walkFrom_names _ fun seg hseg => (hbelow seg hseg).1, hrest]

/-- A path with a directory and a separator at its beginning is below that. -/
theorem prefix_of_rooted_startsWith {segs' : List (List Char)} (h : AreNames segs) (h' : AreNames segs')
    (hstarts : rooted segs' = rooted segs ∨ startsWith (rooted segs') (rooted segs ++ "/") = true) : segs <+: segs' := by
  have hslash : ∀ {l : List (List Char)}, AreNames l → ∀ seg ∈ l, '/' ∉ seg := fun hl seg hseg => (hl seg hseg).2
  rcases eq_or_ne segs [] with rfl | hne
  · exact List.nil_prefix
  rcases hstarts with heq | hstarts
  · have hlead := congrArg (leadFrom []) heq
    rw [leadFrom_rooted h, leadFrom_rooted h'] at hlead
    rw [hlead]
  · rw [startsWith, List.isPrefixOf_iff_prefix] at hstarts
    obtain ⟨w, hw⟩ := hstarts
    simp only [rooted, String.toList_append, String.toList_ofList, List.cons_append, List.cons.injEq, true_and] at hw
    have hjoin : (['/'].intercalate segs').splitOn '/' = segs ++ w.splitOn '/' := by
      rw [← hw, List.append_assoc]
      calc (['/'].intercalate segs ++ '/' :: w).splitOn '/'
          = (['/'].intercalate segs).splitOn '/' ++ w.splitOn '/' := List.splitOn_append_cons_self _ _
        _ = segs ++ w.splitOn '/' := by rw [splitOn_join hne (hslash h)]
    have hne' : segs' ≠ [] := by
      rintro rfl
      have hnil : ['/'].intercalate ([] : List (List Char)) = [] := rfl
      rw [hnil, List.append_assoc] at hw
      have := congrArg List.length hw
      simp at this
    rw [splitOn_join hne' (hslash h')] at hjoin
    exact ⟨_, hjoin.symm⟩

end NodePath
