import MontrSecure.Discovery.SemverRanges
import MontrSecure.Text.Splitting

/-!
# Keys of a lockfile

`parsePkgKey` of `packages/discovery/src/detectors/sca.ts`, and the keys that the formats of `pnpm-lock.yaml` write
for a package: `/name/version`, `/name@version` and `name@version`, with the peers of the package behind. `reads_iff`
says which keys are read as the package they name. The peers of the first format are not.
-/

namespace MontrSecure.Lockfile

open Text Semver

/-! ## The parser -/

/-- `InstalledPackage`. -/
structure InstalledPackage where
  name : List ℕ
  version : List ℕ
  deriving DecidableEq

/-- `key.replace(/^\//, "")`. -/
def stripSlash (key : List ℕ) : List ℕ := if key.head? = some (unit '/') then key.tail else key

/-- `key.replace(/\(.*\)$/, "")`. -/
def stripParens : List ℕ → List ℕ
  | [] => []
  | c :: cs =>
    if c = unit '(' ∧ cs.getLast? = some (unit ')') ∧ ∀ d ∈ cs, isLineEnd d = false then [] else c :: stripParens cs

/-- `text.lastIndexOf(c)`. -/
def lastIndexOf (c : ℕ) : List ℕ → Option ℕ
  | [] => none
  | x :: xs =>
    match lastIndexOf c xs with
    | some i => some (i + 1)
    | none => if x = c then some 0 else none

/-- `/^\d/`. -/
def startsWithDigit (text : List ℕ) : Bool := text.head?.any isDecimal

/-- The last segment is the version, and the others are the name. -/
def fromSegments (k : List ℕ) : Option InstalledPackage :=
  let segs := k.splitOn (unit '/')
  let last := segs.getLast?.getD []
  if startsWithDigit last ∧ 2 ≤ segs.length then some ⟨[unit '/'].intercalate segs.dropLast, last⟩ else none

/-- `parsePkgKey`, of a key without the slash and the parentheses. -/
def parseStripped (k : List ℕ) : Option InstalledPackage :=
  match lastIndexOf (unit '@') k with
  | some (i + 1) => if startsWithDigit (k.drop (i + 2)) then some ⟨k.take (i + 1), k.drop (i + 2)⟩ else fromSegments k
  | _ => fromSegments k

/-- `parsePkgKey`. -/
def parsePkgKey (key : List ℕ) : Option InstalledPackage := parseStripped (stripParens (stripSlash key))

/-! ## Keys -/

/-- A character of a name. -/
def isNameUnit (c : ℕ) : Bool := c ≠ unit '/' && c ≠ unit '@' && !isLineEnd c

/-- A name without its scope, or a scope. -/
abbrev NamePart : Type := { text : List ℕ // text ≠ [] ∧ ∀ c ∈ text, isNameUnit c = true }

/-- `name` or `@scope/name`. -/
structure PackageName where
  scope : Option NamePart
  base : NamePart

/-- A version with the tags of its prerelease and of its build. -/
structure FullVersion extends Version where
  build : List Identifier

/-- Peers in parentheses: the first with its own peers, and the rest. -/
inductive Peers where
  | nil
  | cons (name : PackageName) (version : FullVersion) (nested rest : Peers)

/-- A key of each format. -/
inductive LockKey where
  | v5 (name : PackageName) (version : FullVersion) (peers : List (PackageName × FullVersion))
  | v6 (name : PackageName) (version : FullVersion) (peers : Peers)
  | v9 (name : PackageName) (version : FullVersion) (peers : Peers)

/-- `sep` between the scope and the name. -/
def PackageName.join (sep : ℕ) (n : PackageName) : List ℕ :=
  (n.scope.toList.flatMap fun s => unit '@' :: (s.1 ++ [sep])) ++ n.base.1

def PackageName.text (n : PackageName) : List ℕ := n.join (unit '/')

def FullVersion.text (v : FullVersion) : List ℕ :=
  v.toVersion.text ++ if v.build = [] then [] else unit '+' :: [unit '.'].intercalate (v.build.map (·.1))

/-- `name@version`. -/
def atVersion (name : List ℕ) (v : FullVersion) : List ℕ := name ++ unit '@' :: v.text

def Peers.text : Peers → List ℕ
  | nil => []
  | cons n v nested rest => unit '(' :: (atVersion n.text v ++ (nested.text ++ unit ')' :: rest.text))

/-- `_peer@version`; the `/` of a peer is written as `+`, which also stands between two peers. -/
def peerSuffix (peers : List (PackageName × FullVersion)) : List ℕ :=
  if peers = [] then []
  else unit '_' :: [unit '+'].intercalate (peers.map fun p => atVersion (p.1.join (unit '+')) p.2)

namespace LockKey

def text : LockKey → List ℕ
  | v5 n v peers => unit '/' :: (n.text ++ unit '/' :: (v.text ++ peerSuffix peers))
  | v6 n v peers => unit '/' :: (atVersion n.text v ++ peers.text)
  | v9 n v peers => atVersion n.text v ++ peers.text

/-- The package a key names. -/
def package : LockKey → InstalledPackage
  | v5 n v _ | v6 n v _ | v9 n v _ => ⟨n.text, v.text⟩

/-- There are no peers in the first format, and none in the others behind a name with a parenthesis. -/
def Readable : LockKey → Prop
  | v5 _ _ peers => peers = []
  | v6 n _ peers | v9 n _ peers => unit '(' ∈ n.text → peers = .nil

end LockKey

/-! ## Characters -/

/-- A character of a version. -/
def isVersionUnit (c : ℕ) : Bool := isIdentifierUnit c || c = unit '.' || c = unit '+'

theorem isVersionUnit_iff {c : ℕ} : isVersionUnit c = true ↔
    48 ≤ c ∧ c ≤ 57 ∨ 65 ≤ c ∧ c ≤ 90 ∨ 97 ≤ c ∧ c ≤ 122 ∨ c = 45 ∨ c = 46 ∨ c = 43 := by
  have hunits : unit '0' = 48 ∧ unit '9' = 57 ∧ unit 'A' = 65 ∧ unit 'Z' = 90 ∧ unit 'a' = 97 ∧ unit 'z' = 122 ∧
      unit '-' = 45 ∧ unit '.' = 46 ∧ unit '+' = 43 := by decide
  simp only [isVersionUnit, isIdentifierUnit, isDecimal, Bool.or_eq_true, Bool.and_eq_true, decide_eq_true_eq, hunits]
  omega

/-- A version has no separators of keys. -/
theorem not_mem_of_versionUnits {text : List ℕ} (h : ∀ c ∈ text, isVersionUnit c = true) {c : ℕ}
    (hc : isVersionUnit c = false) : c ∉ text := fun hmem => by
  rw [h c hmem] at hc
  cases hc

theorem isLineEnd_of_isVersionUnit {c : ℕ} (h : isVersionUnit c = true) : isLineEnd c = false := by
  have := isVersionUnit_iff.mp h
  simp only [isLineEnd, Bool.or_eq_false_iff, decide_eq_false_iff_not]
  omega

theorem isVersionUnit_of_isIdentifierUnit {c : ℕ} (h : isIdentifierUnit c = true) : isVersionUnit c = true := by
  rw [isVersionUnit, h]
  rfl

theorem isVersionUnit_numeral (n : Numeral) : ∀ c ∈ n.1, isVersionUnit c = true := fun c hc =>
  isVersionUnit_of_isIdentifierUnit (by rw [isIdentifierUnit, n.2.2 c hc]; rfl)

/-- The identifiers of a tag, with points between them. -/
theorem isVersionUnit_identifiers (tag : List Identifier) :
    ∀ c ∈ [unit '.'].intercalate (tag.map (·.1)), isVersionUnit c = true := by
  induction tag with
  | nil => exact fun c hc => (nomatch hc)
  | cons i tag ih =>
    have hi : ∀ c ∈ i.1, isVersionUnit c = true := fun c hc => isVersionUnit_of_isIdentifierUnit (i.2.2 c hc)
    rcases tag with _ | ⟨j, tag⟩
    · simpa [List.intercalate_singleton] using hi
    · rw [List.map_cons, List.map_cons, List.intercalate_cons_cons]
      simp only [List.forall_mem_append, List.forall_mem_singleton]
      exact ⟨⟨hi, rfl⟩, ih⟩

theorem isVersionUnit_text (v : FullVersion) : ∀ c ∈ v.text, isVersionUnit c = true := by
  have htag : ∀ c ∈ Version.tagText v.tag, isVersionUnit c = true := by
    unfold Version.tagText
    split_ifs with h
    · exact fun c hc => (nomatch hc)
    · exact List.forall_mem_append.mpr ⟨by decide, isVersionUnit_identifiers v.tag⟩
  have hbuild : ∀ c ∈ (if v.build = [] then [] else unit '+' :: [unit '.'].intercalate (v.build.map (·.1))),
      isVersionUnit c = true := by
    split_ifs with h
    · exact fun c hc => (nomatch hc)
    · exact List.forall_mem_cons.mpr ⟨rfl, isVersionUnit_identifiers v.build⟩
  have hpoint : ∀ c ∈ units ".", isVersionUnit c = true := by decide
  simp only [FullVersion.text, Version.text, List.forall_mem_append]
  exact ⟨⟨isVersionUnit_numeral _, ⟨hpoint, isVersionUnit_numeral _⟩, ⟨hpoint, isVersionUnit_numeral _⟩, htag⟩,
    hbuild⟩

theorem startsWithDigit_text (v : FullVersion) : startsWithDigit v.text = true := by
  obtain ⟨hne, hdigits⟩ := v.major.2
  rw [FullVersion.text, Version.text, startsWithDigit]
  obtain ⟨c, cs, hcs⟩ := List.exists_cons_of_ne_nil hne
  rw [hcs]
  exact hdigits c (hcs ▸ List.mem_cons_self)

theorem text_ne_nil (v : FullVersion) : v.text ≠ [] := by
  intro h
  have := startsWithDigit_text v
  rw [h] at this
  cases this

/-- A name begins with a character of a name or with `@`, and its characters are on one line. -/
theorem PackageName.text_eq_cons (n : PackageName) :
    ∃ c cs, n.text = c :: cs ∧ c ≠ unit '/' ∧ unit '@' ∉ cs ∧ (n.scope = none → c ≠ unit '@') := by
  obtain ⟨scope, base, hbase, hunits⟩ := n
  have hat : ∀ part : NamePart, unit '@' ∉ part.1 := fun part hmem => by
    have := part.2.2 _ hmem
    revert this
    decide
  rcases scope with _ | scope
  · obtain ⟨c, cs, rfl⟩ := List.exists_cons_of_ne_nil hbase
    have hc := hunits c List.mem_cons_self
    have hno := hat ⟨c :: cs, hbase, hunits⟩
    simp only [isNameUnit, Bool.and_eq_true, decide_eq_true_eq] at hc
    exact ⟨c, cs, rfl, hc.1.1, fun h => hno (List.mem_cons_of_mem c h), fun _ => hc.1.2⟩
  · refine ⟨unit '@', scope.1 ++ unit '/' :: base, ?_, by decide, ?_, fun h => nomatch h⟩
    · simp [PackageName.text, PackageName.join]
    · simp only [List.mem_append, List.mem_cons, not_or]
      exact ⟨hat scope, by decide, hat ⟨base, hbase, hunits⟩⟩

theorem PackageName.isLineEnd_text (n : PackageName) : ∀ c ∈ n.text, isLineEnd c = false := by
  have hpart : ∀ part : NamePart, ∀ c ∈ part.1, isLineEnd c = false := fun part c hc => by
    have := part.2.2 c hc
    simp only [isNameUnit, Bool.and_eq_true, Bool.not_eq_true'] at this
    exact this.2
  rcases n with ⟨_ | scope, base⟩
  · exact hpart base
  · simp only [PackageName.text, PackageName.join, Option.toList_some, List.flatMap_singleton, List.cons_append,
      List.forall_mem_cons, List.forall_mem_append]
    exact ⟨rfl, ⟨hpart scope, rfl, fun _ h => nomatch h⟩, hpart base⟩

/-! ## Parts of the parser -/

theorem lastIndexOf_eq_none {c : ℕ} {l : List ℕ} (h : c ∉ l) : lastIndexOf c l = none := by
  induction l with
  | nil => rfl
  | cons x xs ih =>
    obtain ⟨hx, hxs⟩ := not_or.mp (mt List.mem_cons.mpr h)
    rw [lastIndexOf, ih hxs]
    exact if_neg (Ne.symm hx)

theorem lastIndexOf_append_cons {c : ℕ} {r : List ℕ} (h : c ∉ r) (l : List ℕ) :
    lastIndexOf c (l ++ c :: r) = some l.length := by
  induction l with
  | nil => rw [List.nil_append, lastIndexOf, lastIndexOf_eq_none h, if_pos rfl, List.length_nil]
  | cons x l ih => rw [List.cons_append, lastIndexOf, ih, List.length_cons]

/-- Without a parenthesis at the end nothing is stripped. -/
theorem stripParens_of_getLast? {l : List ℕ} (h : l.getLast? ≠ some (unit ')')) : stripParens l = l := by
  induction l with
  | nil => rfl
  | cons c cs ih =>
    rcases cs with _ | ⟨d, cs⟩
    · rw [stripParens, if_neg (fun h => nomatch h.2.1), stripParens]
    · rw [List.getLast?_cons_cons] at h
      rw [stripParens, if_neg (fun h' => h h'.2.1), ih h]

/-- Everything from the first parenthesis on is stripped. -/
theorem stripParens_append {a b : List ℕ} (ha : unit '(' ∉ a) (hb : b.getLast? = some (unit ')'))
    (hline : ∀ d ∈ b, isLineEnd d = false) : stripParens (a ++ unit '(' :: b) = a := by
  induction a with
  | nil => exact if_pos ⟨rfl, hb, hline⟩
  | cons c a ih =>
    obtain ⟨hc, ha⟩ := not_or.mp (mt List.mem_cons.mpr ha)
    rw [List.cons_append, stripParens, if_neg (fun h => hc h.1.symm), ih ha]

theorem fromSegments_append {name v : List ℕ} (hv : unit '/' ∉ v) (hdigit : startsWithDigit v = true) :
    fromSegments (name ++ unit '/' :: v) = some ⟨name, v⟩ := by
  have hsegs : (name ++ unit '/' :: v).splitOn (unit '/') = name.splitOn (unit '/') ++ [v] := by
    rw [List.splitOn_eq_splitOnP, List.splitOnP_append_cons _ _ (by simp), ← List.splitOn_eq_splitOnP,
      ← List.splitOn_eq_splitOnP, splitOn_eq_singleton_iff.mpr ⟨rfl, hv⟩]
  have hlen : 2 ≤ (name.splitOn (unit '/') ++ [v]).length := by
    have := List.length_pos_of_ne_nil (List.splitOn_ne_nil (unit '/') name)
    simp only [List.length_append, List.length_singleton]
    omega
  simp only [fromSegments, hsegs, List.getLast?_append, List.getLast?_singleton, Option.some_or, Option.getD_some,
    hdigit, hlen, List.dropLast_concat, and_self, if_true, List.intercalate_splitOn]

theorem parseStripped_at {name v : List ℕ} (hname : name ≠ []) (hv : unit '@' ∉ v)
    (hdigit : startsWithDigit v = true) : parseStripped (name ++ unit '@' :: v) = some ⟨name, v⟩ := by
  obtain ⟨c, cs, rfl⟩ := List.exists_cons_of_ne_nil hname
  rw [parseStripped, lastIndexOf_append_cons hv, List.length_cons]
  have hdrop : (c :: cs ++ unit '@' :: v).drop (cs.length + 2) = v := by
    simp [List.drop_append]
  have htake : (c :: cs ++ unit '@' :: v).take (cs.length + 1) = c :: cs := by
    simp
  simp only [hdrop, htake, hdigit, if_true]

/-- Neither a name nor the scope of one is taken for a version. -/
theorem parseStripped_slash (n : PackageName) (v : FullVersion) :
    parseStripped (n.text ++ unit '/' :: v.text) = some ⟨n.text, v.text⟩ := by
  have hat : unit '@' ∉ v.text := not_mem_of_versionUnits (isVersionUnit_text v) rfl
  have hslash : unit '/' ∉ v.text := not_mem_of_versionUnits (isVersionUnit_text v) rfl
  obtain ⟨c, cs, hn, -, hcs, -⟩ := n.text_eq_cons
  rw [parseStripped, hn]
  have hrest : unit '@' ∉ cs ++ unit '/' :: v.text := by
    simp only [List.mem_append, List.mem_cons, not_or]
    exact ⟨hcs, by decide, hat⟩
  by_cases hc : c = unit '@'
  · subst hc
    have hzero := lastIndexOf_append_cons hrest []
    rw [List.nil_append, List.length_nil] at hzero
    rw [List.cons_append, hzero]
    exact @fromSegments_append (unit '@' :: cs) v.text hslash (startsWithDigit_text v)
  · have hnone : lastIndexOf (unit '@') (c :: cs ++ unit '/' :: v.text) = none :=
      lastIndexOf_eq_none fun h => (List.mem_cons.mp h).elim (fun h => hc h.symm) hrest
    rw [hnone]
    exact fromSegments_append hslash (startsWithDigit_text v)

/-- The first parts, joined, are a prefix of all of them. -/
theorem intercalate_prefix (sep : List ℕ) (xs ys : List (List ℕ)) :
    sep.intercalate xs <+: sep.intercalate (xs ++ ys) := by
  induction xs with
  | nil => exact List.nil_prefix
  | cons x xs ih =>
    rcases xs with _ | ⟨x', xs⟩
    · rcases ys with _ | ⟨y, ys⟩
      · exact List.prefix_refl _
      · rw [List.intercalate_singleton, List.singleton_append, List.intercalate_cons_cons, List.append_assoc]
        exact List.prefix_append _ _
    · rw [List.cons_append, List.cons_append, List.intercalate_cons_cons, List.intercalate_cons_cons]
      exact (List.prefix_append_right_inj _).mpr ih

/-- A name that is read is a part of the key. -/
theorem length_name_le {k : List ℕ} {p : InstalledPackage} (h : parseStripped k = some p) :
    p.name.length ≤ k.length := by
  have hsegments : fromSegments k = some p → p.name.length ≤ k.length := by
    intro h
    simp only [fromSegments] at h
    split at h
    · have hsegs := List.dropLast_concat_getLast (List.splitOn_ne_nil (unit '/') k)
      have hprefix := intercalate_prefix [unit '/'] (k.splitOn (unit '/')).dropLast
        [(k.splitOn (unit '/')).getLast (List.splitOn_ne_nil _ _)]
      rw [hsegs, List.intercalate_splitOn] at hprefix
      rw [← Option.some.inj h]
      exact hprefix.length_le
    · cases h
  unfold parseStripped at h
  split at h
  · split at h
    · rw [← Option.some.inj h]
      exact List.length_take_le' _ _
    · exact hsegments h
  · exact hsegments h

/-! ## Peers -/

theorem Peers.isLineEnd_text (peers : Peers) : ∀ c ∈ peers.text, isLineEnd c = false := by
  induction peers with
  | nil => exact fun c hc => (nomatch hc)
  | cons n v nested rest hnested hrest =>
    simp only [Peers.text, atVersion, List.forall_mem_cons, List.forall_mem_append]
    exact ⟨rfl, ⟨n.isLineEnd_text, rfl, fun c hc => isLineEnd_of_isVersionUnit (isVersionUnit_text v c hc)⟩,
      hnested, rfl, hrest⟩

/-- Peers begin and end with a parenthesis. -/
theorem Peers.text_eq {peers : Peers} (h : peers ≠ .nil) :
    ∃ b, peers.text = unit '(' :: b ∧ b.getLast? = some (unit ')') := by
  induction peers with
  | nil => exact absurd rfl h
  | cons n v nested rest _ ih =>
    refine ⟨_, rfl, ?_⟩
    rcases rest with _ | ⟨n', v', nested', rest'⟩
    · simp [Peers.text]
    · obtain ⟨b, hb, hlast⟩ := ih (by simp)
      have hne : b ≠ [] := by
        rintro rfl
        cases hlast
      rw [hb]
      simp [List.getLast?_append, List.getLast?_cons_of_ne_nil hne, hlast]

/-- A key that ends with a version has no parentheses to strip. -/
theorem stripParens_version (l : List ℕ) (c : ℕ) (v : FullVersion) :
    stripParens (l ++ c :: v.text) = l ++ c :: v.text := by
  apply stripParens_of_getLast?
  rw [← List.singleton_append, ← List.append_assoc, List.getLast?_append_of_ne_nil _ (text_ne_nil v)]
  exact fun h => not_mem_of_versionUnits (isVersionUnit_text v) rfl (List.mem_of_getLast? h)

/-! ## Keys that are read -/

/-- Behind a name that has a parenthesis itself, peers are not told from the name. -/
theorem parse_peers (n : PackageName) (v : FullVersion) (peers : Peers) :
    parseStripped (stripParens (atVersion n.text v ++ peers.text)) = some ⟨n.text, v.text⟩ ↔
      (unit '(' ∈ n.text → peers = .nil) := by
  have hat : unit '@' ∉ v.text := not_mem_of_versionUnits (isVersionUnit_text v) rfl
  have hname : n.text ≠ [] := by
    obtain ⟨c, cs, hn, -⟩ := n.text_eq_cons
    exact hn ▸ List.cons_ne_nil c cs
  have hread : parseStripped (atVersion n.text v) = some ⟨n.text, v.text⟩ :=
    parseStripped_at hname hat (startsWithDigit_text v)
  by_cases hpeers : peers = .nil
  · subst hpeers
    rw [Peers.text, List.append_nil, atVersion, stripParens_version, ← atVersion]
    exact ⟨fun _ _ => rfl, fun _ => hread⟩
  · obtain ⟨b, hb, hlast⟩ := Peers.text_eq hpeers
    have hline : ∀ c ∈ b, isLineEnd c = false := fun c hc =>
      peers.isLineEnd_text c (hb ▸ List.mem_cons_of_mem _ hc)
    rw [hb]
    by_cases hparen : unit '(' ∈ n.text
    · -- What is left of the key is shorter than the name.
      obtain ⟨p, q, hn, hp⟩ := List.eq_append_cons_of_mem hparen
      have hkey : atVersion n.text v ++ unit '(' :: b =
          p ++ unit '(' :: (q ++ unit '@' :: (v.text ++ unit '(' :: b)) := by
        simp [atVersion, hn]
      have hstrip : stripParens (atVersion n.text v ++ unit '(' :: b) = p := by
        rw [hkey]
        apply stripParens_append hp
        · simp [List.getLast?_append, List.getLast?_cons, hlast]
        · simp only [List.forall_mem_append, List.forall_mem_cons]
          have hq : ∀ c ∈ q, isLineEnd c = false := fun c hc => n.isLineEnd_text c (by simp [hn, hc])
          exact ⟨hq, rfl, fun c hc => isLineEnd_of_isVersionUnit (isVersionUnit_text v c hc), rfl, hline⟩
      rw [hstrip]
      refine ⟨fun h => ?_, fun h => absurd (h hparen) hpeers⟩
      have := length_name_le h
      rw [hn] at this
      simp at this
    · have hstrip : stripParens (atVersion n.text v ++ unit '(' :: b) = atVersion n.text v := by
        refine stripParens_append ?_ hlast hline
        simp only [atVersion, List.mem_append, List.mem_cons, not_or]
        exact ⟨hparen, by decide, not_mem_of_versionUnits (isVersionUnit_text v) rfl⟩
      rw [hstrip]
      exact ⟨fun _ h => absurd h hparen, fun _ => hread⟩

/-- The last peer of the first format ends with its version. -/
theorem peerSuffix_eq {peers : List (PackageName × FullVersion)} (h : peers ≠ []) :
    ∃ (pre : List ℕ) (w : FullVersion), peerSuffix peers = pre ++ unit '@' :: w.text := by
  have hjoin : ∀ peers : List (PackageName × FullVersion), peers ≠ [] → ∃ (pre : List ℕ) (w : FullVersion),
      [unit '+'].intercalate (peers.map fun p => atVersion (p.1.join (unit '+')) p.2) =
        pre ++ unit '@' :: w.text := by
    intro peers h
    induction peers with
    | nil => exact absurd rfl h
    | cons p peers ih =>
      rcases peers with _ | ⟨p', peers⟩
      · exact ⟨_, p.2, List.intercalate_singleton⟩
      · obtain ⟨pre, w, hrest⟩ := ih (List.cons_ne_nil p' peers)
        rw [List.map_cons] at hrest
        rw [List.map_cons, List.map_cons, List.intercalate_cons_cons, hrest]
        exact ⟨_, w, (List.append_assoc _ pre _).symm⟩
  obtain ⟨pre, w, hjoin⟩ := hjoin peers h
  rw [peerSuffix, if_neg h, hjoin]
  exact ⟨unit '_' :: pre, w, rfl⟩

/-- A key is read as the package it names, unless it is of the first format and has peers, or has peers behind a name
with a parenthesis. -/
theorem reads_iff (key : LockKey) : parsePkgKey key.text = some key.package ↔ key.Readable := by
  cases key with
  | v5 n v peers =>
    show parseStripped (stripParens (n.text ++ unit '/' :: (v.text ++ peerSuffix peers))) = some ⟨n.text, v.text⟩ ↔ _
    rw [LockKey.Readable]
    by_cases hpeers : peers = []
    · subst hpeers
      rw [peerSuffix, if_pos rfl, List.append_nil, stripParens_version, parseStripped_slash]
      exact ⟨fun _ => rfl, fun _ => rfl⟩
    · obtain ⟨pre, w, hsuffix⟩ := peerSuffix_eq hpeers
      have hkey : n.text ++ unit '/' :: (v.text ++ peerSuffix peers) =
          (n.text ++ unit '/' :: (v.text ++ pre)) ++ unit '@' :: w.text := by
        simp [hsuffix]
      -- The name reaches up to the version of the last peer.
      rw [hkey, stripParens_version, parseStripped_at (by simp) (not_mem_of_versionUnits (isVersionUnit_text w) rfl)
        (startsWithDigit_text w)]
      refine ⟨fun h => ?_, fun h => absurd h hpeers⟩
      have hname := congrArg List.length (InstalledPackage.mk.inj (Option.some.inj h)).1
      simp at hname
  | v6 n v peers => exact parse_peers n v peers
  | v9 n v peers =>
    obtain ⟨c, cs, hn, hc, -⟩ := n.text_eq_cons
    have hslash : stripSlash (atVersion n.text v ++ peers.text) = atVersion n.text v ++ peers.text := by
      rw [stripSlash, atVersion, hn]
      exact if_neg fun h => hc (Option.some.inj h)
    show parseStripped (stripParens (stripSlash (atVersion n.text v ++ peers.text))) = some ⟨n.text, v.text⟩ ↔ _
    rw [hslash]
    exact parse_peers n v peers

/-- A release without tags. -/
private def plainVersion (a b c : ℕ) : FullVersion :=
  { major := .ofNat a, minor := .ofNat b, patch := .ofNat c, tag := [], build := [] }

/-- A package with a peer, in the first format. -/
private def fooWithPeer : LockKey :=
  .v5 { scope := none, base := ⟨units "foo", by decide⟩ } (plainVersion 1 0 0)
    [({ scope := none, base := ⟨units "react", by decide⟩ }, plainVersion 17 0 2)]

/-- The peer is read into the name, and its version as that of the package. -/
theorem peer_misread : ∃ key : LockKey, key.text = units "/foo/1.0.0_react@17.0.2" ∧
    parsePkgKey key.text = some ⟨units "foo/1.0.0_react", units "17.0.2"⟩ ∧
      parsePkgKey key.text ≠ some key.package := by
  refine ⟨fooWithPeer, ?_, ?_, ?_⟩ <;> decide +kernel

example : parsePkgKey (units "@babel/core@7.24.0-beta.1+build(react@18.2.0(x@1.0.0))") =
    some ⟨units "@babel/core", units "7.24.0-beta.1+build"⟩ := by decide +kernel

end MontrSecure.Lockfile
