import Mathlib.Data.List.Lex
import Mathlib.Data.Prod.Lex
import Mathlib.Data.Sum.Order
import Mathlib.Order.Bounds.Basic
import Mathlib.Order.WithBot
import MontrSecure.Js.Decimals
import MontrSecure.Text.Splitting

/-!
# Versions and ranges

`packages/discovery/src/semver.ts`: the numeric core of a version, and whether it satisfies a range. A text is looked
at as code units. A component is a number that was read from digits: a finite double, or infinity.
-/

namespace MontrSecure.Semver

open Text

/-- `SemVer`; a component without a value is infinite. -/
structure SemVer where
  major : Option ℚ
  minor : Option ℚ
  patch : Option ℚ
  deriving DecidableEq

/-- A point and digits after it, and what follows them. -/
def dotted : List ℕ → Option (List ℕ) × List ℕ
  | [] => (none, [])
  | c :: cs =>
    if c = unit '.' ∧ cs.takeWhile isDecimal ≠ [] then (some (cs.takeWhile isDecimal), cs.dropWhile isDecimal)
    else (none, c :: cs)

/-- `coerce`. -/
def coerce (version : List ℕ) : Option SemVer :=
  let text := (trimUnits version).dropWhile fun c => !isDecimal c
  if text = [] then none
  else
    let minor := dotted (text.dropWhile isDecimal)
    let patch := dotted minor.2
    some {
      major := numberOf (text.takeWhile isDecimal)
      minor := numberOf (minor.1.getD (units "0"))
      patch := numberOf (patch.1.getD (units "0")) }

/-- The sign of `a - b`, and of what is taken instead where that is zero or no number. -/
def compareNumbers : Option ℚ → Option ℚ → Ordering
  | none, none => .eq
  | none, some _ => .gt
  | some _, none => .lt
  | some a, some b => if a < b then .lt else if b < a then .gt else .eq

/-- `compare`. -/
def compare (a b : SemVer) : Ordering :=
  (compareNumbers a.major b.major).then ((compareNumbers a.minor b.minor).then (compareNumbers a.patch b.patch))

/-- How whole numbers from 10^21 on are written. -/
abbrev LargeText : Type := ℕ → List ℕ

variable (large : LargeText)

/-- `String(n)` for a component. -/
def numberText : Option ℚ → List ℕ
  | none => units "Infinity"
  | some q => if q.num.toNat < 10 ^ 21 then units (toString q.num.toNat) else large q.num.toNat

/-- `n + 1`. -/
def addOne (n : Option ℚ) : Option ℚ := n.bind fun q => toDouble (q + 1)

/-- A comparator and the components of its version. -/
def comparatorText (op : String) (a b c : Option ℚ) : List ℕ :=
  units op ++ numberText large a ++ units "." ++ numberText large b ++ units "." ++ numberText large c

/-- `n > 0`. -/
def isPositive : Option ℚ → Bool
  | none => true
  | some q => 0 < q

/-- `expandToken`. -/
def expandToken (tok : List ℕ) : List ℕ :=
  if tok.head? = some (unit '^') then
    match coerce tok.tail with
    | none => tok
    | some s =>
      let upper :=
        if isPositive s.major then comparatorText large "<" (addOne s.major) (some 0) (some 0)
        else if isPositive s.minor then comparatorText large "<" (some 0) (addOne s.minor) (some 0)
        else comparatorText large "<" (some 0) (some 0) (addOne s.patch)
      comparatorText large ">=" s.major s.minor s.patch ++ units " " ++ upper
  else if tok.head? = some (unit '~') then
    match coerce tok.tail with
    | none => tok
    | some s =>
      comparatorText large ">=" s.major s.minor s.patch ++ units " " ++
        comparatorText large "<" s.major (addOne s.minor) (some 0)
  else tok

/-- The operators of comparators. -/
inductive Op where
  | ge
  | le
  | gt
  | lt
  | eq
  deriving DecidableEq

/-- An operator at the beginning of a comparator, and the rest of it, which is not empty. -/
def readOp (c : List ℕ) : Op × List ℕ :=
  if (units ">=").isPrefixOf c ∧ 2 < c.length then (.ge, c.drop 2)
  else if (units "<=").isPrefixOf c ∧ 2 < c.length then (.le, c.drop 2)
  else if (units ">").isPrefixOf c ∧ 1 < c.length then (.gt, c.drop 1)
  else if (units "<").isPrefixOf c ∧ 1 < c.length then (.lt, c.drop 1)
  else if (units "=").isPrefixOf c ∧ 1 < c.length then (.eq, c.drop 1)
  else (.eq, c)

/-- What an operator says of a comparison. -/
def Op.holds : Op → Ordering → Bool
  | gt, cmp => cmp = .gt
  | ge, cmp => cmp ≠ .lt
  | lt, cmp => cmp = .lt
  | le, cmp => cmp ≠ .gt
  | eq, cmp => cmp = .eq

/-- `satisfiesComparator`; a comparator has no white space. -/
def satisfiesComparator (v : SemVer) (comparator : List ℕ) : Bool :=
  let c := trimUnits comparator
  if c = [] ∨ c = units "*" ∨ c = units "x" ∨ c = units "X" then true
  else
    match coerce (readOp c).2 with
    | none => false
    | some target => (readOp c).1.holds (compare v target)

/-- `split(/\s+/)`, without empty texts. -/
def words (text : List ℕ) : List (List ℕ) := runs isSpace text

/-- `satisfiesGroup`. -/
def satisfiesGroup (v : SemVer) (group : List ℕ) : Bool :=
  let trimmed := trimUnits group
  if trimmed = [] ∨ trimmed = units "*" then true
  else (words ((units " ").intercalate ((words trimmed).map (expandToken large)))).all (satisfiesComparator v)

/-- `split("||")`. -/
def splitOr : List ℕ → List (List ℕ)
  | [] => [[]]
  | [c] => [[c]]
  | c :: d :: cs =>
    if c = unit '|' ∧ d = unit '|' then [] :: splitOr cs else (splitOr (d :: cs)).modifyHead (c :: ·)

/-- `satisfies`. -/
def satisfies (version range : String) : Bool :=
  match coerce (units version) with
  | none => false
  | some v =>
    let r := trimUnits (units range)
    if r = [] ∨ r = units "*" then true else (splitOr r).any (satisfiesGroup large v)

example : [("1.14.9", ">=1.0.0 <1.15.1 || <0.31.1"), ("0.31.0", ">=1.0.0 <1.15.1 || <0.31.1"), ("1.4.2", "^1.2"),
    ("1.2.9", "~1.2.3"), ("3.0.0-beta", "x")].all (fun p => satisfies (fun _ => []) p.1 p.2) = true := by decide +kernel

example : [("1.15.1", ">=1.0.0 <1.15.1 || <0.31.1"), ("2.0.0", "^1.2"), ("1.3.0", "~1.2.3"), ("1.2.4", ">= 1.2.3")].any
    (fun p => satisfies (fun _ => []) p.1 p.2) = false := by decide +kernel

end MontrSecure.Semver

/-!
## Versions that lie in a range

The grammar of versions and ranges and what it means by the precedence of versions, tags of prereleases included. A
comparator is read whole when its operator stands directly before a pattern that is not open, the pattern is a version
where versions above it are excluded, and no component is missing after zeros in front, or the first behind `~`.
-/

namespace MontrSecure.Semver

open Text

/-! ## Versions -/

/-- A component as it is written. -/
abbrev Numeral : Type := { digits : List ℕ // IsNumeral digits }

def Numeral.value (n : Numeral) : ℕ := decimalValue n.1

def Numeral.ofNat (n : ℕ) : Numeral := ⟨units (toString n), isNumeral_toString n⟩

/-- A digit, a letter or a hyphen. -/
def isIdentifierUnit (c : ℕ) : Bool :=
  isDecimal c || (unit 'A' ≤ c && c ≤ unit 'Z') || (unit 'a' ≤ c && c ≤ unit 'z') || c = unit '-'

/-- An identifier of a prerelease. -/
abbrev Identifier : Type := { text : List ℕ // text ≠ [] ∧ ∀ c ∈ text, isIdentifierUnit c = true }

/-- Identifiers of digits only are numbers, and lie below the others. -/
def Identifier.rank (i : Identifier) : ℕ ⊕ₗ List ℕ :=
  if IsNumeral i.1 then Sum.inlₗ (decimalValue i.1) else Sum.inrₗ i.1

/-- A version; without identifiers it is a release. -/
structure Version where
  major : Numeral
  minor : Numeral
  patch : Numeral
  tag : List Identifier

/-- How versions are ordered: a release lies above its prereleases. -/
abbrev Precedence : Type := ℕ ×ₗ ℕ ×ₗ ℕ ×ₗ WithTop (List (ℕ ⊕ₗ List ℕ))

/-- A release. -/
def core (a b c : ℕ) : Precedence := toLex (a, toLex (b, toLex (c, ⊤)))

namespace Version

def tagText (tag : List Identifier) : List ℕ :=
  if tag = [] then [] else units "-" ++ (units ".").intercalate (tag.map (·.1))

def text (v : Version) : List ℕ := v.major.1 ++ (units "." ++ v.minor.1 ++ (units "." ++ v.patch.1 ++ tagText v.tag))

def precedence (v : Version) : Precedence :=
  toLex (v.major.value, toLex (v.minor.value, toLex (v.patch.value,
    if v.tag = [] then ⊤ else ((v.tag.map Identifier.rank : List (ℕ ⊕ₗ List ℕ)) : WithTop (List (ℕ ⊕ₗ List ℕ))))))

def dropTag (v : Version) : Version := { v with tag := [] }

def numerals (v : Version) : List Numeral := [v.major, v.minor, v.patch]

end Version

/-! ## Ranges -/

/-- A component that is left open. -/
inductive Wild where
  | star
  | lower
  | upper

def Wild.unit : Wild → ℕ
  | star => Text.unit '*'
  | lower => Text.unit 'x'
  | upper => Text.unit 'X'

/-- Open components behind the others, at most `n`. -/
abbrev Wilds (n : ℕ) : Type := { ws : List Wild // ws.length ≤ n }

def wildsText (ws : List Wild) : List ℕ := ws.flatMap fun w => [unit '.', w.unit]

/-- A version of a range, whole or in part. -/
inductive Pattern where
  | full (v : Version)
  | minor (a b : Numeral) (ws : Wilds 1)
  | major (a : Numeral) (ws : Wilds 2)
  | any (w : Wild) (ws : Wilds 2)

namespace Pattern

def text : Pattern → List ℕ
  | full v => v.text
  | minor a b ws => a.1 ++ (units "." ++ b.1 ++ wildsText ws.1)
  | major a ws => a.1 ++ wildsText ws.1
  | any w ws => w.unit :: wildsText ws.1

def numerals : Pattern → List Numeral
  | full v => v.numerals
  | minor a b _ => [a, b]
  | major a _ => [a]
  | any _ _ => []

/-- The numbers are small enough to be read exactly. -/
def IsSafe (p : Pattern) : Prop := ∀ n ∈ p.numerals, n.value < 2 ^ 53

def dropTag : Pattern → Pattern
  | full v => full v.dropTag
  | p => p

/-- The versions that a pattern stands for. -/
def versions : Pattern → Set Precedence
  | full v => {v.precedence}
  | minor a b _ => Set.Ico (core a.value b.value 0) (core a.value (b.value + 1) 0)
  | major a _ => Set.Ico (core a.value 0 0) (core (a.value + 1) 0 0)
  | any _ _ => Set.univ

/-- `^`: no change of the leftmost component that is not zero. -/
def caret : Pattern → Set Precedence
  | full v =>
    if 0 < v.major.value then Set.Ico v.precedence (core (v.major.value + 1) 0 0)
    else if 0 < v.minor.value then Set.Ico v.precedence (core 0 (v.minor.value + 1) 0)
    else Set.Ico v.precedence (core 0 0 (v.patch.value + 1))
  | minor a b _ =>
    if 0 < a.value then Set.Ico (core a.value b.value 0) (core (a.value + 1) 0 0)
    else Set.Ico (core 0 b.value 0) (core 0 (b.value + 1) 0)
  | p => p.versions

/-- `~`: no change of the minor component, where there is one. -/
def tilde : Pattern → Set Precedence
  | full v => Set.Ico v.precedence (core v.major.value (v.minor.value + 1) 0)
  | p => p.versions

end Pattern

namespace Op

def text : Op → List ℕ
  | ge => units ">="
  | le => units "<="
  | gt => units ">"
  | lt => units "<"
  | eq => units "="

/-- What an operator says of a version and those that a pattern stands for. -/
def Admits : Op → Set Precedence → Precedence → Prop
  | ge, s, v => ∃ w ∈ s, w ≤ v
  | le, s, v => ∃ w ∈ s, v ≤ w
  | gt, s, v => ∀ w ∈ s, w < v
  | lt, s, v => ∀ w ∈ s, v < w
  | eq, s, v => v ∈ s

end Op

/-- White space, or nothing. -/
abbrev Gap : Type := { text : List ℕ // ∀ c ∈ text, isSpace c = true }

/-- A comparator of a range. -/
inductive Comparator where
  | bare (p : Pattern)
  | op (o : Op) (gap : Gap) (p : Pattern)
  | caret (p : Pattern)
  | tilde (p : Pattern)

namespace Comparator

def text : Comparator → List ℕ
  | bare p => p.text
  | op o gap p => o.text ++ gap.1 ++ p.text
  | caret p => units "^" ++ p.text
  | tilde p => units "~" ++ p.text

def pattern : Comparator → Pattern
  | bare p => p
  | op _ _ p => p
  | caret p => p
  | tilde p => p

def dropTag : Comparator → Comparator
  | bare p => bare p.dropTag
  | op o gap p => op o gap p.dropTag
  | caret p => caret p.dropTag
  | tilde p => tilde p.dropTag

/-- The versions that a comparator is about. -/
def Admits (v : Precedence) : Comparator → Prop
  | bare p => v ∈ p.versions
  | op o _ p => o.Admits p.versions v
  | caret p => v ∈ p.caret
  | tilde p => v ∈ p.tilde

/-- The comparator is read whole. -/
def IsRead : Comparator → Prop
  | bare (.full _) => True
  | bare (.any _ ws) => ws.1 = []
  | bare _ => False
  | op .ge gap p => gap.1 = [] ∧ p.numerals ≠ []
  | op .gt gap _ => gap.1 = []
  | op .lt gap _ => gap.1 = []
  | op _ gap (.full _) => gap.1 = []
  | op _ _ _ => False
  | caret (.full _) => True
  | caret (.minor a b _) => 0 < a.value ∨ 0 < b.value
  | caret (.major a _) => 0 < a.value
  | caret (.any _ _) => False
  | tilde (.full _) => True
  | tilde (.minor _ _ _) => True
  | tilde _ => False

end Comparator

/-- Comparators that hold together, white space before each and behind the last. -/
structure Group where
  comparators : List (Gap × Comparator)
  trailing : Gap
  separated : ∀ p ∈ comparators.tail, p.1.1 ≠ []

namespace Group

variable (g : Group)

def text : List ℕ := g.comparators.flatMap (fun p => p.1.1 ++ p.2.text) ++ g.trailing.1

def Admits (v : Version) : Prop := ∀ p ∈ g.comparators, p.2.Admits v.precedence

/-- The comparators admit the version, all without tags. -/
def AdmitsCore (v : Version) : Prop := ∀ p ∈ g.comparators, p.2.dropTag.Admits v.dropTag.precedence

/-- Every comparator is read whole, and every number exactly. -/
def IsRead : Prop := ∀ p ∈ g.comparators, p.2.IsRead ∧ p.2.pattern.IsSafe

end Group

/-- Groups of which one holds. -/
abbrev Range : Type := { groups : List Group // groups ≠ [] }

namespace Range

variable (r : Range)

def text : List ℕ := (units "||").intercalate (r.1.map Group.text)

/-- The version lies in the range. -/
def Contains (v : Version) : Prop := ∃ g ∈ r.1, g.Admits v

end Range

end MontrSecure.Semver
