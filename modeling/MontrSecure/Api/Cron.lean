import Mathlib.Data.Finset.Interval
import Mathlib.Order.Interval.Finset.Nat
import MontrSecure.Js.Decimals

/-!
# Cron expressions

The evaluator of `apps/api/src/routes/schedules.ts`: five or six fields, each a list of terms. A text is looked
at as code units; what is thrown is the text of its error.
-/

namespace MontrSecure

open Text

/-- `CronFields`. -/
structure CronFields where
  hasSeconds : Bool
  second : Finset ℕ
  minute : Finset ℕ
  hour : Finset ℕ
  dom : Finset ℕ
  month : Finset ℕ
  dow : Finset ℕ
  domRestricted : Bool
  dowRestricted : Bool

/-- `MONTH_NAMES`. -/
def monthNames : List (String × ℕ) :=
  [("jan", 1), ("feb", 2), ("mar", 3), ("apr", 4), ("may", 5), ("jun", 6), ("jul", 7), ("aug", 8), ("sep", 9),
    ("oct", 10), ("nov", 11), ("dec", 12)]

/-- `DOW_NAMES`. -/
def dowNames : List (String × ℕ) :=
  [("sun", 0), ("mon", 1), ("tue", 2), ("wed", 3), ("thu", 4), ("fri", 5), ("sat", 6)]

/-- `toLowerCase`, as far as the letters of the names go. -/
def lowerUnits (token : List ℕ) : List ℕ := token.map fun c => if isUpper c then c + 0x20 else c

/-- The number of a name. -/
def nameValue? (names : List (String × ℕ)) (token : List ℕ) : Option ℕ :=
  (names.find? fun name => units name.1 = lowerUnits token).map (·.2)

/-- `resolveNames`; without names the token stays. -/
def resolveNames (names : List (String × ℕ)) (token : List ℕ) : List ℕ :=
  match nameValue? names token with
  | some n => units (toString n)
  | none => token

/-- `Number(token)`, where it is an integer. -/
def integerOf (token : List ℕ) : Option ℤ := (numberOf token).bind fun q => if q.den = 1 then some q.num else none

/-- The values of the loop from `lo` to `hi`. -/
def valuesFrom (lo hi step : ℕ) : Finset ℕ := ((List.range ((hi - lo) / step + 1)).map fun k => lo + k * step).toFinset

section Field

variable (field : List ℕ) (min max : ℕ) (names : List (String × ℕ))

/-- The step of a term, which is 1 where there is none. -/
def parseStep : Option (List ℕ) → Except (List ℕ) ℕ
  | none => .ok 1
  | some stepToken =>
    match integerOf stepToken with
    | some step =>
      if 0 < step then .ok step.toNat else .error (units "invalid step \"" ++ stepToken ++ units "\"")
    | none => .error (units "invalid step \"" ++ stepToken ++ units "\"")

/-- The ends of the range of a term, where they are integers. -/
def parseRange (rangeToken : List ℕ) (stepped : Bool) : Except (List ℕ) (Option ℤ × Option ℤ) :=
  if rangeToken = [unit '*'] then .ok (some min, some max)
  else if unit '-' ∈ rangeToken then
    match rangeToken.splitOn (unit '-') with
    | [a, b] => .ok (integerOf (resolveNames names a), integerOf (resolveNames names b))
    | _ => .error (units "invalid range \"" ++ rangeToken ++ units "\"")
  else
    let lo := integerOf (resolveNames names rangeToken)
    .ok (lo, if stepped then some max else lo)

/-- The values of a term that is split at its slash. -/
def parseSplitTerm (part rangeToken : List ℕ) (stepToken : Option (List ℕ)) : Except (List ℕ) (Finset ℕ) := do
  let step ← parseStep stepToken
  let range ← parseRange min max names rangeToken stepToken.isSome
  match range with
  | (some lo, some hi) =>
    if lo < min ∨ max < hi ∨ hi < lo then
      throw (units "term \"" ++ part ++ units s!"\" out of range [{min}-{max}]")
    return valuesFrom lo.toNat hi.toNat step
  | _ => throw (units "non-integer term \"" ++ part ++ units "\"")

/-- One term of a field. -/
def parseTerm (rawPart : List ℕ) : Except (List ℕ) (Finset ℕ) :=
  let part := trimUnits rawPart
  if part = [] then .error (units "empty term in \"" ++ field ++ units "\"")
  else
    match part.splitOn (unit '/') with
    | [rangeToken] => parseSplitTerm min max names part rangeToken none
    | [rangeToken, stepToken] => parseSplitTerm min max names part rangeToken (some stepToken)
    | _ => .error (units "invalid step in \"" ++ part ++ units "\"")

/-- `parseField`. -/
def parseField : Except (List ℕ) (Finset ℕ) := do
  let sets ← (field.splitOn (unit ',')).mapM (parseTerm field min max names)
  let out := sets.foldl (· ∪ ·) ∅
  if out = ∅ then throw (units "field \"" ++ field ++ units "\" matches nothing")
  return out

end Field

/-- `expr.trim().split(/\s+/).filter(Boolean)`. -/
def cronTokens (expr : String) : List (List ℕ) := ((units expr).splitOnP isSpace).filter (· ≠ [])

/-- The fields of an expression, from their tokens. -/
def parseTokens (hasSeconds : Bool) (secTok minTok hourTok domTok monthTok dowTok : List ℕ) :
    Except (List ℕ) CronFields := do
  let dowRaw ← parseField dowTok 0 7 dowNames
  let second ← parseField secTok 0 59 []
  let minute ← parseField minTok 0 59 []
  let hour ← parseField hourTok 0 23 []
  let dom ← parseField domTok 1 31 []
  let month ← parseField monthTok 1 12 monthNames
  return {
    hasSeconds, second, minute, hour, dom, month
    dow := dowRaw.image fun v => if v = 7 then 0 else v
    domRestricted := decide (domTok ≠ [unit '*'])
    dowRestricted := decide (dowTok ≠ [unit '*']) }

/-- `parseCron`. -/
def parseCron (expr : String) : Except (List ℕ) CronFields :=
  match cronTokens expr with
  | [minTok, hourTok, domTok, monthTok, dowTok] =>
    parseTokens false (units "0") minTok hourTok domTok monthTok dowTok
  | [secTok, minTok, hourTok, domTok, monthTok, dowTok] =>
    parseTokens true secTok minTok hourTok domTok monthTok dowTok
  | tokens => .error (units s!"expected 5 or 6 fields, got {tokens.length}")

/-- `cronIsValid`. -/
def cronIsValid (expr : String) : Bool := (parseCron expr).isOk

example : (["0 0 * * *", "*/15 * * * *", "0 9 * * 1-5", "30 2 1 * *", "0 0 0 * * *", "0 0 * JAN-MAR MON"].map
    cronIsValid) = [true, true, true, true, true, true] := by decide +kernel

example : (["", "* * *", "99 * * * *", "0 0 * * 8", "0 0 * 13 *", "*/0 * * * *", "0 0 L * *"].map cronIsValid) =
    [false, false, false, false, false, false, false] := by decide +kernel

end MontrSecure
