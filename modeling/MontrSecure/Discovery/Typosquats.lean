import MontrSecure.Discovery.LockKeys
import MontrSecure.Text.EditDistance

/-!
# Names that look like popular ones

The typosquat check of `packages/discovery/src/detectors/supply-chain.ts`. The distance of two names is computed row by
row (`levenshtein_eq_editDist`), and names whose lengths are far apart are passed over without it. Neither hides a
name that is near (`detectTyposquats_exact`).
-/

namespace MontrSecure.Discovery

open Text Lockfile

/-! ## The check -/

/-- `POPULAR_NPM_PACKAGES`. -/
def popularNpmPackages : List String :=
  ["react", "react-dom", "vue", "angular", "next", "express", "fastify", "koa", "lodash", "underscore", "axios",
    "node-fetch", "request", "chalk", "commander", "yargs", "inquirer", "webpack", "vite", "rollup", "esbuild",
    "parcel", "babel-core", "@babel/core", "typescript", "eslint", "prettier", "jest", "mocha", "chai", "vitest",
    "moment", "dayjs", "date-fns", "uuid", "dotenv", "cors", "body-parser", "cookie-parser", "jsonwebtoken",
    "bcrypt", "bcryptjs", "mongoose", "sequelize", "prisma", "@prisma/client", "typeorm", "graphql",
    "apollo-server", "socket.io", "ws", "passport", "nodemailer", "multer", "sharp", "puppeteer", "playwright",
    "cheerio", "jsdom", "colors", "figlet", "ora", "table", "csv-parser", "xml2js", "js-yaml", "yaml", "glob",
    "rimraf", "mkdirp", "fs-extra", "chokidar", "nodemon", "pm2", "winston", "pino", "morgan", "helmet", "joi",
    "zod", "yup", "ajv", "validator", "sanitize-html", "dompurify", "marked", "highlight.js", "three", "d3",
    "chart.js", "classnames", "clsx", "styled-components", "tailwindcss", "postcss", "autoprefixer", "sass",
    "less", "gulp", "grunt", "browserify", "core-js", "tslib", "reflect-metadata", "rxjs", "immer", "zustand",
    "redux", "react-redux", "react-router", "react-router-dom", "next-auth", "firebase", "aws-sdk", "stripe",
    "twilio", "openai", "semver", "minimist", "async", "bluebird", "lru-cache", "debug", "ms", "qs", "form-data",
    "content-type", "mime", "mime-types", "ejs", "handlebars", "pug", "compression", "serve-static", "http-proxy",
    "http-proxy-middleware", "ioredis", "redis", "pg", "pg-promise", "mysql", "mysql2", "sqlite3", "knex"]

/-- One step of the inner loop of `levenshtein`. -/
def pushCell (a b prev : List ℕ) (i : ℕ) (cur : List ℕ) (j : ℕ) : List ℕ :=
  let cost := if a[i - 1]? = b[j - 1]? then 0 else 1
  cur ++ [min (prev[j]?.getD 0 + 1) (min (cur[j - 1]?.getD 0 + 1) (prev[j - 1]?.getD 0 + cost))]

/-- One step of the outer loop of `levenshtein`: the row after `prev`. -/
def nextRow (a b prev : List ℕ) (i : ℕ) : List ℕ := (List.range' 1 b.length).foldl (pushCell a b prev i) [i]

/-- `levenshtein`. -/
def levenshtein (a b : List ℕ) : ℕ :=
  if a = b then 0
  else if a.length = 0 then b.length
  else if b.length = 0 then a.length
  else ((List.range' 1 a.length).foldl (nextRow a b) (List.range (b.length + 1)))[b.length]?.getD
    (max a.length b.length)

/-- `distanceThreshold`. -/
def distanceThreshold (len : ℕ) : ℕ := if len ≤ 5 then 1 else if len ≤ 12 then 2 else 3

/-- A popular package and its base name. -/
structure Popular where
  raw : List ℕ
  base : List ℕ

/-- `TyposquatMatch`. -/
structure TyposquatMatch where
  pkg : Lockfile.InstalledPackage
  matchedPopular : List ℕ
  distance : ℕ

variable (toLowerCase : List ℕ → List ℕ)

/-- `basePackageName`. -/
def basePackageName (name : List ℕ) : List ℕ :=
  toLowerCase (if name.head? = some (unit '@') ∧ unit '/' ∈ name then (name.dropWhile (· ≠ unit '/')).tail else name)

/-- `NORMALIZED_POPULAR`. -/
def normalizedPopular : List Popular :=
  popularNpmPackages.map fun p => { raw := units p, base := basePackageName toLowerCase (units p) }

/-- One step of the loop over the popular packages. -/
def consider (pkg : Lockfile.InstalledPackage) (base : List ℕ) (best : Option TyposquatMatch) (popular : Popular) :
    Option TyposquatMatch :=
  if 3 < ((popular.base.length : ℤ) - base.length).natAbs then best
  else
    let d := levenshtein base popular.base
    if d = 0 then best
    else if d ≤ distanceThreshold base.length ∧ best.all (d < ·.distance) then
      some { pkg, matchedPopular := popular.raw, distance := d }
    else best

/-- One step of the loop over the packages. -/
def matchPackage (pkg : Lockfile.InstalledPackage) : Option TyposquatMatch :=
  let base := basePackageName toLowerCase pkg.name
  let popularBaseSet := (normalizedPopular toLowerCase).map (·.base)
  if popularBaseSet.contains base then none
  else if base.length < 3 ∨ 40 < base.length then none
  else (normalizedPopular toLowerCase).foldl (consider pkg base) none

/-- `detectTyposquats`. -/
def detectTyposquats (packages : List Lockfile.InstalledPackage) : List TyposquatMatch :=
  packages.filterMap (matchPackage toLowerCase)

/-! ## The table -/

section Table

variable (a b : List ℕ)

/-- The distance of two prefixes; the characters they end with come first. -/
def cell (i j : ℕ) : ℕ := editDist (a.take i).reverse (b.take j).reverse

variable {a b}

theorem cell_zero_left {j : ℕ} (hj : j ≤ b.length) : cell a b 0 j = j := by
  rw [cell, List.take_zero, List.reverse_nil, editDist, List.length_reverse, List.length_take_of_le hj]

theorem cell_zero_right {i : ℕ} (hi : i ≤ a.length) : cell a b i 0 = i := by
  rw [cell, List.take_zero, List.reverse_nil, editDist_nil_right, List.length_reverse, List.length_take_of_le hi]

theorem cell_succ {i j : ℕ} (hi : i < a.length) (hj : j < b.length) : cell a b (i + 1) (j + 1) =
    min (cell a b i (j + 1) + 1) (min (cell a b (i + 1) j + 1) (cell a b i j + if a[i]? = b[j]? then 0 else 1)) := by
  have hlast : ∀ {l : List ℕ} {k : ℕ} (hk : k < l.length), (l.take (k + 1)).reverse = l[k] :: (l.take k).reverse := by
    intro l k hk
    rw [List.take_succ_eq_append_getElem hk, List.reverse_concat]
  simp only [cell, hlast hi, hlast hj, editDist_cons_cons, List.getElem?_eq_getElem hi, List.getElem?_eq_getElem hj,
    Option.some_inj]

/-- The row of the table for a prefix of the first text. -/
def row (a b : List ℕ) (i n : ℕ) : List ℕ := (List.range n).map (cell a b i)

theorem getElem?_row {i n j : ℕ} (hj : j < n) : (row a b i n)[j]? = some (cell a b i j) := by
  rw [row, List.getElem?_map, List.getElem?_range hj, Option.map_some]

/-- The inner loop fills the next row from the one before it. -/
theorem foldl_pushCell {i : ℕ} (hi : i < a.length) {n : ℕ} (hn : n ≤ b.length) :
    (List.range' 1 n).foldl (pushCell a b (row a b i (b.length + 1)) (i + 1)) [i + 1] = row a b (i + 1) (n + 1) := by
  induction n with
  | zero =>
    show [i + 1] = [cell a b (i + 1) 0]
    rw [cell_zero_right hi]
  | succ n ih =>
    rw [List.range'_concat, List.foldl_append, ih (by omega), List.foldl_cons, List.foldl_nil, pushCell]
    have hindex : 1 + 1 * n = n + 1 := by omega
    rw [hindex, Nat.add_sub_cancel, Nat.add_sub_cancel, getElem?_row (by omega), getElem?_row (by omega),
      getElem?_row (by omega), Option.getD_some, Option.getD_some, Option.getD_some, ← cell_succ hi (by omega)]
    show row a b (i + 1) (n + 1) ++ [cell a b (i + 1) (n + 1)] = (List.range (n + 1 + 1)).map (cell a b (i + 1))
    rw [List.range_succ, List.map_append, List.map_singleton, row]

/-- The outer loop goes through the rows. -/
theorem foldl_nextRow {n : ℕ} (hn : n ≤ a.length) :
    (List.range' 1 n).foldl (nextRow a b) (List.range (b.length + 1)) = row a b n (b.length + 1) := by
  induction n with
  | zero =>
    refine (List.map_id _).symm.trans (List.map_congr_left fun j hj => ?_)
    exact (cell_zero_left (Nat.le_of_lt_succ (List.mem_range.mp hj))).symm
  | succ n ih =>
    rw [List.range'_concat, List.foldl_append, ih (by omega), List.foldl_cons, List.foldl_nil, nextRow]
    have hindex : 1 + 1 * n = n + 1 := by omega
    rw [hindex, foldl_pushCell (by omega) (Nat.le_refl _)]

/-- What the code computes is the distance. -/
theorem levenshtein_eq_editDist (a b : List ℕ) : levenshtein a b = editDist a b := by
  rw [levenshtein]
  split_ifs with heq ha hb
  · exact (editDist_eq_zero_iff.mpr heq).symm
  · rw [List.length_eq_zero_iff.mp ha, editDist]
  · rw [List.length_eq_zero_iff.mp hb, editDist_nil_right]
  · rw [foldl_nextRow (Nat.le_refl _), getElem?_row (Nat.lt_succ_self _), Option.getD_some, cell, List.take_length,
      List.take_length, editDist_reverse]

example : levenshtein [1, 2, 3] [1, 3] = 1 := by decide +kernel

example : levenshtein (units "expres") (units "express") = 1 := by decide +kernel

end Table

/-! ## The nearest popular name -/

section Nearest

variable {toLowerCase : List ℕ → List ℕ} {pkg : Lockfile.InstalledPackage} {base : List ℕ}

/-- A popular package that the loop takes into account. -/
def Near (base : List ℕ) (p : Popular) : Prop := base ≠ p.base ∧ editDist base p.base ≤ distanceThreshold base.length

/-- What the loop has found among the popular packages so far. -/
def Nearest (pkg : Lockfile.InstalledPackage) (base : List ℕ) (ps : List Popular) : Option TyposquatMatch → Prop
  | none => ∀ p ∈ ps, ¬Near base p
  | some m => m.pkg = pkg ∧ (∃ p ∈ ps, Near base p ∧ m.matchedPopular = p.raw ∧ m.distance = editDist base p.base) ∧
      ∀ p ∈ ps, Near base p → m.distance ≤ editDist base p.base

theorem distanceThreshold_le (n : ℕ) : distanceThreshold n ≤ 3 := by
  unfold distanceThreshold
  split_ifs <;> omega

/-- Names whose lengths are far apart are not near. -/
theorem not_near_of_length {p : Popular} (h : 3 < ((p.base.length : ℤ) - base.length).natAbs) : ¬Near base p := by
  rintro ⟨-, hle⟩
  have hlength := (edits_editDist base p.base).length_le
  have := distanceThreshold_le base.length
  omega

theorem consider_eq (pkg : Lockfile.InstalledPackage) (base : List ℕ) (best : Option TyposquatMatch) (p : Popular) :
    consider pkg base best p =
      if 3 < ((p.base.length : ℤ) - base.length).natAbs then best
      else if editDist base p.base = 0 then best
      else if editDist base p.base ≤ distanceThreshold base.length ∧ best.all (editDist base p.base < ·.distance) then
        some { pkg, matchedPopular := p.raw, distance := editDist base p.base }
      else best := by
  rw [← levenshtein_eq_editDist]
  rfl

namespace Nearest

variable {ps : List Popular} {best : Option TyposquatMatch}

/-- A package that is not near changes nothing. -/
theorem skip (h : Nearest pkg base ps best) {p : Popular} (hp : ¬Near base p) : Nearest pkg base (ps ++ [p]) best := by
  rcases best with _ | m
  · intro q hq
    obtain hq | hq := List.mem_append.mp hq
    · exact h q hq
    · exact List.mem_singleton.mp hq ▸ hp
  · obtain ⟨hpkg, ⟨q, hq, hfound⟩, hleast⟩ := h
    refine ⟨hpkg, ⟨q, List.mem_append_left _ hq, hfound⟩, fun q' hq' hnear => ?_⟩
    obtain hq' | hq' := List.mem_append.mp hq'
    · exact hleast q' hq' hnear
    · exact absurd hnear (List.mem_singleton.mp hq' ▸ hp)

/-- A popular package is considered. -/
theorem consider (h : Nearest pkg base ps best) (p : Popular) :
    Nearest pkg base (ps ++ [p]) (Discovery.consider pkg base best p) := by
  rw [consider_eq]
  split_ifs with hlength hzero hnear
  · exact h.skip (not_near_of_length hlength)
  · exact h.skip fun hp => hp.1 (editDist_eq_zero_iff.mp hzero)
  · -- It is nearer than what was found before it.
    have hp : Near base p := ⟨fun heq => hzero (editDist_eq_zero_iff.mpr heq), hnear.1⟩
    refine ⟨rfl, ⟨p, by simp, hp, rfl, rfl⟩, fun q hq hq' => ?_⟩
    obtain hq | hq := List.mem_append.mp hq
    · rcases best with _ | m
      · exact absurd hq' (h q hq)
      · exact (of_decide_eq_true hnear.2).le.trans (h.2.2 q hq hq')
    · rw [List.mem_singleton.mp hq]
  · by_cases hp : Near base p
    · rcases best with _ | m
      · exact absurd ⟨hp.2, rfl⟩ hnear
      · obtain ⟨hpkg, ⟨q, hq, hfound⟩, hleast⟩ := h
        refine ⟨hpkg, ⟨q, List.mem_append_left _ hq, hfound⟩, fun q' hq' hnear' => ?_⟩
        obtain hq' | hq' := List.mem_append.mp hq'
        · exact hleast q' hq' hnear'
        · rw [List.mem_singleton.mp hq']
          exact not_lt.mp fun hlt => hnear ⟨hp.2, decide_eq_true hlt⟩
    · exact h.skip hp

/-- The loop over the popular packages. -/
theorem foldl (pkg : Lockfile.InstalledPackage) (base : List ℕ) (ps : List Popular) :
    Nearest pkg base ps (ps.foldl (Discovery.consider pkg base) none) := by
  induction ps using List.reverseRecOn with
  | nil => exact fun p hp => nomatch hp
  | append_singleton ps p ih =>
    rw [List.foldl_append]
    exact ih.consider p

end Nearest

end Nearest

/-! ## What is reported -/

section Reports

variable (toLowerCase : List ℕ → List ℕ)

/-- The least number of edits that lead from a name to the base name of a popular package. -/
def IsMinDistance (base : List ℕ) (d : ℕ) : Prop :=
  IsLeast {n | ∃ p ∈ normalizedPopular toLowerCase, Edits n base p.base} d

/-- The base name is that of no popular package and of usual length, and near to that of one. -/
structure Suspicious (pkg : Lockfile.InstalledPackage) : Prop where
  unknown : ∀ p ∈ normalizedPopular toLowerCase, basePackageName toLowerCase pkg.name ≠ p.base
  minLength : 3 ≤ (basePackageName toLowerCase pkg.name).length
  maxLength : (basePackageName toLowerCase pkg.name).length ≤ 40
  near : ∃ d, IsMinDistance toLowerCase (basePackageName toLowerCase pkg.name) d ∧
    d ≤ distanceThreshold (basePackageName toLowerCase pkg.name).length

variable {toLowerCase} {pkg : Lockfile.InstalledPackage}

theorem matchPackage_eq_some {m : TyposquatMatch} (h : matchPackage toLowerCase pkg = some m) :
    m.pkg = pkg ∧ Suspicious toLowerCase pkg ∧
      IsMinDistance toLowerCase (basePackageName toLowerCase pkg.name) m.distance ∧
      ∃ p ∈ normalizedPopular toLowerCase, m.matchedPopular = p.raw ∧
        Edits m.distance (basePackageName toLowerCase pkg.name) p.base := by
  simp only [matchPackage, List.contains_iff_mem] at h
  split_ifs at h with hknown hlength
  have hnearest := Nearest.foldl pkg (basePackageName toLowerCase pkg.name) (normalizedPopular toLowerCase)
  rw [h] at hnearest
  obtain ⟨hpkg, ⟨p, hp, hnear, hraw, hdistance⟩, hleast⟩ := hnearest
  have hunknown : ∀ q ∈ normalizedPopular toLowerCase, basePackageName toLowerCase pkg.name ≠ q.base :=
    fun q hq heq => hknown (List.mem_map.mpr ⟨q, hq, heq.symm⟩)
  have hedits : Edits m.distance (basePackageName toLowerCase pkg.name) p.base := hdistance ▸ edits_editDist _ _
  have hmin : IsMinDistance toLowerCase (basePackageName toLowerCase pkg.name) m.distance := by
    refine ⟨⟨p, hp, hedits⟩, ?_⟩
    rintro n ⟨q, hq, hn⟩
    by_cases hq' : Near (basePackageName toLowerCase pkg.name) q
    · exact (hleast q hq hq').trans hn.editDist_le
    · -- A name that is not near is farther away than the threshold.
      have hfar := not_le.mp fun hle => hq' ⟨hunknown q hq, hle⟩
      exact (hdistance ▸ hnear.2).trans (hfar.le.trans hn.editDist_le)
  refine ⟨hpkg, ⟨hunknown, by omega, by omega, m.distance, hmin, hdistance ▸ hnear.2⟩, hmin, p, hp, hraw, hedits⟩

theorem not_suspicious_of_eq_none (h : matchPackage toLowerCase pkg = none) : ¬Suspicious toLowerCase pkg := by
  rintro ⟨hunknown, hmin, hmax, d, ⟨⟨p, hp, hedits⟩, -⟩, hd⟩
  simp only [matchPackage, List.contains_iff_mem] at h
  split_ifs at h with hknown hlength
  · obtain ⟨q, hq, heq⟩ := List.mem_map.mp hknown
    exact hunknown q hq heq.symm
  · omega
  · have hnearest := Nearest.foldl pkg (basePackageName toLowerCase pkg.name) (normalizedPopular toLowerCase)
    rw [h] at hnearest
    exact hnearest p hp ⟨hunknown p hp, hedits.editDist_le.trans hd⟩

open Classical in
/-- Exactly the suspicious packages are reported, in order and once each, and a report names a popular package at the
least distance. -/
theorem detectTyposquats_exact (toLowerCase : List ℕ → List ℕ) (packages : List Lockfile.InstalledPackage) :
    (detectTyposquats toLowerCase packages).map (·.pkg) = packages.filter (Suspicious toLowerCase) ∧
      ∀ m ∈ detectTyposquats toLowerCase packages,
        IsMinDistance toLowerCase (basePackageName toLowerCase m.pkg.name) m.distance ∧
          ∃ p ∈ normalizedPopular toLowerCase, m.matchedPopular = p.raw ∧
            Edits m.distance (basePackageName toLowerCase m.pkg.name) p.base := by
  constructor
  · rw [detectTyposquats]
    induction packages with
    | nil => rfl
    | cons pkg packages ih =>
      rcases h : matchPackage toLowerCase pkg with _ | m
      · rw [List.filterMap_cons_none h, List.filter_cons_of_neg (by simpa using not_suspicious_of_eq_none h), ih]
      · obtain ⟨hpkg, hsuspicious, -⟩ := matchPackage_eq_some h
        rw [List.filterMap_cons_some h, List.map_cons, List.filter_cons_of_pos (by simpa using hsuspicious), ih, hpkg]
  · intro m hm
    obtain ⟨pkg, -, h⟩ := List.mem_filterMap.mp hm
    obtain ⟨rfl, -, hmin, hpopular⟩ := matchPackage_eq_some h
    exact ⟨hmin, hpopular⟩

end Reports

end MontrSecure.Discovery
