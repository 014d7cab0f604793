import MontrSecure.Contracts.Layers
import MontrSecure.Js.Number
import MontrSecure.Text.Contexts

/-!
# The safety predicate for composed payloads

`packages/confirm/src/payload-safety.ts`: what decides whether a payload that a model has composed may be
sent. A payload is looked at as code units. `Number` is `numberOf`, and the runtime's `URL` class a
parameter.
-/

namespace MontrSecure.Confirm

open Text Text.Regex

/-! ## Verdicts -/

/-- `PayloadSafetyVerdict`. -/
structure PayloadSafetyVerdict where
  safe : Bool
  reason : String
  deriving DecidableEq

/-- `reject`. -/
def PayloadSafetyVerdict.reject (reason : String) : PayloadSafetyVerdict := { safe := false, reason }

/-- `ok`. -/
def PayloadSafetyVerdict.ok (reason : String) : PayloadSafetyVerdict := { safe := true, reason }

open PayloadSafetyVerdict

/-- `COMPOSABLE_LIVE_CATEGORIES`. -/
def composableLiveCategories : List Category :=
  [.sqlInjection, .xss, .ssrf, .pathTraversal, .commandInjection]

/-- `isComposableLiveCategory`. -/
def isComposableLiveCategory (category : Category) : Bool := decide (category ∈ composableLiveCategories)

/-- `HARD_MAX_LENGTH`. -/
def hardMaxLength : ℕ := 300

/-- A character of `PRINTABLE_ASCII_ONLY`. -/
def isPrintable (c : ℕ) : Bool := 0x20 ≤ c && c ≤ 0x7E

/-- `checkGenericBounds`. -/
def checkGenericBounds (payload : String) (maxLength : ℕ) : Option PayloadSafetyVerdict :=
  if payload = "" then some (reject "payload must be a non-empty string")
  else if min maxLength hardMaxLength < Text.length payload then
    some (reject s!"payload exceeds the max allowed length ({maxLength} chars)")
  else if !(units payload).all isPrintable then
    some (reject "payload contains non-printable/binary characters (printable ASCII only)")
  else none

theorem not_safe_of_bounds {payload : String} {n : ℕ} {v : PayloadSafetyVerdict}
    (h : checkGenericBounds payload n = some v) : v.safe = false := by
  unfold checkGenericBounds at h
  split_ifs at h <;> cases h <;> rfl

/-! ## Parts of the patterns -/

/-- `\s*`. -/
def spaces : Regex ℕ := star (sym isSpace)

/-- One of some words under `/i`, not cut out of a longer word. -/
def wholeWords (words : List String) : Regex ℕ := keywordCased words

/-- What stands after a text, under `/i`. -/
def afterCased (s : String) (text : List ℕ) : Option (List ℕ) :=
  let word := units s
  if (word.zip text).all (fun p => p.2 = p.1 || (isLower p.1 && p.2 + 0x20 = p.1)) ∧
      word.length ≤ text.length then some (text.drop word.length) else none

theorem afterCased_append (s : String) (text : List ℕ) : afterCased s (units s ++ text) = some text := by
  have hself : ∀ w : List ℕ, (w.zip (w ++ text)).all
      (fun p => p.2 = p.1 || (isLower p.1 && p.2 + 0x20 = p.1)) = true := by
    intro w
    induction w with
    | nil => rfl
    | cons c w ih => simpa using ih
  unfold afterCased
  rw [if_pos ⟨hself _, by simp⟩, List.drop_left]

/-- What stands after one character. -/
def afterUnit (c : Char) : List ℕ → Option (List ℕ)
  | [] => none
  | d :: rest => if d = unit c then some rest else none

/-- What stands after white space, of which there may be none. -/
def afterSpaces (text : List ℕ) : List ℕ := text.dropWhile isSpace

/-- What stands after white space, of which there is some. -/
def afterSomeSpaces (text : List ℕ) : Option (List ℕ) :=
  if (text.head?.map isSpace).getD false then some (afterSpaces text) else none

theorem isWord_of_isSpace {c : ℕ} (h : isSpace c = true) : isWord c = false := by
  have hunits : unit 'A' = 65 ∧ unit 'Z' = 90 ∧ unit 'a' = 97 ∧ unit 'z' = 122 ∧ unit '0' = 48 ∧
      unit '9' = 57 ∧ unit '_' = 95 := by decide
  simp only [isSpace, Bool.or_eq_true, Bool.and_eq_true, decide_eq_true_eq] at h
  simp only [isWord, isAlnum, isUpper, isLower, isDecimal, Bool.or_eq_false_iff, Bool.and_eq_false_iff,
    decide_eq_false_iff_not]
  omega

/-- `\d+`, and what stands after it. -/
def digitRun (text : List ℕ) : Option (List ℕ × List ℕ) :=
  if text.takeWhile isDecimal = [] then none
  else some (text.takeWhile isDecimal, text.dropWhile isDecimal)

/-- The first position where a pattern matches, with what it finds there. -/
def exec {β : Type} (matchAt : Position ℕ → Option β) (text : List ℕ) : Option (Position ℕ × β) :=
  (positions text).findSome? fun pos => (matchAt pos).map (Prod.mk pos)

/-! ## SQL injection -/

/-- `SQLI_MAX_LENGTH`. -/
def sqliMaxLength : ℕ := 150

/-- `SQLI_SHAPE`. -/
def sqliShape : Regex ℕ :=
  oneOf
    [lit "'", lit "\"",
      wholeWords ["or", "and", "union", "select", "sleep", "waitfor", "benchmark"]]

/-- `SQLI_DESTRUCTIVE`. -/
def sqliDestructive : Regex ℕ :=
  alt
    (wholeWords ["drop", "delete", "truncate", "update", "insert", "alter", "create", "exec", "execute",
      "grant", "revoke", "attach", "shutdown", "xp_cmdshell", "load_file"])
    (concat [litCased "into", plus (sym isSpace), oneOf [litCased "outfile", litCased "dumpfile"]])

/-- `\d+(?:\.\d+)?`, and what stands after it. -/
def numeralRun (text : List ℕ) : Option (List ℕ × List ℕ) :=
  (digitRun text).map fun whole =>
    match (afterUnit '.' whole.2).bind digitRun with
    | some fraction => (whole.1 ++ unit '.' :: fraction.1, fraction.2)
    | none => whole

/-- The group of `\s*\(\s*(\d+(?:\.\d+)?)\s*\)`. -/
def numeralArgument (text : List ℕ) : Option (List ℕ) :=
  (afterUnit '(' (afterSpaces text)).bind fun inside =>
    (numeralRun (afterSpaces inside)).bind fun numeral =>
      (afterUnit ')' (afterSpaces numeral.2)).map fun _ => numeral.1

/-- What stands after `\b(?:sleep|pg_sleep)`. -/
def afterSleep (pos : Position ℕ) : Option (List ℕ) :=
  if pos.before.any isWord then none
  else (afterCased "sleep" pos.after).or (afterCased "pg_sleep" pos.after)

/-- `SQLI_SLEEP_ARG`: the group. -/
def sleepArg (pos : Position ℕ) : Option (List ℕ) := (afterSleep pos).bind numeralArgument

/-- The groups of `\s+delay\s+'0*(\d+):(\d+):(\d+)'`, the first one with the zeros before it. -/
def delayLiteral (text : List ℕ) : Option (List ℕ × List ℕ × List ℕ) :=
  (afterSomeSpaces text).bind fun text =>
    (afterCased "delay" text).bind fun text =>
      (afterSomeSpaces text).bind fun text =>
        (afterUnit '\'' text).bind fun text =>
          (digitRun text).bind fun hh =>
            (afterUnit ':' hh.2).bind fun text =>
              (digitRun text).bind fun mm =>
                (afterUnit ':' mm.2).bind fun text =>
                  (digitRun text).bind fun ss =>
                    (afterUnit '\'' ss.2).map fun _ => (hh.1, mm.1, ss.1)

/-- `SQLI_WAITFOR_ARG`: the groups. -/
def waitforArg (pos : Position ℕ) : Option (List ℕ × List ℕ × List ℕ) :=
  (afterCased "waitfor" pos.after).bind delayLiteral

/-- `SQLI_MAX_SLEEP_SECONDS`. -/
def sqliMaxSleepSeconds : ℚ := 5

/-- `Number(hh) * 3600 + Number(mm) * 60 + Number(ss)`. -/
def delaySeconds (groups : List ℕ × List ℕ × List ℕ) : Option ℚ :=
  (numberOf groups.1).bind fun hh =>
    (numberOf groups.2.1).bind fun mm =>
      (numberOf groups.2.2).map fun ss => hh * 3600 + mm * 60 + ss

/-- The number is not finite, or over the limit. -/
def overLimit (limit : ℚ) (seconds : Option ℚ) : Bool := seconds.all fun s => limit < s

/-- `evaluateSqlInjectionPayload`. -/
def evaluateSqlInjectionPayload (payload : String) : PayloadSafetyVerdict :=
  match checkGenericBounds payload sqliMaxLength with
  | some bounds => bounds
  | none =>
    if Text.includes payload ";" then
      reject "semicolon (stacked-query risk) is never permitted in a composed SQLi payload"
    else if !sqliShape.test (units payload) then
      reject "payload does not structurally resemble a SQL-injection proof (no quote/keyword)"
    else if sqliDestructive.test (units payload) then
      reject "payload contains a data-mutating/destructive SQL keyword — proof must be read-only"
    else if (exec sleepArg (units payload)).any (fun m => overLimit sqliMaxSleepSeconds (numberOf m.2)) then
      reject "SLEEP()/pg_sleep() argument exceeds the 5s non-destructive bound"
    else if (exec waitforArg (units payload)).any (fun m => overLimit sqliMaxSleepSeconds (delaySeconds m.2)) then
      reject "WAITFOR DELAY exceeds the 5s non-destructive bound"
    else ok "SQL-shaped, non-destructive, within bounds"

/-! ## XSS -/

/-- `XSS_MAX_LENGTH`. -/
def xssMaxLength : ℕ := 200

/-- `XSS_ALLOWED_TAG`. -/
def xssAllowedTag : Regex ℕ :=
  concat [lit "<", spaces, oneOf [litCased "script", litCased "img", litCased "svg"], wordBoundary]

/-- `XSS_EVENT_HANDLER_OR_TAG`. -/
def xssEventHandlerOrTag : Regex ℕ :=
  oneOf
    [concat [lit "<", opt (lit "/"), plus (sym isWord), star (sym fun c => c != unit '>'), lit ">"],
      concat [litCased "on", plus (sym isWord), spaces, lit "="], litCased "javascript:"]

/-- `XSS_DANGEROUS`. -/
def xssDangerous : Regex ℕ :=
  oneOf
    [concat [lit "<", spaces,
        oneOf (["iframe", "object", "embed", "form", "meta", "link", "base"].map litCased), wordBoundary],
      litCased "document.cookie", concat [litCased "fetch", spaces, lit "("], litCased "xmlhttprequest",
      concat [litCased "eval", spaces, lit "("], litCased "localstorage", litCased "sessionstorage",
      concat [lit "<", spaces, litCased "style", wordBoundary],
      concat [litCased "import", spaces, lit "("]]

/-- `XSS_EXTERNAL_URL`. -/
def xssExternalUrl : Regex ℕ := concat [litCased "http", opt (litCased "s"), lit "://"]

/-- The group of `/<\s*(\w+)/`. -/
def tagName (pos : Position ℕ) : Option (List ℕ) :=
  (afterUnit '<' pos.after).bind fun rest =>
    let name := (afterSpaces rest).takeWhile isWord
    if name = [] then none else some name

/-- The text of some code units in ASCII. -/
def asciiText (text : List ℕ) : String := String.ofList (text.map Char.ofNat)

/-- The check of the marker that a proof has to embed. -/
def checkMarker (payload : String) (marker : Option String) (missing absent : String) :
    Option PayloadSafetyVerdict :=
  match marker with
  | none => some (reject missing)
  | some marker =>
    if marker = "" then some (reject missing)
    else if Text.includes payload marker then none else some (reject absent)

theorem checkMarker_eq_none {payload missing absent : String} {marker : Option String} :
    checkMarker payload marker missing absent = none ↔
      ∃ m, marker = some m ∧ m ≠ "" ∧ Text.includes payload m = true := by
  cases marker with
  | none => simp [checkMarker]
  | some m =>
    rw [checkMarker]
    split_ifs with hempty hincludes <;> simp_all

theorem not_safe_of_marker {payload missing absent : String} {marker : Option String} {v : PayloadSafetyVerdict}
    (h : checkMarker payload marker missing absent = some v) : v.safe = false := by
  unfold checkMarker at h
  split at h
  · cases h
    rfl
  · split_ifs at h
    · cases h
      rfl
    · cases h
      rfl

/-- `evaluateXssPayload`. -/
def evaluateXssPayload (payload : String) (marker : Option String) : PayloadSafetyVerdict :=
  match checkGenericBounds payload xssMaxLength with
  | some bounds => bounds
  | none =>
    if !xssEventHandlerOrTag.test (units payload) then
      reject "payload does not structurally resemble an XSS proof (no tag/event handler)"
    else if xssDangerous.test (units payload) then
      reject "payload uses a disallowed tag/sink (iframe/object/form/cookie/fetch/eval/…)"
    else if xssExternalUrl.test (units payload) then
      reject "payload references an external URL — proof must never attempt exfiltration"
    else
      match exec tagName (units payload), xssAllowedTag.test (units payload) with
      | some (_, name), false =>
        reject ("<" ++ asciiText name ++ "> is not on the allowed tag list (script/img/svg only)")
      | _, _ =>
        (checkMarker payload marker
          "no harness marker supplied — cannot verify reflection deterministically"
          "payload does not embed the required harness marker — reflection cannot be verified").getD
          (ok "tag/vector-allowlisted, marker-verifiable, no exfiltration, within bounds")

/-! ## SSRF -/

/-- The parts of a `URL` that are read. -/
structure PayloadUrl where
  protocol : String
  username : String
  password : String
  host : String

/-- `SSRF_MAX_LENGTH`. -/
def ssrfMaxLength : ℕ := 300

/-- `SSRF_ALLOWED_SCHEMES`. -/
def ssrfAllowedSchemes : List String := ["http:", "https:"]

/-- `evaluateSsrfPayload`. -/
def evaluateSsrfPayload (parseUrl : String → Option PayloadUrl) (payload : String) : PayloadSafetyVerdict :=
  match checkGenericBounds payload ssrfMaxLength with
  | some bounds => bounds
  | none =>
    match parseUrl payload with
    | none => reject "payload does not parse as an absolute URL — SSRF proof must target a URL"
    | some url =>
      if url.protocol ∉ ssrfAllowedSchemes then
        reject ("scheme \"" ++ url.protocol ++
          "\" is not permitted — only http/https (no file:/gopher:/dict:/ftp:/…)")
      else if url.username ≠ "" ∨ url.password ≠ "" then
        reject "payload embeds URL credentials (userinfo) — not permitted"
      else if url.host = "" then reject "payload URL has no host"
      else ok "valid http(s) URL, no embedded credentials, within bounds"

/-! ## Path traversal -/

/-- `PATH_TRAVERSAL_MAX_LENGTH`. -/
def pathTraversalMaxLength : ℕ := 200

/-- `PATH_TRAVERSAL_SHAPE`. -/
def pathTraversalShape : Regex ℕ :=
  oneOf
    [lit "../", lit "..\\",
      concat [litCased "%2e%2e", oneOf [litCased "%2f", litCased "%5c", lit "/", lit "\\"]],
      litCased "..%2f", litCased "..%5c"]

/-- `PATH_TRAVERSAL_SHELL_METACHARS`. -/
def pathTraversalShellMetachars : Regex ℕ := sym (isOneOf [';', '|', '\x60', '$', '<', '>'])

/-- `PATH_TRAVERSAL_SENSITIVE_TARGET`. -/
def pathTraversalSensitiveTarget : Regex ℕ :=
  oneOf
    [litCased "shadow", litCased "id_rsa", litCased "id_dsa", litCased "id_ecdsa", litCased "id_ed25519",
      concat [litCased ".pem", wordBoundary], concat [litCased ".ppk", wordBoundary], litCased ".ssh/"]

/-- `evaluatePathTraversalPayload`. -/
def evaluatePathTraversalPayload (payload : String) : PayloadSafetyVerdict :=
  match checkGenericBounds payload pathTraversalMaxLength with
  | some bounds => bounds
  | none =>
    if !pathTraversalShape.test (units payload) then
      reject "payload does not contain a directory-traversal sequence (../, ..\\, or an encoded form)"
    else if pathTraversalShellMetachars.test (units payload) then
      reject "payload contains shell metacharacters — not permitted in a path-parameter value"
    else if pathTraversalSensitiveTarget.test (units payload) then
      reject "payload targets credential/private-key material — disproportionate blast radius"
    else ok "traversal-shaped, no shell metacharacters, non-sensitive target, within bounds"

/-! ## Command injection -/

/-- `COMMAND_INJECTION_MAX_LENGTH`. -/
def commandInjectionMaxLength : ℕ := 100

/-- `COMMAND_INJECTION_CONNECTOR`. -/
def commandInjectionConnector : Regex ℕ := oneOf [lit ";", lit "|", sym (isOneOf ['\x60']), lit "$(", lit "&&"]

/-- `COMMAND_INJECTION_REDIRECTION`. -/
def commandInjectionRedirection : Regex ℕ :=
  alt (sym (isOneOf ['>', '<']))
    (concat [look fun before _ => before != some (unit '&'), lit "&",
      look fun _ after => after != some (unit '&')])

/-- The commands of `COMMAND_INJECTION_ALLOWED_COMMAND`. -/
def allowedCommand : Regex ℕ :=
  oneOf
    [litCased "id", litCased "whoami", litCased "pwd", litCased "hostname",
      concat [litCased "uname", opt (concat [plus (sym isSpace), litCased "-a"])],
      concat [litCased "echo", plus (sym isSpace), sym fun c => isWord c || isOneOf ['.', '-'] c,
        upTo 63 (sym fun c => isWord c || isOneOf ['.', '-'] c)],
      concat [litCased "sleep", plus (sym isSpace), sym fun c => unit '0' ≤ c && c ≤ unit '5',
        opt (concat [lit ".", plus (sym isDecimal)])]]

/-- `COMMAND_INJECTION_ALLOWED_COMMAND`. -/
def commandInjectionAllowedCommand : Regex ℕ :=
  concat
    [oneOf [look fun before _ => before.isNone, sym (isOneOf [';', '|', '\x60', '&', '(']), lit "$("], spaces,
      allowedCommand, spaces,
      oneOf [sym (isOneOf [')', '\x60']), lit ";", lit "|", lit "&&", look fun _ after => after.isNone]]

/-- `COMMAND_INJECTION_DENYLIST`. -/
def commandInjectionDenylist : Regex ℕ :=
  concat
    [wordBoundary,
      oneOf
        ((["rm", "dd", "mkfs", "chmod", "chown", "chgrp", "kill", "shutdown", "reboot", "halt", "poweroff",
            "curl", "wget", "nc", "ncat", "netcat", "telnet", "ssh", "scp", "sftp", "ftp"].map litCased) ++
          concat [litCased "python", star (sym fun c => isDecimal c || c = unit '.')] ::
          (["perl", "ruby", "php", "bash", "zsh", "ksh", "csh", "sh", "powershell", "cmd", "mv", "cp",
            "useradd", "userdel", "usermod", "groupadd", "passwd", "iptables", "systemctl", "service", "mkdir",
            "rmdir", "touch", "tee", "base64", "eval", "exec", "nohup", "crontab", "xargs", "awk", "sed", "su",
            "sudo", "reg", "regedit", "taskkill", "format", "del", "erase", "shred", "truncate"].map litCased)),
      wordBoundary]

/-- A character of `[^\s;|&`)]`. -/
def isSleepArgUnit (c : ℕ) : Bool := !isSpace c && !isOneOf [';', '|', '&', '\x60', ')'] c

/-- `COMMAND_INJECTION_SLEEP_TOKEN`: its group, and what stands after the match. -/
def sleepToken (pos : Position ℕ) : Option (List ℕ × List ℕ) :=
  if pos.before.any isWord then none
  else
    (afterCased "sleep" pos.after).bind fun rest =>
      if rest.head?.any isWord then none
      else some ((afterSpaces rest).takeWhile isSleepArgUnit, (afterSpaces rest).dropWhile isSleepArgUnit)

/-- The groups of `payload.matchAll(COMMAND_INJECTION_SLEEP_TOKEN)`. The next `skip` code units belong to the
match before. -/
def sleepTokens : ℕ → Option ℕ → List ℕ → List (List ℕ)
  | _, _, [] => []
  | skip + 1, _, c :: text => sleepTokens skip (some c) text
  | 0, before, c :: text =>
    match sleepToken ⟨before, c :: text⟩ with
    | none => sleepTokens 0 (some c) text
    | some (arg, rest) => arg :: sleepTokens (text.length - rest.length) (some c) text

/-- `COMMAND_INJECTION_MAX_SLEEP_SECONDS`. -/
def commandInjectionMaxSleepSeconds : ℚ := 5

/-- `Number(arg)` is not finite, negative, or over the limit. -/
def badSleepArg (arg : List ℕ) : Bool :=
  (numberOf arg).all fun seconds => seconds < 0 || commandInjectionMaxSleepSeconds < seconds

/-- `evaluateCommandInjectionPayload`. -/
def evaluateCommandInjectionPayload (payload : String) (marker : Option String) : PayloadSafetyVerdict :=
  match checkGenericBounds payload commandInjectionMaxLength with
  | some bounds => bounds
  | none =>
    if !commandInjectionConnector.test (units payload) then
      reject "payload has no injection connector (;, |, `, $(), or &&)"
    else if commandInjectionRedirection.test (units payload) then
      reject "payload uses redirection/backgrounding (>, <, or a lone &) — not permitted"
    else if commandInjectionDenylist.test (units payload) then
      reject "payload references a disallowed/destructive command — not on the read-only allowlist"
    else
      match (sleepTokens 0 none (units payload)).find? badSleepArg with
      | some arg =>
        reject ("sleep argument \"" ++ asciiText arg ++ "\" exceeds the 5s non-destructive bound")
      | none =>
        if !commandInjectionAllowedCommand.test (units payload) then
          reject "command is not on the read-only allowlist (id/whoami/pwd/hostname/uname/echo/sleep 0-5 only)"
        else
          (checkMarker payload marker
            "no harness marker supplied — cannot verify command execution deterministically"
            "payload does not embed the required harness marker — execution cannot be verified").getD
            (ok "connector + read-only allowlisted command, marker-verifiable, within bounds")

/-! ## Dispatch -/

/-- `evaluateComposedPayloadSafety`. -/
def evaluateComposedPayloadSafety (parseUrl : String → Option PayloadUrl) (category : Category)
    (payload : String) (marker : Option String) : PayloadSafetyVerdict :=
  match category with
  | .sqlInjection => evaluateSqlInjectionPayload payload
  | .xss => evaluateXssPayload payload marker
  | .ssrf => evaluateSsrfPayload parseUrl payload
  | .pathTraversal => evaluatePathTraversalPayload payload
  | .commandInjection => evaluateCommandInjectionPayload payload marker
  | category =>
    reject ("category \"" ++ category.name ++ "\" is not eligible for composed live-DAST payloads")

end MontrSecure.Confirm
