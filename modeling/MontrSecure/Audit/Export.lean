import MontrSecure.Audit.Log
import MontrSecure.Data.Grouping
import MontrSecure.Js.Parse
import Mathlib.Algebra.GroupWithZero.Nat

/-!
# Exports of the audit log

What a client's events are read back as, the checks and the export of `PrismaAuditLogClient`, and the
verifier of exports, `packages/security/src/audit-verify.ts`. An export is a text: the verifier parses
it, checks every record against the schema of events and verifies the chain of every client in it.
-/

namespace MontrSecure

/-! ## Reading the log -/

/-- A row as it is read back: a JSON column keeps the value, and not the order of its keys. -/
structure AuditEventRow.ReadAs (row row' : AuditEventRow) : Prop where
  columns : { row with metadata := .null } = { row' with metadata := .null }
  metadata : row'.metadata.Same row.metadata
  distinct : row'.metadata.distinct = true

/-- What `fullChain` may resolve to. -/
def AuditTable.FullChain (t : AuditTable) (clientId : ClientId) (events : List AuditEvent) : Prop :=
  ∃ rows, List.Forall₂ AuditEventRow.ReadAs (t.findChain clientId) rows ∧ events = rows.map rowToEvent

variable (sha256 : String → String) (fmt : NumberFormat)

/-- `verifyChain`, for the events that `fullChain` has resolved to. -/
def verifyChain (events : List AuditEvent) : Bool := (verifyChainRecords sha256 fmt events).ok

/-- An event as an object. -/
def AuditEvent.object (e : AuditEvent) : JsValue :=
  .obj
    [("id", .str e.id), ("clientId", .str e.clientId), ("sequence", .num e.sequence),
      ("scanId", .ofString? e.scanId), ("actor", .obj e.actor.fields), ("action", .str e.action),
      ("targetType", .ofString? e.targetType), ("targetId", .ofString? e.targetId),
      ("summary", .str e.summary), ("metadata", .obj e.metadata), ("prevHash", .str e.prevHash),
      ("hash", .str e.hash), ("at", .str e.at_)]

/-- `exportJson`, for the events that `fullChain` has resolved to. -/
def exportJson (clientId : ClientId) (exportedAt : IsoDateTime) (events : List AuditEvent) : String :=
  let verification := verifyChainRecords sha256 fmt events
  stringify fmt [' ', ' ']
    (.obj (toJsonFields
      ([("clientId", .str clientId), ("exportedAt", .str (toISOString exportedAt)),
        ("count", .num events.length), ("chainVerified", .bool verification.ok)] ++
        (if verification.ok then []
          else [("chainBrokenAt", (verification.brokenAt.map fun n : ℕ => JsValue.num n).getD .undefined)]) ++
        [("events", .arr (events.map AuditEvent.object))])))

/-! ## The schema of events -/

/-- The value of a key. -/
def field? (key : String) (fields : List (String × Json)) : Option Json :=
  (fields.find? fun f => f.1 = key).map (·.2)

/-- A field that has to be there. -/
def requiredField {α : Type} (parse : Json → Option α) (key : String) (fields : List (String × Json)) :
    Option α :=
  (field? key fields).bind parse

/-- `.optional()`. -/
def optionalField {α : Type} (parse : Json → Option α) (key : String) (fields : List (String × Json)) :
    Option (Option α) :=
  match field? key fields with
  | none => some none
  | some j => (parse j).map some

/-- `z.string()`. -/
def string? : Json → Option String
  | .str s => some s
  | _ => none

/-- `IdSchema`. -/
def id? (j : Json) : Option EntityId := (string? j).filter (· ≠ "")

/-- `z.number().int().positive()`. -/
def positive? : Json → Option ℕ
  | .num q => if q.den = 1 ∧ 0 < q.num then some q.num.toNat else none
  | _ => none

/-- `ActorTypeSchema`. -/
def actorType? (j : Json) : Option ActorType :=
  (string? j).bind fun s => [.user, .agent, .system].find? fun t => ActorType.name t = s

/-- `RoleSchema`. -/
def role? (j : Json) : Option Role :=
  (string? j).bind fun s => [.operator, .approver, .viewer].find? fun r => Role.name r = s

/-- `AuditActionSchema`. -/
def action? (j : Json) : Option String := (string? j).filter (auditActions.contains ·)

/-- `AuditActorSchema`. -/
def auditActor? : Json → Option AuditActor
  | .obj fields => do
    return {
      type := ← requiredField actorType? "type" fields
      id := ← requiredField id? "id" fields
      role := ← optionalField role? "role" fields }
  | _ => none

/-- `z.record(z.string(), z.unknown())`: a fresh object, to which the fields are assigned. -/
def record? : Json → Option JsRecord
  | .obj fields => some (assigned (ofJsonFields fields))
  | _ => none

/-- `AuditEventSchema`, for a check of date-times. -/
def auditEvent? (isDateTime : String → Bool) : Json → Option AuditEvent
  | .obj fields => do
    return {
      id := ← requiredField id? "id" fields
      clientId := ← requiredField id? "clientId" fields
      sequence := ← requiredField positive? "sequence" fields
      scanId := ← optionalField id? "scanId" fields
      actor := ← requiredField auditActor? "actor" fields
      action := ← requiredField action? "action" fields
      targetType := ← optionalField string? "targetType" fields
      targetId := ← optionalField id? "targetId" fields
      summary := ← requiredField string? "summary" fields
      metadata := (← optionalField record? "metadata" fields).getD []
      prevHash := ← requiredField string? "prevHash" fields
      hash := ← requiredField string? "hash" fields
      at_ := ← requiredField (fun j => (string? j).filter (isDateTime ·)) "at" fields }
  | _ => none

/-! ## The verifier of exports -/

/-- `AuditInputError`. -/
inductive AuditInputError where
  /-- `invalid JSON: …`. -/
  | invalidJson
  /-- `expected an array of audit events or an object with an 'events' array`. -/
  | noEvents
  /-- `audit records failed contract validation …`. -/
  | failedValidation

/-- The events of an export: the export itself, or its field of that name. -/
def rawEvents : Json → Except AuditInputError Json
  | .arr items => .ok (.arr items)
  | .obj fields =>
    match field? "events" fields with
    | some events => .ok events
    | none => .error .noEvents
  | _ => .error .noEvents

/-- `AuditEventSchema.array().safeParse`. -/
def validEvents (isDateTime : String → Bool) : Json → Except AuditInputError (List AuditEvent)
  | .arr items =>
    match items.mapM (auditEvent? isDateTime) with
    | some events => .ok events
    | none => .error .failedValidation
  | _ => .error .failedValidation

/-- `parseAuditExport`. -/
def parseAuditExport (reader : NumberReader fmt) (isDateTime : String → Bool) (text : String) :
    Except AuditInputError (List AuditEvent) :=
  match parseJson reader text with
  | none => .error .invalidJson
  | some json => (rawEvents json).bind (validEvents isDateTime)

/-- `ClientChainResult`. -/
structure ClientChainResult where
  clientId : ClientId
  count : ℕ
  ok : Bool
  brokenAt : Option ℕ := none
  reason : Option String := none
  firstSequence : Option ℕ := none
  lastSequence : Option ℕ := none

/-- `AuditVerifyReport`. -/
structure AuditVerifyReport where
  ok : Bool
  totalEvents : ℕ
  clients : List ClientChainResult

/-- The result for the events of one client. -/
def verifyClient (group : KeyGroup ClientId AuditEvent) : ClientChainResult :=
  let sorted := group.items.insertionSort fun a b => a.sequence ≤ b.sequence
  let res := verifyChainRecords sha256 fmt sorted
  { clientId := group.key, count := sorted.length, ok := res.ok, brokenAt := res.brokenAt
    reason := res.reason, firstSequence := sorted.head?.map AuditEvent.sequence
    lastSequence := sorted.getLast?.map AuditEvent.sequence }

/-- `verifyAuditEvents`; the clients are put in the order of `localeCompare`. -/
def verifyAuditEvents (localeLe : String → String → Bool) (events : List AuditEvent)
    (clientId : Option ClientId := none) : AuditVerifyReport :=
  -- an empty id selects no client
  let wanted := clientId.filter (· ≠ "")
  let groups := KeyGroup.group AuditEvent.clientId
    (events.filter fun e => wanted.all (e.clientId = ·))
  let clients := groups.map (verifyClient sha256 fmt)
  let missing := (wanted.filter fun c => !(groups.map KeyGroup.key).contains c).toList.map
    fun c => { clientId := c, count := 0, ok := false, reason := some "no events for client" }
  { ok := clients.all (·.ok) && missing.isEmpty
    totalEvents := (clients.map (·.count)).sum
    clients := (clients ++ missing).mergeSort fun a b => localeLe a.clientId b.clientId }

/-- `verifyAuditExport`. -/
def verifyAuditExport (reader : NumberReader fmt) (isDateTime : String → Bool)
    (localeLe : String → String → Bool) (text : String) (clientId : Option ClientId := none) :
    Except AuditInputError AuditVerifyReport := do
  return verifyAuditEvents sha256 fmt localeLe (← parseAuditExport fmt reader isDateTime text) clientId

end MontrSecure
