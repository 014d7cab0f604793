import MontrSecure.Audit.Log
import Mathlib.Data.List.Induction

/-!
# Every append continues the chain

Two appends may read the same last event, but the unique index lets only one of them create the next.
The invariant is that the events of a client, in the order in which they were created, are a chain,
and that what an append has read was the last event of an earlier state of the table. When the row it
creates is accepted, that event is still the last one.
-/

namespace MontrSecure

open Async

variable {sha256 : String → String} {fmt : NumberFormat}

/-! ## What an append does -/

/-- The last event an append has read is what it creates the next one after. -/
def appendProtocol (sha256 : String → String) (fmt : NumberFormat) (input : AuditLogInput) :
    Protocol AuditOp AuditOp.Ans AuditMemory where
  answers _ _ := True
  awaits tr m₀ _ op :=
    op = .findLast input.clientId ∨
      ∃ m last tr', tr = ⟨m, .findLast input.clientId, .ok last⟩ :: tr' ∧
        op = .create (nextRow sha256 fmt input last m₀)
  ends _ _ _ := True

theorem appendOnce_follows (input : AuditLogInput)
    {post : Trace AuditOp AuditOp.Ans AuditMemory → AuditMemory → AuditMemory → AuditEvent → Prop}
    {exc : Trace AuditOp AuditOp.Ans AuditMemory → AuditMemory → AuditMemory → AuditErr → Prop}
    (hpost : ∀ tr m₀ m event, post tr m₀ m event) (hexc : ∀ tr m₀ m e, exc tr m₀ m e)
    (tr : Trace AuditOp AuditOp.Ans AuditMemory) (m₀ m : AuditMemory) :
    (appendOnce sha256 fmt input m).Follows (appendProtocol sha256 fmt input) post exc tr m₀ := by
  simp only [appendOnce, askAudit, Program.bind_apply, Program.await_apply, Outcome.bind,
    Outcome.follows_await]
  refine ⟨.inl rfl, fun r _ m₁ => ?_⟩
  cases r with
  | error e => exact hexc _ _ _ _
  | ok last =>
    refine ⟨.inr ⟨m, last, tr, rfl, rfl⟩, fun r _ m₂ => ?_⟩
    cases r with
    | error e => exact hexc _ _ _ _
    | ok row => exact hpost _ _ _ _

/-- An append keeps to the protocol, through all its attempts. -/
theorem append_obeys (input : AuditLogInput) :
    ((auditSystem sha256 fmt).body input).Obeys (appendProtocol sha256 fmt input) := by
  have hattempts : ∀ n tr m₀ m, (appendAttempts sha256 fmt input n m).Follows
      (appendProtocol sha256 fmt input) (fun _ _ _ _ => True) (fun _ _ _ _ => True) tr m₀ := by
    intro n
    induction n with
    | zero => exact fun _ _ _ => trivial
    | succ n ih =>
      intro tr m₀ m
      rw [appendAttempts, Program.tryCatch_apply, Outcome.follows_tryCatch]
      refine appendOnce_follows input (fun _ _ _ _ => trivial) (fun tr m₀ m e => ?_) tr m₀ m
      split
      · exact ih tr m₀ m
      · trivial
  intro m
  show ((append sha256 fmt input m).bind _).Follows _ _ _ [] m
  rw [Outcome.follows_bind]
  exact (hattempts maxAppendAttempts [] m m).mono (fun _ _ _ _ _ => trivial) (fun _ _ _ _ _ => trivial)

/-! ## The table -/

/-- The events of a client, in the order in which they were created. -/
def AuditTable.events (t : AuditTable) (clientId : ClientId) : List AuditEvent :=
  (t.ofClient clientId).map rowToEvent

/-- The number of an event in a chain is its place. -/
theorem Chained.sequences {prevHash : String} {n : ℕ} {es : List AuditEvent}
    (h : Chained sha256 fmt prevHash n es) :
    es.map AuditEvent.sequence = List.range' n es.length := by
  induction es generalizing prevHash n with
  | nil => rfl
  | cons e es ih =>
    obtain ⟨⟨hsequence, -, -⟩, htail⟩ := h
    rw [List.map_cons, ih htail, List.length_cons, List.range'_succ, hsequence]

variable {t t' : AuditTable} {clientId : ClientId} {row : AuditEventRow}

/-- What creating a row does. -/
theorem AuditTable.create?_eq_some (h : t.create? row = some t') :
    row.place ∉ t.rows.map AuditEventRow.place ∧ t'.rows = t.rows ++ [row] := by
  unfold AuditTable.create? at h
  split at h
  · cases h
  · rename_i hfree
    obtain ⟨hid, hplace⟩ := not_or.mp hfree
    cases h
    exact ⟨hplace, Table.rows_insertNew (by simpa using hid)⟩

theorem AuditTable.ofClient_create (h : t'.rows = t.rows ++ [row]) (clientId : ClientId) :
    t'.ofClient clientId = t.ofClient clientId ++ if row.clientId = clientId then [row] else [] := by
  rw [AuditTable.ofClient, h, List.filter_append]
  congr 1
  by_cases hclient : row.clientId = clientId <;> simp [hclient]

/-- The numbers of the rows of a client. -/
theorem sequences_ofClient (h : Chained sha256 fmt "" 1 (t.events clientId)) :
    (t.ofClient clientId).map AuditEventRow.sequence = List.range' 1 (t.ofClient clientId).length := by
  have hsequences := h.sequences
  rw [AuditTable.events, List.map_map, List.length_map] at hsequences
  exact hsequences

theorem pairwise_ofClient (h : Chained sha256 fmt "" 1 (t.events clientId)) :
    (t.ofClient clientId).Pairwise fun r r' => r.sequence < r'.sequence := by
  rw [← List.pairwise_map (f := AuditEventRow.sequence) (R := (· < ·)), sequences_ofClient h]
  exact List.pairwise_lt_range'

/-- In the order of their numbers the rows are as they were created. -/
theorem findChain_eq (h : Chained sha256 fmt "" 1 (t.events clientId)) :
    t.findChain clientId = t.ofClient clientId :=
  ((pairwise_ofClient h).imp le_of_lt).insertionSort_eq

/-- The row with the greatest number is the one created last. -/
theorem findLast_eq (h : Chained sha256 fmt "" 1 (t.events clientId)) :
    t.findLast clientId = (t.ofClient clientId).getLast? := by
  have hlt := pairwise_ofClient h
  have hreverse : (t.ofClient clientId).insertionSort (fun r r' => r'.sequence ≤ r.sequence) =
      (t.ofClient clientId).reverse := by
    have hsorted : (t.ofClient clientId).reverse.Pairwise fun r r' => r'.sequence ≤ r.sequence :=
      List.pairwise_reverse.mpr (hlt.imp le_of_lt)
    have hnodup : ((t.ofClient clientId).map AuditEventRow.sequence).Nodup := by
      rw [sequences_ofClient h]
      exact List.nodup_range'
    refine ((List.perm_insertionSort _ _).trans (List.reverse_perm _).symm).eq_of_pairwise
      (fun r r' hr hr' hle hle' => ?_) ?_ hsorted
    · refine List.inj_on_of_nodup_map hnodup ?_ ?_ (le_antisymm hle' hle)
      · exact (List.mem_insertionSort _).mp hr
      · exact List.mem_reverse.mp hr'
    · have : Std.Total fun r r' : AuditEventRow => r'.sequence ≤ r.sequence :=
        ⟨fun r r' => le_total _ _⟩
      have : IsTrans AuditEventRow fun r r' => r'.sequence ≤ r.sequence :=
        ⟨fun _ _ _ h h' => le_trans h' h⟩
      exact List.pairwise_insertionSort _ _
  rw [AuditTable.findLast, hreverse, List.head?_reverse]

/-! ## The row of an append -/

/-- What the audit log accepts at an append, and what is stored of it. -/
structure AuditEventRow.Stored (row : AuditEventRow) : Prop where
  ids : row.id ≠ "" ∧ row.clientId ≠ "" ∧ row.scanId ≠ some "" ∧ row.actorId ≠ "" ∧
    row.targetId ≠ some ""
  action : row.action ∈ auditActions
  now : row.at_ < 253402300800000
  metadata : ∃ fields, row.metadata = .obj fields ∧ row.metadata.distinct = true

/-- A record of a row's metadata can be hashed. -/
theorem AuditEventRow.Stored.clean (h : row.Stored) : (rowToEvent row).Clean := by
  obtain ⟨fields, hfields, hdistinct⟩ := h.metadata
  have hrecord : (rowToEvent row).metadata = ofJsonFields fields := by
    show (JsValue.ofJson row.metadata).record = _
    rw [hfields]
    rfl
  unfold AuditEvent.Clean
  rw [hrecord]
  rw [hfields] at hdistinct
  exact ⟨plain_ofJson (.obj fields), distinct_ofJson hdistinct⟩

theorem toJsonFields_ofJsonFields (fields : List (String × Json)) :
    toJsonFields (ofJsonFields fields) = fields := by
  have h : some (Json.obj (toJsonFields (ofJsonFields fields))) = some (.obj fields) :=
    toJson_ofJson (.obj fields)
  exact Json.obj.inj (Option.some.inj h)

/-- The draft that is hashed and the row that is stored are hashed alike. -/
theorem hash_rowOfDraft {draft : AuditEvent} {now : IsoDateTime} (hclean : draft.Clean)
    (hrow : (rowToEvent (rowOfDraft sha256 fmt draft now)).Clean) (hat : draft.at_ = toISOString now) :
    hashAuditEvent sha256 fmt (rowToEvent (rowOfDraft sha256 fmt draft now)) draft.prevHash =
      (rowOfDraft sha256 fmt draft now).hash := by
  have hcovered : (rowToEvent (rowOfDraft sha256 fmt draft now)).Covered draft := by
    refine ⟨?_, congrArg (Json.ordered notProto) (congrArg Json.obj ?_)⟩
    · rw [AuditEvent.mk.injEq]
      exact ⟨rfl, rfl, rfl, rfl, rfl, rfl, rfl, rfl, rfl, rfl, rfl, rfl, hat.symm⟩
    · exact toJsonFields_ofJsonFields (toJsonFields draft.metadata)
  have hcanonical : canonicalJson fmt (auditHashPayload (rowToEvent (rowOfDraft sha256 fmt draft now))) =
      canonicalJson fmt (auditHashPayload draft) :=
    (canonicalJson_payload_eq_iff hrow hclean).mpr hcovered
  rw [hashAuditEvent, computeAuditHash, hcanonical]
  rfl

section NextRow

attribute [local irreducible] scrubAuditInput toISOString

variable (sha256 fmt) in
theorem stored_nextRow (input : AuditLogInput) (last : Option AuditEventRow) (m : AuditMemory) :
    (nextRow sha256 fmt input last m).Stored := by
  obtain ⟨hclient, hscan, hactor, htarget⟩ := input.ids
  refine ⟨⟨m.uuid.property, hclient, hscan, hactor, htarget⟩, input.action_mem, m.now.property,
    toJsonFields (scrubAuditInput input).2, rfl, ?_⟩
  exact distinct_toJson (scrubAuditInput_clean input).2 _ rfl

theorem hash_nextRow (input : AuditLogInput) (last : Option AuditEventRow) (m : AuditMemory) :
    hashAuditEvent sha256 fmt (rowToEvent (nextRow sha256 fmt input last m))
        ((last.map AuditEventRow.hash).getD "") =
      (nextRow sha256 fmt input last m).hash :=
  hash_rowOfDraft (scrubAuditInput_clean input) (stored_nextRow sha256 fmt input last m).clean rfl

end NextRow

/-! ## The invariant -/

/-- What was the last row of a client before some of its rows were created. -/
def WasLast (t : AuditTable) (clientId : ClientId) (last : Option AuditEventRow) : Prop :=
  ∃ before after, t.ofClient clientId = before ++ after ∧ last = before.getLast?

/-- The events of every client are a chain, the rows are as an append makes them, and the appends know
last rows. -/
structure LogSound (sha256 : String → String) (fmt : NumberFormat) (cfg : AuditConfig) : Prop where
  chain : ∀ clientId, Chained sha256 fmt "" 1 (cfg.world.events clientId)
  stored : ∀ row ∈ cfg.world.rows, row.Stored
  known : ∀ (n : ℕ) task, cfg.tasks[n]? = some task → ∀ m clientId last,
    ⟨m, .findLast clientId, .ok last⟩ ∈ task.trace → WasLast cfg.world clientId last

/-- A last row stays one when rows are added. -/
theorem WasLast.mono {last : Option AuditEventRow} (h : WasLast t clientId last)
    (hrows : ∃ more, t'.rows = t.rows ++ more) : WasLast t' clientId last := by
  obtain ⟨before, after, hclient, hlast⟩ := h
  obtain ⟨more, hmore⟩ := hrows
  refine ⟨before, after ++ more.filter (·.clientId = clientId), ?_, hlast⟩
  rw [AuditTable.ofClient, hmore, List.filter_append, ← AuditTable.ofClient, hclient, List.append_assoc]

/-- The number of the last event of a chain is the number of its events. -/
theorem lastSequence {rows : List AuditEventRow}
    (h : Chained sha256 fmt "" 1 (rows.map rowToEvent)) :
    (rows.getLast?.map AuditEventRow.sequence).getD 0 = rows.length := by
  induction rows using List.reverseRecOn with
  | nil => rfl
  | append_singleton rows row _ =>
    rw [List.map_append, List.map_singleton, chained_snoc] at h
    rw [List.getLast?_concat, List.length_append, List.length_singleton, Nat.add_comm]
    simpa [rowToEvent] using h.2.1

theorem lastHash_rows (rows : List AuditEventRow) :
    lastHash "" (rows.map rowToEvent) = (rows.getLast?.map AuditEventRow.hash).getD "" := by
  rw [lastHash, List.getLast?_map, Option.map_map]
  rfl

/-- The next row is accepted only when what was the last row still is: if there are rows after it, the
first of them has the number of the next row. -/
theorem getLast?_of_create {input : AuditLogInput} {last : Option AuditEventRow} {m : AuditMemory}
    (hchain : Chained sha256 fmt "" 1 (t.events input.clientId))
    (hlast : WasLast t input.clientId last)
    (hcreate : t.create? (nextRow sha256 fmt input last m) = some t') :
    last = (t.ofClient input.clientId).getLast? := by
  obtain ⟨before, after, hclient, rfl⟩ := hlast
  rw [AuditTable.events, hclient, List.map_append, chained_append] at hchain
  obtain ⟨hbefore, hafter⟩ := hchain
  cases after with
  | nil => rw [hclient, List.append_nil]
  | cons row after =>
    obtain ⟨hfree, -⟩ := AuditTable.create?_eq_some hcreate
    obtain ⟨⟨hsequence, -, -⟩, -⟩ := hafter
    have hmem : row ∈ t.ofClient input.clientId := by
      rw [hclient]
      simp
    obtain ⟨hrow, hrowClient⟩ := List.mem_filter.mp hmem
    refine absurd (List.mem_map.mpr ⟨row, hrow, ?_⟩) hfree
    have hnext : (nextRow sha256 fmt input before.getLast? m).sequence = before.length + 1 :=
      congrArg (· + 1) (lastSequence hbefore)
    have hplace : row.sequence = 1 + before.length := by
      simpa [rowToEvent] using hsequence
    rw [AuditEventRow.place, AuditEventRow.place, hnext, hplace, Nat.add_comm]
    exact congrArg (·, _) (of_decide_eq_true hrowClient)

/-- An accepted row continues the chain of its client. -/
theorem chained_create {input : AuditLogInput} {last : Option AuditEventRow} {m : AuditMemory}
    (hchain : ∀ clientId, Chained sha256 fmt "" 1 (t.events clientId))
    (hlast : WasLast t input.clientId last)
    (hcreate : t.create? (nextRow sha256 fmt input last m) = some t') (clientId : ClientId) :
    Chained sha256 fmt "" 1 (t'.events clientId) := by
  have hcurrent := getLast?_of_create (hchain input.clientId) hlast hcreate
  obtain ⟨-, hrows⟩ := AuditTable.create?_eq_some hcreate
  have hnext : (nextRow sha256 fmt input last m).clientId = input.clientId := rfl
  rw [AuditTable.events, AuditTable.ofClient_create hrows, hnext, List.map_append]
  by_cases hclient : input.clientId = clientId
  · subst hclient
    have hprev : lastHash "" (t.events input.clientId) = (last.map AuditEventRow.hash).getD "" := by
      rw [hcurrent]
      exact lastHash_rows _
    rw [if_pos rfl, List.map_singleton, chained_snoc]
    refine ⟨hchain _, ?_, ?_, ?_⟩
    · show (last.map AuditEventRow.sequence).getD 0 + 1 = _
      rw [hcurrent, lastSequence (hchain _), List.length_map, Nat.add_comm]
    · exact hprev.symm
    · exact hprev ▸ hash_nextRow input last m
  · rw [if_neg hclient, List.map_nil, List.append_nil]
    exact hchain clientId

/-- What an operation does to the table: nothing, or it creates its row. -/
theorem performAudit_table {ch : DbChoice} {op : AuditOp} (h : (performAudit t ch op).1 = t') :
    t' = t ∨ ∃ row, op = .create row ∧ t.create? row = some t' := by
  subst h
  cases op with
  | findLast clientId => cases ch <;> exact .inl rfl
  | create row =>
    cases hcreate : t.create? row with
    | none => cases ch <;> simp [performAudit, hcreate]
    | some t' => cases ch <;> simp [performAudit, hcreate]

/-- What a read answers was the last row. -/
theorem wasLast_of_performAudit {ch : DbChoice} {last : Option AuditEventRow}
    (hchain : Chained sha256 fmt "" 1 (t.events clientId))
    (h : (performAudit t ch (.findLast clientId)).2 = .ok last) : WasLast t clientId last := by
  cases ch with
  | answers =>
    cases h
    exact ⟨t.ofClient clientId, [], (List.append_nil _).symm, findLast_eq hchain⟩
  | aborts | answerLost => cases h

variable {cfg cfg' : AuditConfig} {e : Event AuditLogInput AuditOp AuditOp.Ans AuditMemory AuditErr}

/-- What a step does to the table: nothing, or it creates the next row of an append. -/
theorem world_of_step (hstep : Step (auditSystem sha256 fmt) cfg e cfg')
    (hlawful : cfg.Lawful (appendProtocol sha256 fmt)) (h : LogSound sha256 fmt cfg) :
    cfg'.world = cfg.world ∨ ∃ input last m, WasLast cfg.world input.clientId last ∧
      cfg.world.create? (nextRow sha256 fmt input last m) = some cfg'.world := by
  cases hstep with
  | enter hc =>
    cases hc
    exact .inl rfl
  | env he =>
    cases he
    exact .inl rfl
  | issue | leave | crash => exact .inl rfl
  | @perform n task m op k ch htask hphase w r hperform =>
    obtain hworld | ⟨row, rfl, hcreate⟩ := performAudit_table (congrArg Prod.fst hperform)
    · exact .inl hworld
    · obtain ⟨m₀, hread | ⟨m₁, last, tr, htrace, hrow⟩⟩ := hlawful.waiting htask hphase
      · cases hread
      · cases hrow
        refine .inr ⟨task.call, last, m₀, h.known n task htask m₁ _ last ?_, hcreate⟩
        rw [htrace]
        exact List.mem_cons_self

/-- What a read that a step answers has found was the last row. -/
theorem known_of_performed {n : ℕ} {input : AuditLogInput} {clientId : ClientId}
    {last : Option AuditEventRow} (h : LogSound sha256 fmt cfg)
    (hstep : Step (auditSystem sha256 fmt) cfg (.performed n input (.findLast clientId) (.ok last)) cfg') :
    WasLast cfg.world clientId last := by
  cases hstep with
  | @perform _ task _ _ _ ch htask hphase w r hperform =>
    exact wasLast_of_performAudit (h.chain clientId) (congrArg Prod.snd hperform)

/-- A step keeps the log sound. -/
theorem LogSound.step (hstep : Step (auditSystem sha256 fmt) cfg e cfg')
    (hlawful : cfg.Lawful (appendProtocol sha256 fmt)) (h : LogSound sha256 fmt cfg) :
    LogSound sha256 fmt cfg' := by
  have hworld := world_of_step hstep hlawful h
  have hrows : ∃ more, cfg'.world.rows = cfg.world.rows ++ more := by
    obtain hsame | ⟨input, last, m, -, hcreate⟩ := hworld
    · exact ⟨[], by rw [hsame, List.append_nil]⟩
    · exact ⟨_, (AuditTable.create?_eq_some hcreate).2⟩
  refine ⟨fun clientId => ?_, fun row hrow => ?_, fun n task htask m clientId last hmem => ?_⟩
  · obtain hsame | ⟨input, last, m, hlast, hcreate⟩ := hworld
    · rw [hsame]
      exact h.chain clientId
    · exact chained_create h.chain hlast hcreate clientId
  · obtain hsame | ⟨input, last, m, -, hcreate⟩ := hworld
    · exact h.stored row (hsame ▸ hrow)
    · rw [(AuditTable.create?_eq_some hcreate).2] at hrow
      obtain hrow | hrow := List.mem_append.mp hrow
      · exact h.stored row hrow
      · rw [List.mem_singleton.mp hrow]
        exact stored_nextRow sha256 fmt input last m
  · obtain ⟨-, htrace⟩ | ⟨task', htask', -, htrace | ⟨m', op, k, r, rfl, -, htrace⟩⟩ := hstep.trace htask
    · rw [htrace] at hmem
      cases hmem
    · exact (h.known n task' htask' m clientId last (htrace ▸ hmem)).mono hrows
    · rw [htrace] at hmem
      obtain heq | hmem := List.mem_cons.mp hmem
      · cases heq
        exact (known_of_performed h hstep).mono hrows
      · exact (h.known n task' htask' m clientId last hmem).mono hrows

/-- The log is sound in every state that interleaved appends reach. -/
theorem AuditReaches.sound {m : AuditMemory} (hreach : AuditReaches sha256 fmt m cfg) :
    LogSound sha256 fmt cfg := by
  have hinit : (initialAudit m).Lawful (appendProtocol sha256 fmt) := by
    intro n task htask
    cases htask
  induction hreach with
  | start =>
    refine ⟨fun _ => trivial, fun _ hrow => (nomatch hrow), fun n task htask => ?_⟩
    cases htask
  | step hreach _ hstep ih =>
    exact ih.step hstep (Reachable.lawful append_obeys (fun _ _ _ _ _ _ => trivial) hinit hreach)

end MontrSecure
