import Mathlib.Logic.Function.Basic
import MontrSecure.Contracts.Scan
import MontrSecure.Machine.Runs

/-!
# The event bus

`EventBus` of `packages/orchestrator/src/events.ts`: the retained history of each scan, the subscribers, and the
calls of `next()` that wait for more. A call runs up to its `await` without interruption; between such turns calls
of `emit`, `end`, `subscribe` and `next` come in any order, and the woken calls go on in any order.
-/

namespace MontrSecure

/-- The scan of an event. -/
def PipelineEvent.scanId : PipelineEvent → ScanId
  | .scanStarted scanId _ | .layerStarted scanId _ _ | .layerCompleted scanId _ _ | .gateRequired scanId _ _
  | .budgetWarning scanId _ _ _ | .budgetExceeded scanId _ _ _ | .killed scanId _ _ | .failed scanId _ _ _
  | .resumed scanId _ _ | .scanCompleted scanId _ _ => scanId

/-! ## The bus -/

/-- What `subscribe` closes over; `delivered` is what calls of `next()` have returned to it. -/
structure Subscriber where
  scanId : ScanId
  index : ℕ := 0
  delivered : List PipelineEvent := []

/-- Where a call of `next()` is. -/
inductive NextState where
  /-- It awaits a promise whose `resolve` is among the waiters. -/
  | suspended
  /-- Its promise is resolved, and it is to go through the loop again. -/
  | woken
  /-- It has returned an event, or that the stream is done. -/
  | returned (value : Option PipelineEvent)

/-- A call of `next()` of a subscriber. -/
structure NextCall where
  subscriber : ℕ
  state : NextState := .woken

/-- `EventBus`, with its subscribers and their calls. A waiter is the number of the call it resolves. -/
structure EventBus where
  history : ScanId → List PipelineEvent := fun _ => []
  waiters : ScanId → List ℕ := fun _ => []
  ended : ScanId → Bool := fun _ => false
  subscribers : List Subscriber := []
  calls : List NextCall := []

/-- What happens to the bus. -/
inductive EventAction where
  | emit (event : PipelineEvent)
  | finish (scanId : ScanId)
  | clear (scanId : ScanId)
  | subscribe (scanId : ScanId)
  | next (subscriber : ℕ)
  | resume (call : ℕ)

namespace EventBus

variable (bus : EventBus)

/-- `wake`. -/
def wake (scanId : ScanId) : EventBus :=
  { bus with
    waiters := Function.update bus.waiters scanId []
    calls := bus.calls.mapIdx fun i c => if i ∈ bus.waiters scanId then { c with state := .woken } else c }

/-- `emit`. -/
def emit (event : PipelineEvent) : EventBus :=
  wake { bus with history := Function.update bus.history event.scanId (bus.history event.scanId ++ [event]) }
    event.scanId

/-- `end`. -/
def finish (scanId : ScanId) : EventBus :=
  wake { bus with ended := Function.update bus.ended scanId true } scanId

/-- `clear`. -/
def clear (scanId : ScanId) : EventBus :=
  { bus with
    history := Function.update bus.history scanId []
    waiters := Function.update bus.waiters scanId []
    ended := Function.update bus.ended scanId false }

/-- The call of that number is now there. -/
def withCall (call : ℕ) (c : NextCall) (state : NextState) : EventBus :=
  { bus with calls := bus.calls.set call { c with state } }

/-- The call returns an event of the history. -/
def deliver (call : ℕ) (c : NextCall) (s : Subscriber) (value : PipelineEvent) : EventBus :=
  { bus.withCall call c (.returned (some value)) with
    subscribers := bus.subscribers.set c.subscriber
      { s with index := s.index + 1, delivered := s.delivered ++ [value] } }

/-- The call awaits a promise. -/
def suspend (call : ℕ) (c : NextCall) (scanId : ScanId) : EventBus :=
  { bus.withCall call c .suspended with
    waiters := Function.update bus.waiters scanId (bus.waiters scanId ++ [call]) }

/-- One turn of the loop of `next()`, up to its `return` or its `await`. -/
def turn (call : ℕ) (c : NextCall) (s : Subscriber) : EventBus :=
  match (bus.history s.scanId)[s.index]? with
  | some value => bus.deliver call c s value
  | none =>
    if bus.ended s.scanId then bus.withCall call c (.returned none) else bus.suspend call c s.scanId

/-- What an action does; only a subscriber calls `next()`, and only a woken call goes on. -/
def step : EventAction → EventBus → Option EventBus
  | .emit event, bus => some (bus.emit event)
  | .finish scanId, bus => some (bus.finish scanId)
  | .clear scanId, bus => some (bus.clear scanId)
  | .subscribe scanId, bus => some { bus with subscribers := bus.subscribers ++ [{ scanId }] }
  | .next i, bus =>
    bus.subscribers[i]?.map fun s =>
      turn { bus with calls := bus.calls ++ [{ subscriber := i }] } bus.calls.length { subscriber := i } s
  | .resume call, bus =>
    bus.calls[call]?.bind fun c =>
      match c.state with
      | .woken => bus.subscribers[c.subscriber]?.map (bus.turn call c)
      | _ => none

/-! ## Nothing is lost -/

/-- The events of a scan that were emitted, in order. -/
def emitted (scanId : ScanId) (actions : List EventAction) : List PipelineEvent :=
  actions.filterMap fun a =>
    match a with
    | .emit event => if event.scanId = scanId then some event else none
    | _ => none

/-- The stream of a scan has lost nothing: what a subscriber was given is what was emitted up to its index, and
a call is suspended only among the waiters, at the end of a history that may still grow. -/
structure Lossless (scanId : ScanId) (actions : List EventAction) (bus : EventBus) : Prop where
  history : bus.history scanId = emitted scanId actions
  delivered : ∀ s ∈ bus.subscribers, s.scanId = scanId →
    s.index ≤ (bus.history scanId).length ∧ s.delivered = (bus.history scanId).take s.index
  subscribed : ∀ c ∈ bus.calls, c.subscriber < bus.subscribers.length
  waiting : ∀ i c s, bus.calls[i]? = some c → c.state = .suspended →
    bus.subscribers[c.subscriber]? = some s → s.scanId = scanId →
      i ∈ bus.waiters scanId ∧ (bus.history scanId).length ≤ s.index ∧ bus.ended scanId = false

section Lossless

variable {bus bus' : EventBus} {scanId k : ScanId} {actions : List EventAction} {i call : ℕ} {c : NextCall}
  {s : Subscriber} {a : EventAction}

theorem lossless_empty : Lossless scanId [] {} := by
  refine ⟨rfl, ?_, ?_, ?_⟩
  · exact fun s hs => absurd hs List.not_mem_nil
  · exact fun c hc => absurd hc List.not_mem_nil
  · intro i c s hc
    simp at hc

/-- A call that is still suspended after a wake-up was suspended, and not among those woken. -/
theorem exists_of_wake (h : (bus.wake k).calls[i]? = some c) : ∃ c₀, bus.calls[i]? = some c₀ ∧
    c.subscriber = c₀.subscriber ∧ (c.state = .suspended → c₀.state = .suspended ∧ i ∉ bus.waiters k) := by
  simp only [wake, List.getElem?_mapIdx, Option.map_eq_some_iff] at h
  obtain ⟨c₀, hc₀, rfl⟩ := h
  refine ⟨c₀, hc₀, ?_⟩
  by_cases hi : i ∈ bus.waiters k
  · rw [if_pos hi]
    exact ⟨rfl, nofun⟩
  · rw [if_neg hi]
    exact ⟨rfl, fun hsuspended => ⟨hsuspended, hi⟩⟩

/-- A wake-up leaves every call with its subscriber. -/
theorem subscribed_wake (h : ∀ c ∈ bus.calls, c.subscriber < bus.subscribers.length) :
    ∀ c ∈ (bus.wake k).calls, c.subscriber < (bus.wake k).subscribers.length := by
  intro c hc
  obtain ⟨i, hi⟩ := List.getElem?_of_mem hc
  obtain ⟨c₀, hc₀, hsubscriber, -⟩ := exists_of_wake hi
  rw [hsubscriber]
  exact h c₀ (List.mem_of_getElem? hc₀)

/-- Who waits for a scan is woken when the scan is: nobody is left suspended. Waiters for another scan are not
touched. -/
theorem Lossless.waiting_wake (h : bus.Lossless scanId actions) {woken : EventBus}
    (hwoken : woken.calls = bus.calls ∧ woken.waiters = bus.waiters ∧ woken.subscribers = bus.subscribers)
    (hsame : k ≠ scanId →
      woken.history scanId = bus.history scanId ∧ woken.ended scanId = bus.ended scanId) :
    ∀ i c s, (woken.wake k).calls[i]? = some c → c.state = .suspended →
      (woken.wake k).subscribers[c.subscriber]? = some s → s.scanId = scanId →
        i ∈ (woken.wake k).waiters scanId ∧ ((woken.wake k).history scanId).length ≤ s.index ∧
          (woken.wake k).ended scanId = false := by
  intro i c s hc hsuspended hs hscan
  obtain ⟨hcalls, hwaiters, hsubscribers⟩ := hwoken
  obtain ⟨c₀, hc₀, hsubscriber, hstate⟩ := exists_of_wake hc
  obtain ⟨hsuspended, hnot⟩ := hstate hsuspended
  have hs : bus.subscribers[c₀.subscriber]? = some s := by
    rw [← hsubscriber, ← hsubscribers]
    exact hs
  obtain ⟨hmem, hlength, hended⟩ := h.waiting i c₀ s (hcalls ▸ hc₀) hsuspended hs hscan
  by_cases hk : k = scanId
  · rw [hwaiters, hk] at hnot
    exact absurd hmem hnot
  · obtain ⟨hhistory, hstill⟩ := hsame hk
    refine ⟨?_, ?_, ?_⟩
    · show i ∈ Function.update woken.waiters k [] scanId
      rw [Function.update_of_ne (Ne.symm hk), hwaiters]
      exact hmem
    · show (woken.history scanId).length ≤ s.index
      rw [hhistory]
      exact hlength
    · show woken.ended scanId = false
      rw [hstill]
      exact hended

theorem emitted_append : emitted scanId (actions ++ [a]) = emitted scanId actions ++ emitted scanId [a] :=
  List.filterMap_append

/-- An event is added to the history of its scan; no other history changes. -/
theorem Lossless.emit (h : bus.Lossless scanId actions) (event : PipelineEvent) :
    (bus.emit event).Lossless scanId (actions ++ [.emit event]) := by
  have hhistory : (bus.emit event).history scanId = bus.history scanId ++ emitted scanId [.emit event] := by
    show Function.update bus.history event.scanId (bus.history event.scanId ++ [event]) scanId = _
    by_cases hscan : event.scanId = scanId
    · rw [hscan, Function.update_self]
      simp [emitted, hscan]
    · rw [Function.update_of_ne (Ne.symm hscan)]
      simp [emitted, hscan]
  refine ⟨?_, fun s hs hscan => ?_, subscribed_wake h.subscribed, ?_⟩
  · rw [hhistory, emitted_append, h.history]
  · obtain ⟨hle, hdelivered⟩ := h.delivered s hs hscan
    rw [hhistory, List.length_append, List.take_append_of_le_length hle]
    exact ⟨by omega, hdelivered⟩
  · exact h.waiting_wake ⟨rfl, rfl, rfl⟩ fun hk => ⟨Function.update_of_ne (Ne.symm hk) _ _, rfl⟩

theorem Lossless.finish (h : bus.Lossless scanId actions) (k : ScanId) :
    (bus.finish k).Lossless scanId (actions ++ [.finish k]) := by
  refine ⟨?_, h.delivered, subscribed_wake h.subscribed, ?_⟩
  · rw [emitted_append]
    exact h.history.trans (List.append_nil _).symm
  · exact h.waiting_wake ⟨rfl, rfl, rfl⟩ fun hk => ⟨rfl, Function.update_of_ne (Ne.symm hk) _ _⟩

/-- What is dropped of another scan is not missed. -/
theorem Lossless.clear (h : bus.Lossless scanId actions) (hk : k ≠ scanId) :
    (bus.clear k).Lossless scanId (actions ++ [.clear k]) := by
  have hhistory : (bus.clear k).history scanId = bus.history scanId :=
    Function.update_of_ne (Ne.symm hk) _ _
  have hwaiters : (bus.clear k).waiters scanId = bus.waiters scanId :=
    Function.update_of_ne (Ne.symm hk) _ _
  have hended : (bus.clear k).ended scanId = bus.ended scanId :=
    Function.update_of_ne (Ne.symm hk) _ _
  refine ⟨?_, ?_, h.subscribed, ?_⟩
  · rw [emitted_append, hhistory]
    exact h.history.trans (List.append_nil _).symm
  · rw [hhistory]
    exact h.delivered
  · rw [hhistory, hwaiters, hended]
    exact h.waiting

theorem Lossless.subscribe (h : bus.Lossless scanId actions) (k : ScanId) :
    ({ bus with subscribers := bus.subscribers ++ [{ scanId := k }] } : EventBus).Lossless scanId
      (actions ++ [.subscribe k]) := by
  refine ⟨?_, fun s hs hscan => ?_, fun c hc => ?_, fun i c s hc hsuspended hs hscan => ?_⟩
  · rw [emitted_append]
    exact h.history.trans (List.append_nil _).symm
  · obtain hs | hs := List.mem_append.mp hs
    · exact h.delivered s hs hscan
    · obtain rfl := List.mem_singleton.mp hs
      exact ⟨Nat.zero_le _, List.take_zero.symm⟩
  · rw [List.length_append]
    exact Nat.lt_add_right _ (h.subscribed c hc)
  · -- the new subscriber has no calls
    have hlt := h.subscribed c (List.mem_of_getElem? hc)
    rw [List.getElem?_append_left hlt] at hs
    exact h.waiting i c s hc hsuspended hs hscan

/-- A new call has yet to go through the loop. -/
theorem Lossless.newCall (h : bus.Lossless scanId actions) (hs : bus.subscribers[i]? = some s) :
    ({ bus with calls := bus.calls ++ [{ subscriber := i }] } : EventBus).Lossless scanId actions := by
  have hi : i < bus.subscribers.length := (List.getElem?_eq_some_iff.mp hs).1
  refine ⟨h.history, h.delivered, fun c hc => ?_, fun j c s hc hsuspended hs hscan => ?_⟩
  · obtain hc | hc := List.mem_append.mp hc
    · exact h.subscribed c hc
    · rw [List.mem_singleton.mp hc]
      exact hi
  · rw [List.getElem?_append] at hc
    split at hc
    · exact h.waiting j c s hc hsuspended hs hscan
    · have hnew := List.mem_singleton.mp (List.mem_of_getElem? hc)
      rw [hnew] at hsuspended
      cases hsuspended

/-- The other calls are as they were. -/
theorem calls_withCall {state : NextState} {d : NextCall} (h : (bus.withCall call c state).calls[i]? = some d) :
    i = call ∧ d = { c with state } ∨ bus.calls[i]? = some d := by
  rw [withCall, List.getElem?_set] at h
  by_cases hi : call = i
  · rw [if_pos hi] at h
    split at h
    · exact .inl ⟨hi.symm, (Option.some.inj h).symm⟩
    · cases h
  · rw [if_neg hi] at h
    exact .inr h

theorem subscribed_withCall {state : NextState} (h : ∀ d ∈ bus.calls, d.subscriber < bus.subscribers.length)
    (hc : c.subscriber < bus.subscribers.length) :
    ∀ d ∈ (bus.withCall call c state).calls, d.subscriber < bus.subscribers.length := by
  intro d hd
  obtain ⟨j, hj⟩ := List.getElem?_of_mem hd
  obtain ⟨-, rfl⟩ | hj := calls_withCall hj
  · exact hc
  · exact h d (List.mem_of_getElem? hj)

/-- A call that gives the next event of the history. -/
theorem Lossless.deliver (h : bus.Lossless scanId actions) (hs : bus.subscribers[c.subscriber]? = some s)
    {value : PipelineEvent} (hvalue : (bus.history s.scanId)[s.index]? = some value) :
    (bus.deliver call c s value).Lossless scanId actions := by
  obtain ⟨hsub, -⟩ := List.getElem?_eq_some_iff.mp hs
  refine ⟨h.history, fun t ht hscan => ?_, fun d hd => ?_, fun j d t hd hsuspended ht hscan => ?_⟩
  · obtain ht | rfl := List.mem_or_eq_of_mem_set ht
    · exact h.delivered t ht hscan
    · -- the subscriber that was given the event
      have hscan : s.scanId = scanId := hscan
      obtain ⟨-, hdelivered⟩ := h.delivered s (List.mem_of_getElem? hs) hscan
      rw [hscan] at hvalue
      obtain ⟨hlt, hget⟩ := List.getElem?_eq_some_iff.mp hvalue
      refine ⟨hlt, ?_⟩
      show s.delivered ++ [value] = (bus.history scanId).take (s.index + 1)
      rw [List.take_succ_eq_append_getElem hlt, hget, hdelivered]
  · show d.subscriber < (bus.subscribers.set _ _).length
    rw [List.length_set]
    exact subscribed_withCall h.subscribed hsub d hd
  · obtain ⟨-, rfl⟩ | hd := calls_withCall hd
    · cases hsuspended
    · rw [EventBus.deliver, List.getElem?_set] at ht
      by_cases hsame : c.subscriber = d.subscriber
      · -- a suspended call of this subscriber would be at the end of the history
        rw [if_pos hsame, if_pos hsub] at ht
        obtain rfl := Option.some.inj ht
        have hscan : s.scanId = scanId := hscan
        obtain ⟨-, hend, -⟩ := h.waiting j d s hd hsuspended (hsame ▸ hs) hscan
        rw [hscan] at hvalue
        obtain ⟨hlt, -⟩ := List.getElem?_eq_some_iff.mp hvalue
        exact absurd hlt (Nat.not_lt.mpr hend)
      · rw [if_neg hsame] at ht
        exact h.waiting j d t hd hsuspended ht hscan

/-- A call that waits at the end of the history. -/
theorem Lossless.suspend (h : bus.Lossless scanId actions) (hs : bus.subscribers[c.subscriber]? = some s)
    (hend : (bus.history s.scanId).length ≤ s.index) (hended : bus.ended s.scanId = false) :
    (bus.suspend call c s.scanId).Lossless scanId actions := by
  obtain ⟨hsub, -⟩ := List.getElem?_eq_some_iff.mp hs
  have hwaiters : ∀ j ∈ bus.waiters scanId, j ∈ (bus.suspend call c s.scanId).waiters scanId := by
    intro j hj
    by_cases hscan : scanId = s.scanId
    · show j ∈ Function.update bus.waiters _ _ _
      rw [← hscan, Function.update_self]
      exact List.mem_append_left _ hj
    · show j ∈ Function.update bus.waiters _ _ _
      rwa [Function.update_of_ne hscan]
  refine ⟨h.history, h.delivered, subscribed_withCall h.subscribed hsub,
    fun j d t hd hsuspended ht hscan => ?_⟩
  obtain ⟨rfl, rfl⟩ | hd := calls_withCall hd
  · obtain rfl : s = t := Option.some.inj (hs.symm.trans ht)
    refine ⟨?_, hscan ▸ hend, hscan ▸ hended⟩
    show j ∈ Function.update bus.waiters _ _ _
    rw [hscan, Function.update_self]
    exact List.mem_append_right _ (List.mem_singleton_self j)
  · obtain ⟨hmem, hrest⟩ := h.waiting j d t hd hsuspended ht hscan
    exact ⟨hwaiters j hmem, hrest⟩

/-- A call that says the stream is done. -/
theorem Lossless.returnDone (h : bus.Lossless scanId actions) (hs : bus.subscribers[c.subscriber]? = some s) :
    (bus.withCall call c (.returned none)).Lossless scanId actions := by
  obtain ⟨hsub, -⟩ := List.getElem?_eq_some_iff.mp hs
  refine ⟨h.history, h.delivered, subscribed_withCall h.subscribed hsub,
    fun j d t hd hsuspended ht hscan => ?_⟩
  obtain ⟨-, rfl⟩ | hd := calls_withCall hd
  · cases hsuspended
  · exact h.waiting j d t hd hsuspended ht hscan

theorem Lossless.turn (h : bus.Lossless scanId actions) (hs : bus.subscribers[c.subscriber]? = some s) :
    (bus.turn call c s).Lossless scanId actions := by
  unfold EventBus.turn
  cases hvalue : (bus.history s.scanId)[s.index]? with
  | some value => exact h.deliver hs hvalue
  | none =>
    by_cases hended : bus.ended s.scanId = true
    · dsimp only
      rw [if_pos hended]
      exact h.returnDone hs
    · dsimp only
      rw [if_neg hended]
      exact h.suspend hs (List.getElem?_eq_none_iff.mp hvalue) (Bool.eq_false_iff.mpr hended)

/-- The actions of calls emit nothing. -/
theorem Lossless.of_silent (h : bus.Lossless scanId actions) (ha : emitted scanId [a] = []) :
    bus.Lossless scanId (actions ++ [a]) := by
  refine ⟨?_, h.delivered, h.subscribed, h.waiting⟩
  rw [emitted_append, ha, List.append_nil]
  exact h.history

/-- Whatever happens to the bus, short of dropping the history of the scan. -/
theorem Lossless.step (ha : a ≠ .clear scanId) (h : bus.Lossless scanId actions)
    (hstep : EventBus.step a bus = some bus') : bus'.Lossless scanId (actions ++ [a]) := by
  cases a with
  | emit event =>
    obtain rfl := Option.some.inj hstep
    exact h.emit event
  | finish k =>
    obtain rfl := Option.some.inj hstep
    exact h.finish k
  | clear k =>
    obtain rfl := Option.some.inj hstep
    refine h.clear ?_
    rintro rfl
    exact ha rfl
  | subscribe k =>
    obtain rfl := Option.some.inj hstep
    exact h.subscribe k
  | next i =>
    obtain ⟨s, hs, rfl⟩ := Option.map_eq_some_iff.mp hstep
    exact ((h.newCall hs).turn hs).of_silent rfl
  | resume call =>
    obtain ⟨c, hc, hstep⟩ := Option.bind_eq_some_iff.mp hstep
    cases hstate : c.state with
    | woken =>
      rw [hstate] at hstep
      obtain ⟨s, hs, rfl⟩ := Option.map_eq_some_iff.mp hstep
      exact (h.turn hs).of_silent rfl
    | suspended =>
      rw [hstate] at hstep
      cases hstep
    | returned value =>
      rw [hstate] at hstep
      cases hstep

/-- In any run: a scan whose history is not dropped gives each of its subscribers a prefix of what was emitted, in
order; and no call is suspended where there is something to return to it. -/
theorem delivers_history (scanId : ScanId) (actions : List EventAction) (bus : EventBus)
    (hclear : .clear scanId ∉ actions) (hrun : Machine.run EventBus.step actions {} = some bus) :
    bus.history scanId = emitted scanId actions ∧
      (∀ s ∈ bus.subscribers, s.scanId = scanId →
        s.delivered <+: emitted scanId actions ∧ s.delivered.length = s.index) ∧
      ∀ c ∈ bus.calls, c.state = .suspended → ∀ s, bus.subscribers[c.subscriber]? = some s →
        s.scanId = scanId → ¬(s.index < (bus.history scanId).length ∨ bus.ended scanId = true) := by
  have h : bus.Lossless scanId actions := by
    refine Machine.holds_of_run (P := (· ≠ .clear scanId)) lossless_empty
      (fun _ _ _ _ ha h hstep => h.step ha hstep) (fun a ha => ?_) hrun
    rintro rfl
    exact hclear ha
  refine ⟨h.history, fun s hs hscan => ?_, fun c hc hsuspended s hs hscan => ?_⟩
  · obtain ⟨hle, hdelivered⟩ := h.delivered s hs hscan
    rw [← h.history, hdelivered]
    exact ⟨List.take_prefix _ _, List.length_take_of_le hle⟩
  · obtain ⟨i, hi⟩ := List.getElem?_of_mem hc
    obtain ⟨-, hend, hended⟩ := h.waiting i c s hi hsuspended hs hscan
    rintro (hlt | hdone)
    · exact absurd hlt (Nat.not_lt.mpr hend)
    · rw [hended] at hdone
      cases hdone

/-- A call waits for the first event of a scan, and the next one for the end of its stream. -/
private def waitingRun : List EventAction :=
  [.subscribe "scan", .next 0, .emit (.scanStarted "scan" 0), .resume 0, .next 0, .finish "scan", .resume 1]

theorem delivers_history_waiting : ∃ bus, Machine.run EventBus.step waitingRun {} = some bus ∧
    ∀ s ∈ bus.subscribers, s.scanId = "scan" →
      s.delivered <+: emitted "scan" waitingRun ∧ s.delivered.length = s.index :=
  ⟨_, rfl, (delivers_history "scan" waitingRun _ (by simp [waitingRun]) rfl).2.1⟩

end Lossless

end EventBus

end MontrSecure
