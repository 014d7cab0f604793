import MontrSecure.Async.Running
import MontrSecure.Fix.Generate

/-!
# The conversation of the fix agent

The loop of `packages/fix/src/generate.ts` has two budgets: a round of tools uses up one, an attempt the other.
A run asks the model at most as often as both allow. Every transcript it sends is in order: a tool message stands
behind the turn that called the tool, at the place of its call. What is returned is the first attempt that is
accepted, or the last one.
-/

namespace MontrSecure

open Async Outcome

/-! ## Transcripts -/

/-- The message is what comes of the call. -/
structure FixToolCall.AnsweredBy (call : FixToolCall) (message : FixMessage) : Prop where
  role : message.role = "tool"
  toolCallId : message.toolCallId = some call.id
  name : message.name = some call.name

/-- The `i`-th message answers the `call`-th tool call of the assistant's turn at `turn`: there are as many
messages between them as calls before that one, and all are from tools. -/
structure AnswersCall (messages : List FixMessage) (i turn call : ℕ) : Prop where
  answered : ∃ asked toolCall message, messages[turn]? = some asked ∧ asked.role = "assistant" ∧
    asked.toolCalls[call]? = some toolCall ∧ messages[i]? = some message ∧ toolCall.AnsweredBy message
  between : ∀ j message, turn < j → j < i → messages[j]? = some message → message.role = "tool"
  place : i = turn + 1 + call

/-- Every tool message answers a call of the turn in front of it, which no other message answers. -/
def InOrder (messages : List FixMessage) : Prop :=
  ∀ i message, messages[i]? = some message → message.role = "tool" →
    ∃ turn call, AnswersCall messages i turn call ∧ ∀ j, AnswersCall messages j turn call → j = i

/-- A transcript grows by a message that is not from a tool, or by a turn with the answers to all its calls. -/
inductive Transcript : List FixMessage → Prop where
  | nil : Transcript []
  | said {messages : List FixMessage} {message : FixMessage} (h : Transcript messages)
      (hrole : message.role ≠ "tool") : Transcript (messages ++ [message])
  | asked {messages results : List FixMessage} {turn : FixMessage} (h : Transcript messages)
      (hrole : turn.role = "assistant")
      (hanswers : List.Forall₂ FixToolCall.AnsweredBy turn.toolCalls results) :
      Transcript (messages ++ turn :: results)

theorem AnswersCall.append {messages : List FixMessage} {i turn call : ℕ} (h : AnswersCall messages i turn call)
    (more : List FixMessage) : AnswersCall (messages ++ more) i turn call := by
  obtain ⟨asked, toolCall, message, hasked, hrole, hcall, hmessage, hanswered⟩ := h.answered
  have hlen : i < messages.length := (List.getElem?_eq_some_iff.mp hmessage).1
  have hplace := h.place
  refine ⟨⟨asked, toolCall, message, ?_, hrole, hcall, ?_, hanswered⟩, fun j other hj hji hother => ?_, h.place⟩
  · rw [List.getElem?_append_left (by omega), hasked]
  · rw [List.getElem?_append_left hlen, hmessage]
  · rw [List.getElem?_append_left (by omega)] at hother
    exact h.between j other hj hji hother

/-- A tool message of a transcript answers a call. -/
theorem Transcript.answersCall {messages : List FixMessage} (h : Transcript messages) {i : ℕ}
    {message : FixMessage} (hmessage : messages[i]? = some message) (hrole : message.role = "tool") :
    ∃ turn call, AnswersCall messages i turn call := by
  induction h with
  | nil => simp at hmessage
  | @said messages last h hlast ih =>
    by_cases hlen : i < messages.length
    · rw [List.getElem?_append_left hlen] at hmessage
      obtain ⟨turn, call, hanswers⟩ := ih hmessage
      exact ⟨turn, call, hanswers.append _⟩
    · rw [List.getElem?_append_right (by omega)] at hmessage
      obtain rfl : last = message := by
        have := List.mem_of_getElem? hmessage
        simpa [eq_comm] using this
      exact absurd hrole hlast
  | @asked messages results turn h hturn hanswers ih =>
    by_cases hlen : i < messages.length
    · rw [List.getElem?_append_left hlen] at hmessage
      obtain ⟨turn, call, hanswers⟩ := ih hmessage
      exact ⟨turn, call, hanswers.append _⟩
    -- The message comes with the turn: as the turn itself, which is no tool, or as one of the results.
    obtain ⟨k, rfl⟩ := Nat.exists_eq_add_of_le (Nat.le_of_not_lt hlen)
    rw [List.getElem?_append_right (by omega), Nat.add_sub_cancel_left] at hmessage
    rcases k with _ | call
    · simp only [List.getElem?_cons_zero, Option.some.injEq] at hmessage
      subst hmessage
      rw [hturn] at hrole
      exact absurd hrole (by decide)
    · rw [List.getElem?_cons_succ] at hmessage
      obtain ⟨hcall, rfl⟩ := List.getElem?_eq_some_iff.mp hmessage
      have hcalls : call < turn.toolCalls.length := by rwa [hanswers.length_eq]
      refine ⟨messages.length, call, ⟨turn, turn.toolCalls[call], results[call], ?_, hturn, ?_, ?_, ?_⟩, ?_, by omega⟩
      · simp
      · simp [hcalls]
      · rw [List.getElem?_append_right (by omega)]
        simp [hcall]
      · exact hanswers.get hcalls hcall
      · intro j other hj hji hother
        rw [List.getElem?_append_right (by omega)] at hother
        obtain ⟨k, hk⟩ : ∃ k, j - messages.length = k + 1 := ⟨j - messages.length - 1, by omega⟩
        rw [hk, List.getElem?_cons_succ] at hother
        obtain ⟨hlt, rfl⟩ := List.getElem?_eq_some_iff.mp hother
        exact (hanswers.get (by rwa [hanswers.length_eq]) hlt).role

theorem Transcript.inOrder {messages : List FixMessage} (h : Transcript messages) : InOrder messages := by
  intro i message hmessage hrole
  obtain ⟨turn, call, hanswers⟩ := h.answersCall hmessage hrole
  exact ⟨turn, call, hanswers, fun j hj => hj.place.trans hanswers.place.symm⟩

/-! ## Attempts -/

/-- The model asks for tools. -/
def FixResponse.AsksForTools (response : FixResponse) : Prop :=
  response.stopReason = "tool_use" ∧ response.toolCalls ≠ []

instance (response : FixResponse) : Decidable response.AsksForTools := inferInstanceAs (Decidable (_ ∧ _))

/-- The attempts among the replies, with so many rounds of tools left. -/
def attemptsOf : ℕ → List FixResponse → List FixResponse
  | _, [] => []
  | 0, responses => responses
  | toolRounds + 1, response :: responses =>
    if response.AsksForTools then attemptsOf toolRounds responses
    else response :: attemptsOf (toolRounds + 1) responses

theorem attemptsOf_zero (responses : List FixResponse) : attemptsOf 0 responses = responses := by
  rcases responses with _ | ⟨response, responses⟩ <;> rfl

theorem length_attemptsOf_le (toolRounds : ℕ) (responses : List FixResponse) :
    (attemptsOf toolRounds responses).length ≤ responses.length := by
  induction responses generalizing toolRounds with
  | nil => simp [attemptsOf]
  | cons response responses ih =>
    rcases toolRounds with _ | toolRounds
    · rw [attemptsOf_zero]
    rw [attemptsOf]
    split
    · have := ih toolRounds
      simp only [List.length_cons]
      omega
    · simpa using ih (toolRounds + 1)

/-- The next reply asks for tools while there are rounds of tools left, or it is an attempt. -/
theorem attemptsOf_append (toolRounds : ℕ) (responses : List FixResponse) (response : FixResponse) :
    attemptsOf toolRounds (responses ++ [response]) =
      if responses.length < toolRounds + (attemptsOf toolRounds responses).length ∧ response.AsksForTools then
        attemptsOf toolRounds responses
      else attemptsOf toolRounds responses ++ [response] := by
  induction responses generalizing toolRounds with
  | nil =>
    rcases toolRounds with _ | toolRounds
    · simp [attemptsOf]
    · by_cases htools : response.AsksForTools <;> simp [attemptsOf, htools]
  | cons first responses ih =>
    rcases toolRounds with _ | toolRounds
    · simp [attemptsOf_zero]
    · rw [List.cons_append, attemptsOf, attemptsOf]
      by_cases htools : first.AsksForTools
      · have hlen : responses.length + 1 < toolRounds + 1 + (attemptsOf toolRounds responses).length ↔
            responses.length < toolRounds + (attemptsOf toolRounds responses).length := by omega
        simp only [htools, if_true, ih, List.length_cons, hlen]
      · simp only [htools, if_false, ih, List.length_cons, ← Nat.add_assoc, Nat.add_lt_add_iff_right]
        split <;> rfl

section Generate

variable (ctx : FixGenerationContext) (finding : ConfirmedFinding) (original : Option String)
  (strategy : Option FixStrategy)

/-- The proposal of an attempt. -/
def proposalOf (response : FixResponse) : LlmProposal :=
  { fixedSource := (interpretFixResponse ctx response.content original).fixedSource
    rationale := (interpretFixResponse ctx response.content original).rationale
    model := response.model }

/-- There is nothing to tell the model about the attempt. -/
def accepts (response : FixResponse) : Bool :=
  match judgeProposal ctx finding original strategy (interpretFixResponse ctx response.content original) with
  | .ok none => true
  | _ => false

/-- The first attempt that is accepted, or else the last one. -/
def firstAcceptedOrLast (attempts : List FixResponse) : Option FixResponse :=
  (attempts.find? (accepts ctx finding original strategy)).or attempts.getLast?

/-- What `proposeFixWithAgent` is to return after these attempts. -/
def outcomeOf (attempts : List FixResponse) : Option LlmProposal × ℕ :=
  ((firstAcceptedOrLast ctx finding original strategy attempts).map (proposalOf ctx original),
    max 1 attempts.length)

variable {ctx finding original strategy} in
/-- With no attempt accepted, it is the last one. -/
theorem outcomeOf_of_not_accepts {attempts : List FixResponse}
    (h : ∀ response ∈ attempts, accepts ctx finding original strategy response = false) :
    outcomeOf ctx finding original strategy attempts =
      (attempts.getLast?.map (proposalOf ctx original), max 1 attempts.length) := by
  have hnone : attempts.find? (accepts ctx finding original strategy) = none := by simpa using h
  rw [outcomeOf, firstAcceptedOrLast, hnone, Option.none_or]

variable {ctx finding original strategy} in
/-- An accepted attempt after others that were not is the outcome. -/
theorem outcomeOf_append_of_accepts {attempts : List FixResponse} {response : FixResponse}
    (h : ∀ response ∈ attempts, accepts ctx finding original strategy response = false)
    (haccepts : accepts ctx finding original strategy response = true) :
    outcomeOf ctx finding original strategy (attempts ++ [response]) =
      (some (proposalOf ctx original response), attempts.length + 1) := by
  have hnone : attempts.find? (accepts ctx finding original strategy) = none := by simpa using h
  simp [outcomeOf, firstAcceptedOrLast, List.find?_append, hnone, haccepts]

/-! ## The loop -/

/-- A request to the model. -/
def FixOp.request? : FixOp → Option FixRequest
  | .complete request => some request
  | _ => none

/-- The requests among operations. -/
def requestsOf (ops : List FixOp) : List FixRequest := ops.filterMap FixOp.request?

/-- A reply of the model. -/
def response? : Await FixOp FixOp.Ans Unit → Option FixResponse
  | ⟨_, .complete _, .ok response⟩ => some response
  | _ => none

/-- The replies of a run, in their order. -/
def responsesOf (tr : Trace FixOp FixOp.Ans Unit) : List FixResponse := (tr.filterMap response?).reverse

/-- Requests carry a transcript in order, and there are never more of them than the budgets allow. -/
def conversing (maxIterations maxToolCalls : ℕ) : Protocol FixOp FixOp.Ans Unit where
  answers _ _ := True
  awaits tr _ _ op := ∀ request, op = .complete request → InOrder request.messages ∧
    (requestsOf (tr.map (·.op))).length < max 1 maxIterations + maxToolCalls
  ends _ _ _ := True

/-- Where the loop stands after the awaits: no attempt was accepted, and both budgets are what is left. -/
structure Underway (maxIterations maxToolCalls : ℕ) (tr : Trace FixOp FixOp.Ans Unit)
    (attempts toolRounds : ℕ) (state : AgentState) : Prop where
  transcript : Transcript state.messages
  replied : (requestsOf (tr.map (·.op))).length = (responsesOf tr).length
  rejected : ∀ response ∈ attemptsOf maxToolCalls (responsesOf tr),
    accepts ctx finding original strategy response = false
  last : state.last = (attemptsOf maxToolCalls (responsesOf tr)).getLast?.map (proposalOf ctx original)
  fixIters : state.fixIters = (attemptsOf maxToolCalls (responsesOf tr)).length
  attempts : attempts + state.fixIters = max 1 maxIterations
  toolRounds : toolRounds + (responsesOf tr).length = maxToolCalls + state.fixIters

section Loop

variable {ctx finding original strategy} {maxIterations maxToolCalls : ℕ} {tr : Trace FixOp FixOp.Ans Unit}
  {attempts toolRounds : ℕ} {state : AgentState} {m₀ m : Unit}

/-- What the loop has is what is to be returned. -/
theorem Underway.result (h : Underway ctx finding original strategy maxIterations maxToolCalls tr attempts
    toolRounds state) :
    state.result = outcomeOf ctx finding original strategy (attemptsOf maxToolCalls (responsesOf tr)) := by
  rw [outcomeOf_of_not_accepts h.rejected, AgentState.result, h.last, h.fixIters]

/-- The operation that answers a tool call does not change what was asked of the model and what it replied. -/
theorem follows_executeToolCall {call : FixToolCall}
    {post : Trace FixOp FixOp.Ans Unit → Unit → Unit → FixMessage → Prop}
    (h : ∀ tr' m₀ m message, call.AnsweredBy message →
      requestsOf (tr'.map (·.op)) = requestsOf (tr.map (·.op)) → responsesOf tr' = responsesOf tr →
        post tr' m₀ m message) :
    (executeToolCall call m).Follows (conversing maxIterations maxToolCalls) post (fun _ _ _ _ => True)
      tr m₀ := by
  rw [executeToolCall]
  split
  · extract_lets path respond
    have hanswered (content : String) : call.AnsweredBy
        { role := "tool", content, toolCallId := some call.id, name := some call.name } := ⟨rfl, rfl, rfl⟩
    by_cases hpath : path = ""
    · rw [if_pos hpath]
      exact h tr m₀ m _ (hanswered _) rfl rfl
    · rw [if_neg hpath]
      refine follows_ask_bind _ (fun _ hop => by cases hop) (fun source m₁ _ => ?_) fun _ _ _ => trivial
      exact h _ m₁ m₁ _ (hanswered _) rfl rfl
  · exact h tr m₀ m _ ⟨rfl, rfl, rfl⟩ rfl rfl

/-- So do the operations of a round of tools, and every call is answered at its place. -/
theorem follows_executeToolCalls {calls : List FixToolCall}
    {post : Trace FixOp FixOp.Ans Unit → Unit → Unit → List FixMessage → Prop}
    (h : ∀ tr' m₀ m results, List.Forall₂ FixToolCall.AnsweredBy calls results →
      requestsOf (tr'.map (·.op)) = requestsOf (tr.map (·.op)) → responsesOf tr' = responsesOf tr →
        post tr' m₀ m results) :
    (executeToolCalls calls m).Follows (conversing maxIterations maxToolCalls) post (fun _ _ _ _ => True)
      tr m₀ := by
  induction calls generalizing tr m₀ m post with
  | nil => exact h tr m₀ m [] .nil rfl rfl
  | cons call calls ih =>
    rw [executeToolCalls, Program.bind_apply, follows_bind]
    apply follows_executeToolCall
    intro tr₁ m₁ m message hmessage hrequests hresponses
    rw [Program.bind_apply, follows_bind]
    apply ih
    intro tr₂ m₂ m results hresults hrequests' hresponses'
    exact h _ _ _ _ (.cons hmessage hresults) (hrequests'.trans hrequests) (hresponses'.trans hresponses)

@[simp]
theorem requestsOf_cons_complete (request : FixRequest) (ops : List FixOp) :
    requestsOf (.complete request :: ops) = request :: requestsOf ops := rfl

@[simp]
theorem responsesOf_cons_ok (m : Unit) (request : FixRequest) (response : FixResponse)
    (tr : Trace FixOp FixOp.Ans Unit) :
    responsesOf (⟨m, .complete request, .ok response⟩ :: tr) = responsesOf tr ++ [response] := by
  simp [responsesOf, response?]

@[simp]
theorem responsesOf_cons_error (m : Unit) (request : FixRequest) (e : Err)
    (tr : Trace FixOp FixOp.Ans Unit) :
    responsesOf (⟨m, .complete request, .error e⟩ :: tr) = responsesOf tr := rfl

/-- After a round of tools, the loop stands where it stood, with one round less. -/
theorem Underway.asked {tr' : Trace FixOp FixOp.Ans Unit} {response : FixResponse} {results : List FixMessage}
    (h : Underway ctx finding original strategy maxIterations maxToolCalls tr attempts (toolRounds + 1) state)
    (htools : response.AsksForTools)
    (hresults : List.Forall₂ FixToolCall.AnsweredBy response.toolCalls results)
    (hrequests : (requestsOf (tr'.map (·.op))).length = (requestsOf (tr.map (·.op))).length + 1)
    (hresponses : responsesOf tr' = responsesOf tr ++ [response]) :
    Underway ctx finding original strategy maxIterations maxToolCalls tr' attempts toolRounds
      { state with
        messages := state.messages ++
          { role := "assistant", content := response.content, toolCalls := response.toolCalls } :: results } := by
  have hleft := h.toolRounds
  have hiters := h.fixIters
  have hattempts : attemptsOf maxToolCalls (responsesOf tr') = attemptsOf maxToolCalls (responsesOf tr) := by
    rw [hresponses, attemptsOf_append, if_pos ⟨by omega, htools⟩]
  refine ⟨h.transcript.asked rfl hresults, ?_, ?_, ?_, ?_, h.attempts, ?_⟩
  · rw [hrequests, hresponses, h.replied, List.length_append, List.length_singleton]
  · rw [hattempts]; exact h.rejected
  · rw [hattempts]; exact h.last
  · rw [hattempts]; exact h.fixIters
  · rw [hresponses, List.length_append, List.length_singleton]
    show toolRounds + ((responsesOf tr).length + 1) = maxToolCalls + state.fixIters
    omega

/-- Any other reply is an attempt. -/
theorem Underway.attemptsOf_append
    (h : Underway ctx finding original strategy maxIterations maxToolCalls tr attempts toolRounds state)
    {response : FixResponse} (htools : ¬(0 < toolRounds ∧ response.AsksForTools)) :
    attemptsOf maxToolCalls (responsesOf tr ++ [response]) =
      attemptsOf maxToolCalls (responsesOf tr) ++ [response] := by
  have hleft := h.toolRounds
  have hiters := h.fixIters
  rw [MontrSecure.attemptsOf_append, if_neg]
  exact fun hasks => htools ⟨by omega, hasks.2⟩

/-- After an attempt that is not accepted, the loop stands where it stood, with one attempt less. -/
theorem Underway.proposed {tr' : Trace FixOp FixOp.Ans Unit} {response : FixResponse} (feedback : String)
    (h : Underway ctx finding original strategy maxIterations maxToolCalls tr (attempts + 1) toolRounds state)
    (htools : ¬(0 < toolRounds ∧ response.AsksForTools))
    (hrejects : accepts ctx finding original strategy response = false)
    (hrequests : (requestsOf (tr'.map (·.op))).length = (requestsOf (tr.map (·.op))).length + 1)
    (hresponses : responsesOf tr' = responsesOf tr ++ [response]) :
    Underway ctx finding original strategy maxIterations maxToolCalls tr' attempts toolRounds
      { messages := state.messages ++ [{ role := "assistant", content := response.content }] ++
          [{ role := "user", content := feedback }]
        last := some (proposalOf ctx original response)
        fixIters := state.fixIters + 1 } := by
  have hleft := h.toolRounds
  have hiters := h.fixIters
  have hbudget := h.attempts
  have hattempts := h.attemptsOf_append htools
  rw [← hresponses] at hattempts
  refine ⟨(h.transcript.said (show "assistant" ≠ "tool" by decide)).said (show "user" ≠ "tool" by decide), ?_, ?_, ?_, ?_, ?_, ?_⟩
  · rw [hrequests, hresponses, h.replied, List.length_append, List.length_singleton]
  · rw [hattempts]
    intro other hother
    rcases List.mem_append.mp hother with hold | hnew
    · exact h.rejected other hold
    · rwa [List.mem_singleton.mp hnew]
  · simp [hattempts]
  · simp [hattempts, hiters]
  · show attempts + (state.fixIters + 1) = max 1 maxIterations
    omega
  · rw [hresponses, List.length_append, List.length_singleton]
    show toolRounds + ((responsesOf tr).length + 1) = maxToolCalls + (state.fixIters + 1)
    omega

variable (ctx finding original strategy) in
/-- The postcondition of the loop. -/
def Concluded (maxToolCalls : ℕ) (tr : Trace FixOp FixOp.Ans Unit) (result : Option LlmProposal × ℕ) : Prop :=
  result = outcomeOf ctx finding original strategy (attemptsOf maxToolCalls (responsesOf tr))

/-- The loop, from wherever it stands. -/
theorem follows_agentTurns {system : String} {withTools : Bool}
    (h : Underway ctx finding original strategy maxIterations maxToolCalls tr attempts toolRounds state) :
    (agentTurns ctx finding original strategy system withTools attempts toolRounds state m).Follows
      (conversing maxIterations maxToolCalls)
      (fun tr _ _ => Concluded ctx finding original strategy maxToolCalls tr) (fun _ _ _ _ => True) tr m₀ := by
  -- Each turn uses up one of the two budgets.
  induction hbudget : attempts + toolRounds using Nat.strong_induction_on
    generalizing attempts toolRounds state tr m₀ m with
  | _ budget ih =>
    subst hbudget
    rcases attempts with _ | attempts
    · rw [agentTurns]
      exact h.result
    have hleft := h.toolRounds
    have hiters := h.fixIters
    have hmade := h.attempts
    have hreplied := h.replied
    have hop : ∀ request : FixRequest, FixOp.complete { system, messages := state.messages, withTools } =
        .complete request → InOrder request.messages ∧
          (requestsOf (tr.map (·.op))).length < max 1 maxIterations + maxToolCalls := by
      rintro request ⟨⟩
      exact ⟨h.transcript.inOrder, by omega⟩
    -- An attempt is accepted, or told back to the model.
    have hpropose (response : FixResponse) (m₁ : Unit) (htools : ¬(0 < toolRounds ∧ response.AsksForTools)) :
        (agentTurns.propose ctx finding original strategy system withTools response attempts toolRounds state
          m₁).Follows (conversing maxIterations maxToolCalls)
          (fun tr _ _ => Concluded ctx finding original strategy maxToolCalls tr) (fun _ _ _ _ => True)
          (⟨m, .complete { system, messages := state.messages, withTools }, .ok response⟩ :: tr) m₁ := by
      rw [agentTurns.propose]
      refine follows_ofExcept_bind (fun verdict hverdict => ?_) fun _ _ => trivial
      rcases verdict with _ | feedback
      · have haccepts : accepts ctx finding original strategy response = true := by rw [accepts, hverdict]
        show Concluded ctx finding original strategy maxToolCalls _ _
        rw [Concluded, responsesOf_cons_ok, h.attemptsOf_append htools,
          outcomeOf_append_of_accepts h.rejected haccepts, ← hiters]
        show (some (proposalOf ctx original response), max 1 (state.fixIters + 1)) = _
        rw [max_eq_right (by omega)]
      · have hrejects : accepts ctx finding original strategy response = false := by rw [accepts, hverdict]
        refine ih (attempts + toolRounds) (by omega) (h.proposed feedback htools hrejects ?_ ?_) rfl
        · rfl
        · exact responsesOf_cons_ok ..
    rw [agentTurns]
    refine follows_attempt_bind (follows_ask _ hop (fun response m₁ _ => ?_) fun e m₁ _ => ?_)
    · rcases toolRounds with _ | toolRounds
      · exact hpropose response m₁ (by simp)
      · by_cases htools : response.AsksForTools
        · simp only [FixResponse.AsksForTools] at htools
          simp only [htools, ne_eq, not_false_eq_true, and_self, if_true]
          rw [Program.bind_apply, follows_bind]
          apply follows_executeToolCalls
          intro tr' m₂ m₃ results hresults hrequests hresponses
          refine ih (attempts + 1 + toolRounds) (by omega) (h.asked htools hresults ?_ ?_) rfl
          · rw [hrequests]
            rfl
          · rw [hresponses, responsesOf_cons_ok]
        · have hnot : ¬(response.stopReason = "tool_use" ∧ response.toolCalls ≠ []) := htools
          simp only [hnot, if_false]
          exact hpropose response m₁ (by simp [htools])
    · show Concluded ctx finding original strategy maxToolCalls _ _
      rw [Concluded, responsesOf_cons_error]
      exact h.result

/-- The whole run. -/
theorem follows_proposeFixWithAgent (m : Unit) :
    (proposeFixWithAgent ctx finding original strategy maxIterations maxToolCalls m).Follows
      (conversing maxIterations maxToolCalls)
      (fun tr _ _ => Concluded ctx finding original strategy maxToolCalls tr) (fun _ _ _ _ => True) [] m := by
  rw [proposeFixWithAgent, Program.bind_apply, follows_bind, resolveFixSystemPrompt]
  refine follows_ask_bind _ (fun _ hop => by cases hop) (fun prompt m₁ _ => ?_) fun _ _ _ => trivial
  apply follows_agentTurns
  refine ⟨?_, rfl, ?_, rfl, rfl, ?_, rfl⟩
  · exact Transcript.nil.said (show "user" ≠ "tool" by decide)
  · exact List.forall_mem_nil _
  · exact Nat.add_zero _

/-- What has been awaited under the protocol keeps to its bound. -/
theorem requestsOf_of_conforms (h : (conversing maxIterations maxToolCalls).Conforms tr) :
    (requestsOf (tr.map (·.op))).length ≤ max 1 maxIterations + maxToolCalls ∧
      ∀ request ∈ requestsOf (tr.map (·.op)), InOrder request.messages := by
  induction tr with
  | nil => simp [requestsOf]
  | cons x tr ih =>
    obtain ⟨⟨_, hawaits⟩, -, hbefore⟩ := h
    obtain ⟨hle, horder⟩ := ih hbefore
    rw [List.map_cons]
    rcases hop : x.op with _ | _ | request | _ | _ | _
    case complete =>
      obtain ⟨hnext, hlt⟩ := hawaits request hop
      simp only [requestsOf_cons_complete, List.length_cons, List.forall_mem_cons]
      exact ⟨hlt, hnext, horder⟩
    all_goals exact ⟨hle, horder⟩

/-- **The conversation of the agent.** In every run, whatever the model replies, the requests are no more than both
budgets allow, and in each of them every tool message answers a call of the assistant's turn in front of it which
no other message answers. What is returned is the first attempt that is accepted, or else the last one. -/
theorem proposeFixWithAgent_converses {o : Outcome FixOp FixOp.Ans Unit Err (Option LlmProposal × ℕ)}
    (h : (proposeFixWithAgent ctx finding original strategy maxIterations maxToolCalls).Ran tr m₀ o) :
    (requestsOf (o.issued tr)).length ≤ max 1 maxIterations + maxToolCalls ∧
      (∀ request ∈ requestsOf (o.issued tr), InOrder request.messages) ∧
      ∀ m result, o = .ret m result →
        result = outcomeOf ctx finding original strategy (attemptsOf maxToolCalls (responsesOf tr)) := by
  have hanswers : (conversing maxIterations maxToolCalls).Answers tr := fun _ _ => trivial
  obtain ⟨hle, horder⟩ := requestsOf_of_conforms (h.conforms follows_proposeFixWithAgent hanswers)
  refine ⟨?_, ?_, ?_⟩
  · rcases o with _ | _ | ⟨m, op, k⟩
    · exact hle
    · exact hle
    · have hawaits := h.awaits follows_proposeFixWithAgent hanswers
      rcases op with _ | _ | request | _ | _ | _
      case complete => exact (hawaits request rfl).2
      all_goals exact hle
  · rcases o with _ | _ | ⟨m, op, k⟩
    · exact horder
    · exact horder
    · have hawaits := h.awaits follows_proposeFixWithAgent hanswers
      rcases op with _ | _ | request | _ | _ | _
      case complete => exact List.forall_mem_cons.mpr ⟨(hawaits request rfl).1, horder⟩
      all_goals exact horder
  · rintro m result rfl
    exact h.returned follows_proposeFixWithAgent hanswers

end Loop

end Generate

/-! ## A run -/

private def bareContext : FixGenerationContext where
  clientId := "c"
  scanId := "s"
  diff := { createTwoFilesPatch _ _ _ _ := "", applyPatch _ _ := .ok none, parsePatch _ := .ok [] }
  pickStrategy _ _ := none
  parseJson text := if text = "\x7b\x7d" then some (.obj []) else none
  stringify _ := ""
  now _ := 0

private def bareFinding : ConfirmedFinding :=
  { id := "cf", scanId := "s", clientId := "c", title := "Permissive CORS", category := .permissiveCors
    severity := .medium, exposure := .public_, location := { file := "web/headers.ts", line := 1 }
    impact := "", proofType := .static, proofArtifact := .null, createdAt := 0 }

/-- The model looks at a file first, then answers with something that is no JSON, then with an empty object. -/
private def bareAnswer : (op : FixOp) → Unit → FixOp.Ans op × Unit
  | .readSource _, _ => (.ok none, ())
  | .resolvePrompt _, _ => (.ok none, ())
  | .complete request, _ =>
    if request.messages.length = 1 then
      (.ok { content := "", model := "m", stopReason := "tool_use"
             toolCalls := [{ id := "t1", name := "read_file", input := .obj [("path", .str "a.ts")] }] }, ())
    else if request.messages.length = 3 then (.ok { content := "Sure", model := "m", stopReason := "end_turn" }, ())
    else (.ok { content := "\x7b\x7d", model := "m", stopReason := "end_turn" }, ())
  | .proofRun .., _ => (.error (.other "no vitest"), ())
  | .containerPhase .., _ => (.error (.other "no docker"), ())
  | .auditAppend _, _ => (.ok (), ())

/-- With two attempts and one round of tools, the model is asked three times; the second attempt is accepted. -/
theorem proposeFixWithAgent_converses_thrice :
    ∃ (tr : Trace FixOp FixOp.Ans Unit) (result : Option LlmProposal × ℕ),
      (requestsOf (tr.map (·.op))).length = 3 ∧ result.2 = 2 ∧
        (∀ request ∈ requestsOf (tr.map (·.op)), InOrder request.messages) ∧
        result = outcomeOf bareContext bareFinding none none (attemptsOf 1 (responsesOf tr)) := by
  let run := Outcome.replay bareAnswer 6 [] () (proposeFixWithAgent bareContext bareFinding none none 2 1 ())
  have hran : (proposeFixWithAgent bareContext bareFinding none none 2 1).Ran run.1 run.2.1 run.2.2 :=
    (Program.Ran.start ()).replay
  generalize hend : run.2.2 = o at hran
  have hmax : max 1 2 = 2 := rfl
  have hasked : (requestsOf (run.1.map (·.op))).length = 3 := by
    simp only [run, proposeFixWithAgent, hmax, agentTurns, agentTurns.propose]
    decide +kernel
  have hmade : (o.ended?.bind fun r => r.2.toOption).map (·.2) = some 2 := by
    rw [← hend]
    simp only [run, proposeFixWithAgent, hmax, agentTurns, agentTurns.propose]
    decide +kernel
  rcases o with ⟨m, result⟩ | ⟨m, e⟩ | ⟨m, op, k⟩
  · obtain ⟨-, horder, hresult⟩ := proposeFixWithAgent_converses hran
    exact ⟨run.1, result, hasked, Option.some.inj hmade, horder, hresult m result rfl⟩
  · cases hmade
  · cases hmade

end MontrSecure
