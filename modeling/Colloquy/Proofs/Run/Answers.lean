import Colloquy.Proofs.Run.Rehearsal
import Colloquy.Proofs.Run.Standing

/-!
# Colloquy — answers to calls

Every call of a reply is answered once, in order, between the messages of the reply
(`Runner.Processes`). The results of all calls of a turn are among its messages and,
whatever the order of the items, in the next request, under a handle or without one.
Only a reply that does not end in a call ends a run, so only its results are not sent
(`Runner.run_returns_results`, `Runner.run_ends_unsent`).
-/

namespace Colloquy

/-- A call and the result that answered it. -/
structure Answer where
  call : ToolCall
  result : ToolResult

/-- The message by which the model is told of an answer. -/
def Answer.message (a : Answer) : Message :=
  .functionCallOutput a.result

namespace Runner

variable {σ : Type} {r : Runner σ} {options : RunOptions} {messages : List Message}

-- ---------------------------------------------------------------------------
-- Items of a reply
-- ---------------------------------------------------------------------------

/-- Items become these messages from a world to another: a message is kept, and a call becomes two
messages, once it is answered. -/
inductive Processes (r : Runner σ) :
    List ReplyItem → World σ → List Answer → List Message → World σ → Prop
  | nil (w : World σ) : Processes r [] w [] [] w
  | message {m : Message} {items : List ReplyItem} {w w' : World σ} {answers : List Answer}
      {output : List Message} (hrest : Processes r items w answers output w') :
      Processes r (.message m :: items) w answers (m :: output) w'
  | call {made : ToolCall} {result : ToolResult} {items : List ReplyItem} {w w₁ w' : World σ}
      {answers : List Answer} {output : List Message}
      (h : (r.dispatcher.invoke r.tools made).perform w = (.ok result, w₁))
      (hrest : Processes r items w₁ answers output w') :
      Processes r (.call made :: items) w (⟨made, result⟩ :: answers)
        (Dispatcher.exchange made result ++ output) w'

theorem perform_dispatch_singleton {made : ToolCall} {output : List Message} {w w' : World σ} :
    (r.dispatcher.dispatch r.tools [made]).perform w = (.ok output, w') ↔
      ∃ result, (r.dispatcher.invoke r.tools made).perform w = (.ok result, w') ∧
        output = Dispatcher.exchange made result := by
  rw [Dispatcher.dispatch, Act.perform_bind_eq_ok_iff]
  constructor
  · rintro ⟨result, w₁, hinvoke, h⟩
    obtain ⟨rfl, rfl⟩ : Dispatcher.exchange made result = output ∧ w₁ = w' := by
      simpa [Dispatcher.dispatch] using h
    exact ⟨result, hinvoke, rfl⟩
  · rintro ⟨result, hinvoke, rfl⟩
    exact ⟨result, w', hinvoke, by simp [Dispatcher.dispatch]⟩

theorem perform_outputs_eq_ok_iff {items : List ReplyItem} {output : List Message}
    {w w' : World σ} :
    (r.outputs items).perform w = (.ok output, w') ↔
      ∃ answers, r.Processes items w answers output w' := by
  induction items generalizing w output with
  | nil =>
    constructor
    · intro h
      obtain ⟨rfl, rfl⟩ : [] = output ∧ w = w' := by simpa [outputs] using h
      exact ⟨[], .nil w⟩
    · rintro ⟨answers, h⟩
      cases h
      rfl
  | cons item items ih =>
    cases item with
    | message m =>
      rw [outputs, Act.perform_bind_eq_ok_iff]
      constructor
      · rintro ⟨others, w₁, hrest, h⟩
        obtain ⟨rfl, rfl⟩ : m :: others = output ∧ w₁ = w' := by simpa using h
        obtain ⟨answers, hrest⟩ := ih.mp hrest
        exact ⟨answers, .message hrest⟩
      · rintro ⟨answers, h⟩
        cases h with
        | message hrest => exact ⟨_, w', ih.mpr ⟨answers, hrest⟩, rfl⟩
    | call made =>
      rw [outputs, Act.perform_bind_eq_ok_iff]
      constructor
      · rintro ⟨here, w₁, hhere, h⟩
        obtain ⟨result, hinvoke, rfl⟩ := perform_dispatch_singleton.mp hhere
        rw [Act.perform_bind_eq_ok_iff] at h
        obtain ⟨others, w₂, hrest, h⟩ := h
        obtain ⟨rfl, rfl⟩ : Dispatcher.exchange made result ++ others = output ∧ w₂ = w' := by
          simpa using h
        obtain ⟨answers, hrest⟩ := ih.mp hrest
        exact ⟨_, .call hinvoke hrest⟩
      · rintro ⟨answers, h⟩
        cases h with
        | @call _ result _ _ w₁ _ answers others hinvoke hrest =>
          refine ⟨_, w₁, perform_dispatch_singleton.mpr ⟨result, hinvoke, rfl⟩, ?_⟩
          rw [Act.perform_bind_eq_ok_iff]
          exact ⟨others, w', ih.mpr ⟨answers, hrest⟩, rfl⟩

namespace Processes

variable {items others : List ReplyItem} {w w' : World σ} {answers : List Answer}
  {output : List Message}

/-- Every call is answered, once and in order. -/
theorem map_call (h : r.Processes items w answers output w') :
    answers.map Answer.call = items.filterMap ReplyItem.call? := by
  induction h with
  | nil => rfl
  | message _ ih => exact ih
  | call _ _ ih => exact congrArg _ ih

/-- The results of all calls are among the messages, in order. -/
theorem map_message_sublist (h : r.Processes items w answers output w') :
    (answers.map Answer.message).Sublist (callOutputs output) := by
  induction h with
  | nil => exact List.Sublist.refl _
  | @message m _ _ _ _ output _ ih =>
    exact ih.trans ((List.sublist_cons_self m output).filter _)
  | call _ _ ih => exact ih.cons_cons _

/-- Items are processed one after another. -/
theorem exists_of_append (h : r.Processes (items ++ others) w answers output w') :
    ∃ answers₁ output₁ w₁ answers₂ output₂, r.Processes items w answers₁ output₁ w₁ ∧
      r.Processes others w₁ answers₂ output₂ w' ∧ answers = answers₁ ++ answers₂ ∧
      output = output₁ ++ output₂ := by
  induction items generalizing w answers output with
  | nil => exact ⟨[], [], w, answers, output, .nil w, h, rfl, rfl⟩
  | cons item items ih =>
    cases h with
    | message hrest =>
      obtain ⟨answers₁, output₁, w₁, answers₂, output₂, hitems, hothers, rfl, rfl⟩ := ih hrest
      exact ⟨_, _, w₁, answers₂, output₂, .message hitems, hothers, rfl, rfl⟩
    | call hinvoke hrest =>
      obtain ⟨answers₁, output₁, w₁, answers₂, output₂, hitems, hothers, rfl, rfl⟩ := ih hrest
      exact ⟨_, _, w₁, answers₂, output₂, .call hinvoke hitems, hothers, rfl, by simp⟩

/-- The messages of items that end in a call end in its result, which is to be sent back. -/
theorem awaitsReply_of_call {made : ToolCall} (h : r.Processes items w answers output w')
    (hlast : items.getLast? = some (.call made)) : awaitsReply output = true := by
  obtain ⟨earlier, rfl⟩ := List.getLast?_eq_some_iff.mp hlast
  obtain ⟨_, output₁, _, _, _, -, hcall, -, rfl⟩ := h.exists_of_append
  cases hcall with
  | call _ hnil =>
    cases hnil
    simp [awaitsReply, Dispatcher.exchange, Message.functionCallOutput]

end Processes

-- ---------------------------------------------------------------------------
-- Turns
-- ---------------------------------------------------------------------------

/-- The turn is taken with these answers to the calls of its reply. -/
structure TakesWith (r : Runner σ) (options : RunOptions) (p : Progress) (w : World σ) (t : Turn)
    (answers : List Answer) (w' : World σ) : Prop extends r.Takes options p w t w' where
  processes : ∃ body w₁,
    (r.ask t.request.options t.request.messages).perform w = (.ok (body, t.reply), w₁) ∧
      r.Processes t.reply.items w₁ answers t.output w'

theorem Takes.exists_takesWith {p : Progress} {w w' : World σ} {t : Turn}
    (h : r.Takes options p w t w') : ∃ answers, r.TakesWith options p w t answers w' := by
  obtain ⟨body, w₁, hask, houtputs⟩ := h.exchange
  obtain ⟨answers, hprocesses⟩ := perform_outputs_eq_ok_iff.mp houtputs
  exact ⟨answers, h, body, w₁, hask, hprocesses⟩

namespace TakesWith

variable {p : Progress} {w w' : World σ} {t : Turn} {answers : List Answer}

theorem map_call (h : r.TakesWith options p w t answers w') :
    answers.map Answer.call = t.reply.toolCalls := by
  obtain ⟨_, _, -, hprocesses⟩ := h.processes
  exact hprocesses.map_call

theorem map_message_sublist (h : r.TakesWith options p w t answers w') :
    (answers.map Answer.message).Sublist (callOutputs t.output) := by
  obtain ⟨_, _, -, hprocesses⟩ := h.processes
  exact hprocesses.map_message_sublist

theorem awaits_of_call {made : ToolCall} (h : r.TakesWith options p w t answers w')
    (hlast : t.reply.items.getLast? = some (.call made)) : t.awaits = true := by
  obtain ⟨_, _, -, hprocesses⟩ := h.processes
  exact hprocesses.awaitsReply_of_call hlast

end TakesWith

/-- The results of the calls of a turn are sent next, under a handle or without one. -/
theorem callOutputs_sublist_pending (turns : List Turn) (t : Turn) :
    (callOutputs t.output).Sublist (r.standing messages options (turns ++ [t])).pending := by
  rw [pending_standing_concat]
  split
  · exact List.Sublist.refl _
  · rw [List.flatMap_append, List.flatMap_singleton, ← List.append_assoc]
    exact (callOutputs_sublist _).trans (List.sublist_append_right _ _)

-- ---------------------------------------------------------------------------
-- Runs
-- ---------------------------------------------------------------------------

namespace Runs

variable {w w' : World σ} {turns : List Turn} {requests : List Request}
  {result : Except Failure Completion}

theorem exists_takesWith (h : r.Runs messages options w turns requests result w') {i : Nat}
    {t : Turn} (ht : turns[i]? = some t) :
    ∃ w₁ answers w₂,
      r.Leads messages options (.start r.backend.isStateful messages options) w (turns.take i)
        (r.standing messages options (turns.take i)) w₁ ∧
      r.TakesWith options (r.standing messages options (turns.take i)) w₁ t answers w₂ := by
  obtain ⟨w₁, w₂, hleads, htakes⟩ := h.history.exists_leads ht
  obtain ⟨answers, hwith⟩ := htakes.exists_takesWith
  exact ⟨w₁, answers, w₂, hleads, hwith⟩

/-- The results of the calls of a turn are in the request that follows it. -/
theorem callOutputs_sublist_getElem (h : r.Runs messages options w turns requests result w')
    {i : Nat} {t : Turn} (ht : turns[i]? = some t) (hi : i + 1 < requests.length) :
    (callOutputs t.output).Sublist requests[i + 1].messages := by
  obtain ⟨t', ht', htake⟩ := h.exists_take_succ hi
  obtain rfl : t = t' := Option.some.inj (ht.symm.trans ht')
  rw [h.getElem_requests (i + 1) hi, htake]
  exact callOutputs_sublist_pending (turns.take i) t

end Runs

/-- In a completed run all calls are answered. The results of a turn are in the next request, unless
the turn is the last, which is one whose reply does not end in a call. Those of the last turn are in
the transcript, and there is no request after it. -/
theorem run_returns_results (r : Runner σ) (messages : List Message) (options : RunOptions)
    (w : World σ) :
    ∃ turns requests result w', r.Runs messages options w turns requests result w' ∧
      ∀ c, result = .ok c →
        requests.length = turns.length ∧
        ∀ i t, turns[i]? = some t →
          ∃ w₁ answers w₂,
            r.Leads messages options (.start r.backend.isStateful messages options) w
              (turns.take i) (r.standing messages options (turns.take i)) w₁ ∧
            r.TakesWith options (r.standing messages options (turns.take i)) w₁ t answers w₂ ∧
            answers.map Answer.call = t.reply.toolCalls ∧
            (∀ hi : i + 1 < requests.length,
              (answers.map Answer.message).Sublist requests[i + 1].messages) ∧
            (i + 1 = requests.length → ∀ made, t.reply.items.getLast? ≠ some (.call made)) ∧
            (answers.map Answer.message).Sublist c.messages := by
  obtain ⟨turns, requests, result, w', h⟩ := r.exists_runs messages options w
  refine ⟨turns, requests, result, w', h, ?_⟩
  rintro c rfl
  have hcompletes := h.history.completes
  refine ⟨hcompletes.length_requests, fun i t ht => ?_⟩
  obtain ⟨w₁, answers, w₂, hleads, hwith⟩ := h.exists_takesWith ht
  have hresults := hwith.map_message_sublist
  refine ⟨w₁, answers, w₂, hleads, hwith, hwith.map_call, fun hi => ?_, fun hi made hcall => ?_, ?_⟩
  · exact hresults.trans (h.callOutputs_sublist_getElem ht hi)
  · -- the last turn does not await a reply
    obtain ⟨earlier, last, hturns, -, hlast⟩ := hcompletes.last
    obtain rfl : t = last := by
      rw [hcompletes.length_requests] at hi
      have hgetLast : turns.getLast? = some t := by
        rw [List.getLast?_eq_getElem?, ← hi]
        exact ht
      rw [hturns, List.getLast?_concat] at hgetLast
      exact (Option.some.inj hgetLast).symm
    exact absurd (hlast.symm.trans (hwith.awaits_of_call hcall)) (by simp)
  · have houtput : t.output.Sublist (turns.flatMap Turn.output) := by
      rw [List.flatMap_def]
      exact List.sublist_flatten_of_mem (List.mem_map_of_mem (List.mem_of_getElem? ht))
    rw [hcompletes.messages_eq]
    refine (hresults.trans (callOutputs_sublist _)).trans (houtput.trans ?_)
    simp [Progress.start]

/-- A reply ends in a text after its call: the run is complete, and the result was never sent. -/
theorem run_ends_unsent :
    let replies : List Reply :=
      [{ items := [Stage.addCall "call_1", .text "adding"] }, { items := [.text "four"] }]
    ∃ turns requests c w' t,
      (Stage.adder false).Runs [.user "2+2?"] {} (Stage.opening replies) turns requests (.ok c)
        w' ∧
      turns[0]? = some t ∧ ⟨"call_1", "add", .obj []⟩ ∈ t.reply.toolCalls ∧
      Stage.sum "call_1" ∈ t.output ∧
      ∀ request ∈ requests, Stage.sum "call_1" ∉ request.messages := by
  intro replies
  refine ⟨[⟨_, _, _⟩], _, _, _, _, History.runs
    (.finished ⟨rfl, ⟨_, _, rfl, rfl⟩, List.cons_ne_nil _ _⟩ rfl), rfl, ?_, ?_, ?_⟩
  · exact List.mem_singleton_self _
  · exact List.mem_cons_of_mem _ List.mem_cons_self
  · decide

end Runner

end Colloquy
