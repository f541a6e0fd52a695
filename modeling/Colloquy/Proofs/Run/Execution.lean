import Colloquy.Proofs.Run.Rehearsal
import Colloquy.Proofs.Tool.Answering

/-!
# Colloquy — executions of calls

The calls of a reply are executed once each, in order, up to the first call that nobody
answers (`Runner.Executes`). Nothing but a fault ends this earlier: the error of whoever
answers is the outcome of the call. Each executed call becomes two messages, side by side:
the call and, under the same identifier, its outcome (`weave`).

* `Execution` — what was done about a call.
* `Runner.StopsAt` — where the executions of calls stop.
* `Runner.Records` — a view of the world to which whoever answers a call adds a record.
-/

namespace Colloquy

/-- What was done about a call: whoever answers it was given these arguments, and told this; nothing
if that ended in a fault. -/
structure Execution where
  call : ToolCall
  arguments : Arguments
  outcome? : Option (Except Error Json)

/-- The call and its outcome as messages. -/
def Execution.messages (x : Execution) : List Message :=
  match x.outcome? with
  | some outcome => Dispatcher.exchange x.call ⟨x.call.id, outcomeText outcome⟩
  | none => []

/-- The messages of items: those that are messages, and those of an execution in the place of each
call. -/
def weave : List ReplyItem → List Execution → List Message
  | [], _ => []
  | .message m :: items, xs => m :: weave items xs
  | .call _ :: _, [] => []
  | .call _ :: items, x :: xs => x.messages ++ weave items xs

namespace Runner

variable {σ : Type} {r : Runner σ} {options : RunOptions} {messages : List Message}

-- ---------------------------------------------------------------------------
-- The items of a reply
-- ---------------------------------------------------------------------------

/-- Items are processed in order from a world to another: a message is kept, and a call is executed.
A fault, and a call that nobody answers, end this. -/
inductive Executes (r : Runner σ) :
    List ReplyItem → World σ → List Execution → Except Failure (List Message) → World σ → Prop
  | nil (w : World σ) : Executes r [] w [] (.ok []) w
  | message {m : Message} {items : List ReplyItem} {w w' : World σ} {xs : List Execution}
      {result : Except Failure (List Message)} (hrest : Executes r items w xs result w') :
      Executes r (.message m :: items) w xs (result.map (m :: ·)) w'
  | call {made : ToolCall} {args : Arguments} {act : Act σ Json} {outcome : Except Error Json}
      {items : List ReplyItem} {w w₁ w' : World σ} {xs : List Execution}
      {result : Except Failure (List Message)}
      (h : r.dispatcher.Answers r.tools made args act)
      (houtcome : act.attempt.perform w = (.ok outcome, w₁))
      (hrest : Executes r items w₁ xs result w') :
      Executes r (.call made :: items) w (⟨made, args, some outcome⟩ :: xs)
        (result.map (Dispatcher.exchange made ⟨made.id, outcomeText outcome⟩ ++ ·)) w'
  | faulted {made : ToolCall} {args : Arguments} {act : Act σ Json} {items : List ReplyItem}
      {w w' : World σ} (h : r.dispatcher.Answers r.tools made args act)
      (hfault : act.attempt.perform w = (.error .fault, w')) :
      Executes r (.call made :: items) w [⟨made, args, none⟩] (.error .fault) w'
  | ignored {made : ToolCall} {items : List ReplyItem} {w : World σ}
      (h : r.dispatcher.Ignores r.tools made) :
      Executes r (.call made :: items) w [] (.error (.error (.unknownTool made.name))) w

theorem perform_outputs_message (r : Runner σ) (m : Message) (items : List ReplyItem)
    (w : World σ) :
    (r.outputs (.message m :: items)).perform w =
      (((r.outputs items).perform w).1.map (m :: ·), ((r.outputs items).perform w).2) :=
  Act.perform_bind_pure (r.outputs items) (m :: ·) w

theorem perform_outputs_call (r : Runner σ) (made : ToolCall) (items : List ReplyItem)
    (w : World σ) :
    (r.outputs (.call made :: items)).perform w =
      match (r.dispatcher.invoke r.tools made).perform w with
      | (.ok result, w₁) =>
        (((r.outputs items).perform w₁).1.map (Dispatcher.exchange made result ++ ·),
          ((r.outputs items).perform w₁).2)
      | (.error f, w₁) => (.error f, w₁) := by
  rw [outputs, Act.perform_bind]
  have hdispatch : (r.dispatcher.dispatch r.tools [made]).perform w =
      (((r.dispatcher.invoke r.tools made).perform w).1.map (Dispatcher.exchange made),
        ((r.dispatcher.invoke r.tools made).perform w).2) := by
    rw [Dispatcher.dispatch, Act.perform_bind]
    rcases (r.dispatcher.invoke r.tools made).perform w with ⟨f | result, w₁⟩
    · rfl
    · simp [Dispatcher.dispatch, Except.map]
  rw [hdispatch]
  rcases (r.dispatcher.invoke r.tools made).perform w with ⟨f | result, w₁⟩
  · rfl
  · exact Act.perform_bind_pure (r.outputs items) _ w₁

theorem exists_executes (r : Runner σ) (items : List ReplyItem) (w : World σ) :
    ∃ xs, r.Executes items w xs ((r.outputs items).perform w).1
      ((r.outputs items).perform w).2 := by
  induction items generalizing w with
  | nil => exact ⟨[], .nil w⟩
  | cons item items ih =>
    cases item with
    | message m =>
      obtain ⟨xs, hrest⟩ := ih w
      rw [perform_outputs_message]
      exact ⟨xs, .message hrest⟩
    | call made =>
      rw [perform_outputs_call]
      rcases r.dispatcher.invoke_cases r.tools made w with
        ⟨args, act, outcome, w₁, h, houtcome, hinvoke⟩ | ⟨args, act, w₁, h, hfault, hinvoke⟩ |
        ⟨h, hinvoke⟩
      · obtain ⟨xs, hrest⟩ := ih w₁
        rw [hinvoke]
        exact ⟨_, .call h houtcome hrest⟩
      · rw [hinvoke]
        exact ⟨_, .faulted h hfault⟩
      · rw [hinvoke]
        exact ⟨[], .ignored h⟩

/-- What was done determines the messages of items and the world. -/
theorem Executes.perform_eq {items : List ReplyItem} {w w' : World σ} {xs : List Execution}
    {result : Except Failure (List Message)} (h : r.Executes items w xs result w') :
    (r.outputs items).perform w = (result, w') := by
  induction h with
  | nil => rfl
  | message _ ih => rw [perform_outputs_message, ih]
  | call h houtcome _ ih =>
    rw [perform_outputs_call, h.perform_invoke, houtcome]
    dsimp only [Except.map]
    rw [ih]
  | faulted h hfault =>
    rw [perform_outputs_call, h.perform_invoke, hfault]
    rfl
  | ignored h => rw [perform_outputs_call, Dispatcher.perform_invoke_of_ignores h]

/-- Of these calls only some were executed: nobody answers the next one, and the failure names it,
or the last one executed ended in a fault. -/
inductive StopsAt (r : Runner σ) : List ToolCall → List Execution → Failure → Prop
  | ignored (xs : List Execution) {made : ToolCall} (h : r.dispatcher.Ignores r.tools made)
      (later : List ToolCall) :
      StopsAt r (xs.map Execution.call ++ made :: later) xs (.error (.unknownTool made.name))
  | faulted (xs : List Execution) {x : Execution} (h : x.outcome? = none)
      (later : List ToolCall) :
      StopsAt r ((xs ++ [x]).map Execution.call ++ later) (xs ++ [x]) .fault

theorem StopsAt.append {calls : List ToolCall} {xs : List Execution} {f : Failure}
    (h : r.StopsAt calls xs f) (ys : List Execution) :
    r.StopsAt (ys.map Execution.call ++ calls) (ys ++ xs) f := by
  cases h with
  | ignored _ h later =>
    rw [← List.append_assoc, ← List.map_append]
    exact .ignored (ys ++ xs) h later
  | faulted xs h later =>
    rw [← List.append_assoc, ← List.map_append, ← List.append_assoc]
    exact .faulted (ys ++ xs) h later

namespace Executes

variable {items : List ReplyItem} {w w' : World σ} {xs : List Execution}
  {result : Except Failure (List Message)}

/-- Every executed call was answered, with the arguments that the execution tells. -/
theorem answers (h : r.Executes items w xs result w') :
    ∀ x ∈ xs, ∃ act, r.dispatcher.Answers r.tools x.call x.arguments act := by
  induction h with
  | nil => exact List.forall_mem_nil _
  | message _ ih => exact ih
  | call h _ _ ih => exact List.forall_mem_cons.mpr ⟨⟨_, h⟩, ih⟩
  | faulted h _ => exact List.forall_mem_singleton.mpr ⟨_, h⟩
  | ignored => exact List.forall_mem_nil _

/-- If all items are processed, all calls are executed, and the messages are those of the items and
the executions in turn. -/
theorem of_ok {output : List Message} (h : r.Executes items w xs (.ok output) w') :
    xs.map Execution.call = items.filterMap ReplyItem.call? ∧ output = weave items xs := by
  generalize hresult : Except.ok output = result at h
  induction h generalizing output with
  | nil => exact ⟨rfl, Except.ok.inj hresult⟩
  | message _ ih =>
    obtain ⟨others, rfl, rfl⟩ := exists_of_map_eq_ok hresult.symm
    obtain ⟨hcalls, rfl⟩ := ih rfl
    exact ⟨hcalls, rfl⟩
  | call _ _ _ ih =>
    obtain ⟨others, rfl, rfl⟩ := exists_of_map_eq_ok hresult.symm
    obtain ⟨hcalls, rfl⟩ := ih rfl
    exact ⟨congrArg _ hcalls, rfl⟩
  | faulted => simp at hresult
  | ignored => simp at hresult

/-- If processing fails, it stopped at a call that nobody answers, or with a fault. -/
theorem of_error {f : Failure} (h : r.Executes items w xs (.error f) w') :
    r.StopsAt (items.filterMap ReplyItem.call?) xs f := by
  generalize hresult : Except.error f = result at h
  induction h with
  | nil => simp at hresult
  | message _ ih => exact ih (map_eq_error_iff.mp hresult.symm).symm
  | @call made args act outcome _ _ _ _ _ _ _ _ _ ih =>
    exact (ih (map_eq_error_iff.mp hresult.symm).symm).append [⟨made, args, some outcome⟩]
  | @faulted made args _ items =>
    obtain rfl := Except.error.inj hresult
    exact .faulted [] (x := ⟨made, args, none⟩) rfl (items.filterMap ReplyItem.call?)
  | @ignored made items _ h =>
    obtain rfl := Except.error.inj hresult
    exact .ignored [] h (items.filterMap ReplyItem.call?)

theorem fault_of_outcome (h : r.Executes items w xs result w') :
    ∀ x ∈ xs, x.outcome? = none → result = .error .fault := by
  induction h with
  | nil => exact List.forall_mem_nil _
  | message _ ih => exact fun x hx hnone => congrArg _ (ih x hx hnone)
  | call _ _ _ ih =>
    exact List.forall_mem_cons.mpr ⟨nofun, fun x hx hnone => congrArg _ (ih x hx hnone)⟩
  | faulted => exact fun _ _ _ => rfl
  | ignored => exact List.forall_mem_nil _

end Executes

-- ---------------------------------------------------------------------------
-- Records of executions
-- ---------------------------------------------------------------------------

/-- A view of the world to which whoever answers a call adds a record of its name and its arguments,
and that nothing else in a run changes. -/
structure Records {ν : Type} (r : Runner σ) (note : String → Arguments → ν)
    (view : World σ → List ν) : Prop where
  executor : ∀ tool ∈ r.tools.tools, ∀ args w,
    view ((tool.executor.call tool.name args).perform w).2 = view w ++ [note tool.name args]
  fallback : ∀ run ∈ r.dispatcher.fallback?, ∀ name args w,
    view ((run name args).perform w).2 = view w ++ [note name args]
  formatRequest : ∀ messages options,
    Act.Keeps view (r.backend.formatRequest r.client messages r.tools options)
  send : ∀ request, Act.Keeps view (r.backend.send r.client request)
  parseReply : ∀ body, Act.Keeps view (r.backend.parseReply body)
  sleep : ∀ wait, Act.Keeps view (r.clock.sleep wait)
  random : Act.Keeps view r.clock.random

namespace Records

variable {ν : Type} {note : String → Arguments → ν} {view : World σ → List ν}

theorem keeps_ask (h : r.Records note view) (options : RunOptions) (pending : List Message) :
    Act.Keeps view (r.ask options pending) := by
  refine (h.formatRequest pending options).bind fun request => ?_
  refine (r.retry.keeps_execute h.sleep h.random (h.send request)).bind fun body => ?_
  exact (h.parseReply body).bind fun _ => Act.keeps_pure _

theorem view_answer (h : r.Records note view) {call : ToolCall} {args : Arguments}
    {act : Act σ Json} (hanswers : r.dispatcher.Answers r.tools call args act) (w : World σ) :
    view (act.attempt.perform w).2 = view w ++ [note call.name args] := by
  rw [Act.attempt_world]
  cases hanswers with
  | @executor tool htool =>
    have hname : tool.name = call.name := by simpa using List.find?_some htool
    rw [← hname]
    exact h.executor tool (List.mem_of_find?_eq_some htool) _ w
  | fallback _ hrun => exact h.fallback _ hrun _ _ w

theorem view_executes (h : r.Records note view) {items : List ReplyItem} {w w' : World σ}
    {xs : List Execution} {result : Except Failure (List Message)}
    (hx : r.Executes items w xs result w') :
    view w' = view w ++ xs.map fun x => note x.call.name x.arguments := by
  induction hx with
  | nil | ignored => exact (List.append_nil _).symm
  | message _ ih => exact ih
  | @call _ _ _ _ _ w _ _ _ _ hanswers houtcome _ ih =>
    have hview := h.view_answer hanswers w
    rw [houtcome] at hview
    rw [ih, hview, List.append_assoc]
    rfl
  | @faulted _ _ _ _ w _ hanswers hfault =>
    have hview := h.view_answer hanswers w
    rwa [hfault] at hview

end Records

end Runner

end Colloquy
