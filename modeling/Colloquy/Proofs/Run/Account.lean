import Colloquy.Proofs.Run.Execution
import Colloquy.Proofs.Run.Standing
import Mathlib.Data.List.Forall2

/-!
# Colloquy — accounts of runs

The account of a run tells the replies that were read and, for each of them, the executions
of its calls (`Runner.Account`). Every run has one. All calls of the replies are executed
once, in the order of the replies, unless nobody answers one, which ends the run with an
error of its name, or one ends in a fault. However often a request was sent again, whoever
answers calls was asked no more often than that (`Runner.run_executes`). Null brings no
arguments, not even itself as the input (`Runner.run_executes_null`).
-/

namespace Colloquy

namespace Runner

variable {σ : Type} {r : Runner σ} {options : RunOptions} {messages : List Message}

/-- The turn is taken with these executions of the calls of its reply. -/
structure TakesBy (r : Runner σ) (options : RunOptions) (p : Progress) (w : World σ) (t : Turn)
    (xs : List Execution) (w' : World σ) : Prop extends r.Takes options p w t w' where
  executes : ∃ body w₁,
    (r.ask t.request.options t.request.messages).perform w = (.ok (body, t.reply), w₁) ∧
      r.Executes t.reply.items w₁ xs (.ok t.output) w'

/-- Turns taken, at most so many, from a standing and a world to a result in a world, with the
replies that were read and for each of them the executions of its calls. -/
inductive Account (r : Runner σ) (messages : List Message) (options : RunOptions) :
    Nat → Progress → World σ → List Turn → List Reply → List (List Execution) →
      Except Failure Completion → World σ → Prop
  | exhausted (p : Progress) (w : World σ) :
      Account r messages options 0 p w [] [] []
        (.error (.error (.turnLimitExceeded r.turnLimit))) w
  | refused {left : Nat} {p : Progress} {w w' : World σ} {f : Failure}
      (hask : (r.ask (p.turnOptions options) p.pending).perform w = (.error f, w')) :
      Account r messages options (left + 1) p w [] [] [] (.error f) w'
  | stopped {left : Nat} {p : Progress} {w w₁ w' : World σ} {body : Json} {reply : Reply}
      {xs : List Execution} {f : Failure}
      (hask : (r.ask (p.turnOptions options) p.pending).perform w = (.ok (body, reply), w₁))
      (h : r.Executes reply.items w₁ xs (.error f) w') :
      Account r messages options (left + 1) p w [] [reply] [xs] (.error f) w'
  | silent {left : Nat} {p : Progress} {w w₁ w' : World σ} {body : Json} {reply : Reply}
      {xs : List Execution}
      (hask : (r.ask (p.turnOptions options) p.pending).perform w = (.ok (body, reply), w₁))
      (h : r.Executes reply.items w₁ xs (.ok []) w') :
      Account r messages options (left + 1) p w [] [reply] [xs]
        (.error (.error
          (.vendorProtocol r.backend.name "response carried no messages" (some body)))) w'
  | finished {left : Nat} {p : Progress} {w w' : World σ} {t : Turn} {xs : List Execution}
      (h : r.TakesBy options p w t xs w') (hlast : t.awaits = false) :
      Account r messages options (left + 1) p w [t] [t.reply] [xs]
        (.ok (p.finish messages t.output (r.handleAfter p t.reply))) w'
  | continued {left : Nat} {p : Progress} {w w₁ w' : World σ} {t : Turn} {xs : List Execution}
      {turns : List Turn} {replies : List Reply} {executions : List (List Execution)}
      {result : Except Failure Completion}
      (h : r.TakesBy options p w t xs w₁) (hmore : t.awaits = true)
      (hrest : Account r messages options left (r.after messages p t) w₁ turns replies executions
        result w') :
      Account r messages options (left + 1) p w (t :: turns) (t.reply :: replies)
        (xs :: executions) result w'

theorem Takes.exists_takesBy {p : Progress} {w w' : World σ} {t : Turn}
    (h : r.Takes options p w t w') : ∃ xs, r.TakesBy options p w t xs w' := by
  obtain ⟨body, w₁, hask, houtputs⟩ := h.exchange
  obtain ⟨xs, hexecutes⟩ := r.exists_executes t.reply.items w₁
  rw [houtputs] at hexecutes
  exact ⟨xs, h, body, w₁, hask, hexecutes⟩

theorem History.exists_account {left : Nat} {p : Progress} {w w' : World σ} {turns : List Turn}
    {requests : List Request} {result : Except Failure Completion}
    (h : r.History messages options left p w turns requests result w') :
    ∃ replies executions,
      r.Account messages options left p w turns replies executions result w' := by
  induction h with
  | exhausted p w => exact ⟨[], [], .exhausted p w⟩
  | @failed _ p w w' f h =>
    -- the backend was not heard, or its reply stopped the turn, or there was nothing in it
    rw [takeTurn, Act.perform_bind_eq_error_iff] at h
    rcases h with hask | ⟨⟨body, reply⟩, w₁, hask, h⟩
    · exact ⟨[], [], .refused hask⟩
    · obtain ⟨xs, hexecutes⟩ := r.exists_executes reply.items w₁
      rw [Act.perform_bind_eq_error_iff] at h
      rcases h with houtputs | ⟨output, w₂, houtputs, h⟩
      · rw [houtputs] at hexecutes
        exact ⟨[reply], [xs], .stopped hask hexecutes⟩
      · rw [houtputs] at hexecutes
        split at h
        · next hempty =>
          obtain rfl := List.isEmpty_iff.mp hempty
          obtain ⟨hf, rfl⟩ := Prod.mk.inj h
          obtain rfl := Except.error.inj hf
          exact ⟨[reply], [xs], .silent hask hexecutes⟩
        · simp at h
  | finished h hlast =>
    obtain ⟨xs, hx⟩ := h.exists_takesBy
    exact ⟨_, [xs], .finished hx hlast⟩
  | continued h hmore _ ih =>
    obtain ⟨xs, hx⟩ := h.exists_takesBy
    obtain ⟨replies, executions, hrest⟩ := ih
    exact ⟨_, xs :: executions, .continued hx hmore hrest⟩

namespace Account

variable {left : Nat} {p : Progress} {w w' : World σ} {turns : List Turn} {replies : List Reply}
  {executions : List (List Execution)} {result : Except Failure Completion}

theorem answers
    (h : r.Account messages options left p w turns replies executions result w') :
    ∀ x ∈ executions.flatten, ∃ act, r.dispatcher.Answers r.tools x.call x.arguments act := by
  induction h with
  | exhausted | refused => exact List.forall_mem_nil _
  | stopped _ h | silent _ h => simpa using h.answers
  | finished h _ =>
    obtain ⟨_, _, -, hx⟩ := h.executes
    simpa using hx.answers
  | continued h _ _ ih =>
    obtain ⟨_, _, -, hx⟩ := h.executes
    rw [List.flatten_cons, List.forall_mem_append]
    exact ⟨hx.answers, ih⟩

theorem fault_of_outcome
    (h : r.Account messages options left p w turns replies executions result w') :
    ∀ x ∈ executions.flatten, x.outcome? = none → result = .error .fault := by
  induction h with
  | exhausted | refused => exact List.forall_mem_nil _
  | stopped _ h =>
    rw [List.flatten_singleton]
    intro x hx hnone
    rw [Except.error.inj (h.fault_of_outcome x hx hnone)]
  | silent _ h =>
    rw [List.flatten_singleton]
    exact fun x hx hnone => absurd (h.fault_of_outcome x hx hnone) nofun
  | finished h _ =>
    obtain ⟨_, _, -, hexecutes⟩ := h.executes
    rw [List.flatten_singleton]
    exact fun x hx hnone => absurd (hexecutes.fault_of_outcome x hx hnone) nofun
  | continued h _ _ ih =>
    obtain ⟨_, _, -, hexecutes⟩ := h.executes
    rw [List.flatten_cons, List.forall_mem_append]
    exact ⟨fun x hx hnone => absurd (hexecutes.fault_of_outcome x hx hnone) nofun, ih⟩

/-- All calls of the replies are executed, in order, unless the run stops at one. -/
theorem map_call
    (h : r.Account messages options left p w turns replies executions result w') :
    executions.flatten.map Execution.call = replies.flatMap Reply.toolCalls ∨
      ∃ f, r.StopsAt (replies.flatMap Reply.toolCalls) executions.flatten f ∧
        result = .error f := by
  induction h with
  | exhausted | refused => exact Or.inl rfl
  | stopped _ h =>
    rw [List.flatten_singleton, List.flatMap_singleton]
    exact Or.inr ⟨_, h.of_error, rfl⟩
  | silent _ h =>
    rw [List.flatten_singleton, List.flatMap_singleton]
    exact Or.inl h.of_ok.1
  | finished h _ =>
    obtain ⟨_, _, -, hx⟩ := h.executes
    rw [List.flatten_singleton, List.flatMap_singleton]
    exact Or.inl hx.of_ok.1
  | @continued _ _ _ _ _ t xs _ _ _ _ h _ _ ih =>
    obtain ⟨_, _, -, hx⟩ := h.executes
    have hcalls : xs.map Execution.call = t.reply.toolCalls := hx.of_ok.1
    rw [List.flatten_cons, List.flatMap_cons, List.map_append, ← hcalls]
    rcases ih with ih | ⟨f, hstops, rfl⟩
    · exact Or.inl (congrArg _ ih)
    · exact Or.inr ⟨f, hstops.append xs, rfl⟩

/-- The completed turns are those of the first replies, and their messages are those of the items
and the executions in turn. -/
theorem forall₂_output
    (h : r.Account messages options left p w turns replies executions result w') :
    replies.take turns.length = turns.map Turn.reply ∧
      List.Forall₂
        (fun t xs => xs.map Execution.call = t.reply.toolCalls ∧ t.output = weave t.reply.items xs)
        turns (executions.take turns.length) := by
  induction h with
  | exhausted | refused | stopped | silent => exact ⟨rfl, .nil⟩
  | finished h _ =>
    obtain ⟨_, _, -, hx⟩ := h.executes
    exact ⟨rfl, .cons hx.of_ok .nil⟩
  | continued h _ _ ih =>
    obtain ⟨_, _, -, hx⟩ := h.executes
    exact ⟨congrArg _ ih.1, .cons hx.of_ok ih.2⟩

end Account

section

variable {ν : Type} {note : String → Arguments → ν} {view : World σ → List ν}

theorem Records.view_ask (h : r.Records note view) {pending : List Message} {w w₁ : World σ}
    {heard : Except Failure (Json × Reply)}
    (hask : (r.ask options pending).perform w = (heard, w₁)) :
    view w₁ = view w := by
  have hkeeps := h.keeps_ask options pending w
  rwa [hask] at hkeeps

/-- The executions of a run are recorded, each once and in order. -/
theorem Records.view_account (h : r.Records note view) {left : Nat} {p : Progress} {w w' : World σ}
    {turns : List Turn} {replies : List Reply} {executions : List (List Execution)}
    {result : Except Failure Completion}
    (haccount : r.Account messages options left p w turns replies executions result w') :
    view w' = view w ++ executions.flatten.map fun x => note x.call.name x.arguments := by
  induction haccount with
  | exhausted => exact (List.append_nil _).symm
  | refused hask =>
    rw [h.view_ask hask]
    exact (List.append_nil _).symm
  | stopped hask hx | silent hask hx =>
    rw [h.view_executes hx, h.view_ask hask, List.flatten_singleton]
  | finished hturn _ =>
    obtain ⟨_, _, hask, hx⟩ := hturn.executes
    rw [h.view_executes hx, h.view_ask hask, List.flatten_singleton]
  | continued hturn _ _ ih =>
    obtain ⟨_, _, hask, hx⟩ := hturn.executes
    rw [ih, h.view_executes hx, h.view_ask hask, List.flatten_cons, List.map_append,
      List.append_assoc]

end

/-- Every call of the replies that are read is executed once and in order, unless the run stops at a
call that nobody answers, or with a fault. Whoever answers is given the arguments of the call and,
where it brings none, those of the tool's defaults; what it tells, be it an error, stands with the
call among the messages of the turn. -/
theorem run_executes (r : Runner σ) (messages : List Message) (options : RunOptions)
    (w : World σ) :
    ∃ turns requests replies executions result w',
      r.Runs messages options w turns requests result w' ∧
      r.Account messages options r.turnLimit (.start r.backend.isStateful messages options) w turns
        replies executions result w' ∧
      (executions.flatten.map Execution.call = replies.flatMap Reply.toolCalls ∨
        ∃ f, r.StopsAt (replies.flatMap Reply.toolCalls) executions.flatten f ∧
          result = .error f) ∧
      (∀ (ν : Type) (note : String → Arguments → ν) (view : World σ → List ν),
        r.Records note view →
          view w' = view w ++ executions.flatten.map fun x => note x.call.name x.arguments) ∧
      (∀ x ∈ executions.flatten,
        (∃ act, r.dispatcher.Answers r.tools x.call x.arguments act) ∧
        (∀ key, x.arguments.get? key =
          (x.call.argument? key).or
            ((r.tools.get? x.call.name).bind fun tool => tool.defaults.get? key)) ∧
        (∀ outcome, x.outcome? = some outcome →
          x.messages =
            [.functionCall x.call, .functionCallOutput ⟨x.call.id, outcomeText outcome⟩]) ∧
        (x.outcome? = none → result = .error .fault)) ∧
      replies.take turns.length = turns.map Turn.reply ∧
      List.Forall₂
        (fun t xs => xs.map Execution.call = t.reply.toolCalls ∧ t.output = weave t.reply.items xs)
        turns (executions.take turns.length) := by
  obtain ⟨turns, requests, result, w', hruns⟩ := r.exists_runs messages options w
  obtain ⟨replies, executions, h⟩ := hruns.history.exists_account
  refine ⟨turns, requests, replies, executions, result, w', hruns, h, h.map_call,
    fun ν note view hrecords => hrecords.view_account h, fun x hx => ?_, h.forall₂_output⟩
  obtain ⟨act, hanswers⟩ := h.answers x hx
  refine ⟨⟨act, hanswers⟩, hanswers.get?_arguments, fun outcome houtcome => ?_,
    h.fault_of_outcome x hx⟩
  rw [Execution.messages, houtcome]
  rfl

end Runner

-- ---------------------------------------------------------------------------
-- A call with null
-- ---------------------------------------------------------------------------

namespace Stage

/-- What collaborators were asked to do in a world. -/
def logIn (w : World Stage) : List Json := w.outer.log

/-- The record of an answered call. -/
def callEntry (name : String) (args : Arguments) : Json := .arr [.str name, args.toJson]

/-- A tool that records its arguments and tells them. -/
def echoTool : Tool Stage where
  name := "echo"
  description := ""
  parameters := .empty
  executor := .inline fun name args => do
    record [.str name, args.toJson]
    return args.toJson

/-- A runner on a stage with that tool. -/
def scribe : Runner Stage where
  backend := Stage.backend false
  client := { url := "http://localhost", model := "scripted-model" }
  tools := ⟨[echoTool]⟩
  clock := Stage.clock

theorem records_scribe : scribe.Records callEntry logIn where
  executor := by
    intro tool htool args w
    obtain rfl := List.mem_singleton.mp htool
    rfl
  fallback := nofun
  formatRequest := fun _ _ _ => rfl
  send := by
    rintro - ⟨invented, log, jobs, databases, replies, latest?, sent, waits⟩
    cases replies with
    | nil => rfl
    | cons next rest => cases next <;> rfl
  parseReply := by
    rintro - ⟨invented, log, jobs, databases, replies, latest?, sent, waits⟩
    cases latest? with
    | none => rfl
    | some latest => cases latest <;> rfl
  sleep := fun _ _ => rfl
  random := fun _ => rfl

end Stage

namespace Runner

/-- A call with null brings no arguments: the one who answers it is not given null as the input. -/
theorem run_executes_null :
    let made : ToolCall := ⟨"call_1", "echo", .null⟩
    let replies : List Reply := [{ items := [.call made] }, { items := [.text "done"] }]
    ∃ turns requests executions c w',
      Stage.scribe.Runs [.user "echo"] {} (Stage.opening replies) turns requests (.ok c) w' ∧
      Stage.scribe.Account [.user "echo"] {} Stage.scribe.turnLimit
        (.start false [.user "echo"] {}) (Stage.opening replies) turns replies executions (.ok c)
        w' ∧
      executions = [[⟨made, ⟨[]⟩, some (.ok (.obj []))⟩], []] ∧
      Stage.scribe.Records Stage.callEntry Stage.logIn ∧
      Stage.logIn w' = [Stage.callEntry "echo" ⟨[]⟩] ∧
      Stage.logIn w' ≠ [Stage.callEntry "echo" ⟨[("input", .null)]⟩] ∧
      .functionCallOutput ⟨"call_1", "\x7b\x7d"⟩ ∈ c.messages := by
  intro made replies
  have hruns : Stage.scribe.Runs [.user "echo"] {} (Stage.opening replies) [⟨_, _, _⟩, ⟨_, _, _⟩]
      _ _ _ := History.runs
    (.continued ⟨rfl, ⟨_, _, rfl, rfl⟩, List.cons_ne_nil _ _⟩ rfl
      (.finished ⟨rfl, ⟨_, _, rfl, rfl⟩, List.cons_ne_nil _ _⟩ rfl))
  have hanswers : Stage.scribe.dispatcher.Answers Stage.scribe.tools made ⟨[]⟩
      (Stage.echoTool.executor.call "echo" ⟨[]⟩) :=
    @Dispatcher.Answers.executor _ _ _ made Stage.echoTool rfl
  have hcall : ∀ w : World Stage, Stage.scribe.Executes [.call made] w
      [⟨made, ⟨[]⟩, some (.ok (.obj []))⟩]
      (.ok [.functionCall made, .functionCallOutput ⟨"call_1", "\x7b\x7d"⟩])
      ((Stage.record [.str "echo", .obj []]).perform w).2 := fun w =>
    @Executes.call _ _ _ _ _ _ _ w _ _ _ (.ok []) hanswers rfl (.nil _)
  have hanswer : ∀ w : World Stage, Stage.scribe.Executes [.text "done"] w []
      (.ok [.assistant "done"]) w := fun w => @Executes.message _ _ _ _ _ _ _ (.ok []) (.nil w)
  have haccount : Stage.scribe.Account [.user "echo"] {} Stage.scribe.turnLimit
      (.start false [.user "echo"] {}) (Stage.opening replies) [⟨_, _, _⟩, ⟨_, _, _⟩] replies
      [[⟨made, ⟨[]⟩, some (.ok (.obj []))⟩], []] _ _ :=
    .continued
      ⟨⟨rfl, ⟨_, _, rfl, rfl⟩, List.cons_ne_nil _ _⟩, _, _, rfl, hcall _⟩ rfl
      (.finished ⟨⟨rfl, ⟨_, _, rfl, rfl⟩, List.cons_ne_nil _ _⟩, _, _, rfl, hanswer _⟩ rfl)
  exact ⟨_, _, _, _, _, hruns, haccount, rfl, Stage.records_scribe, rfl, by decide, by decide⟩

end Runner

end Colloquy
