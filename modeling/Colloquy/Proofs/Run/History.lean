import Colloquy.Proofs.Retry
import Colloquy.Run

/-!
# Colloquy — histories of runs

A run is told by its history: the turns that were completed, in order, and the requests
that the backend was given to write, among them that of a turn that failed. Every run
has a history (`Runner.exists_history`), and the history determines the run
(`Runner.History.perform_eq`).

* `Turn`, `Runner.Takes` — one completed turn.
* `Runner.Leads` — turns that all await a reply.
* `Runner.History` — turns until the conversation is complete, or something fails.
* `Runner.Notes`, `Runner.History.view_eq` — a backend that notes what it is given to
  write notes the requests of the history.
-/

namespace Colloquy

/-- What a backend is given to write as a request. -/
structure Request where
  messages : List Message
  options : RunOptions

/-- A completed turn: the request, the reply, and the messages made of the reply. -/
structure Turn where
  request : Request
  reply : Reply
  output : List Message

/-- The turn ends in the result of a call, which is to be sent back. -/
def Turn.awaits (t : Turn) : Bool :=
  awaitsReply t.output

/-- The request of the next turn. -/
def Progress.request (p : Progress) (options : RunOptions) : Request :=
  { messages := p.pending, options := p.turnOptions options }

namespace Runner

variable {σ : Type} {r : Runner σ} {options : RunOptions} {messages : List Message}

-- ---------------------------------------------------------------------------
-- One turn
-- ---------------------------------------------------------------------------

/-- A turn is completed from a world to another: the backend replies to the request that is due, the
calls of its reply are answered, and messages are made of it. -/
structure Takes (r : Runner σ) (options : RunOptions) (p : Progress) (w : World σ) (t : Turn)
    (w' : World σ) : Prop where
  request_eq : t.request = p.request options
  exchange : ∃ body w₁,
    (r.ask t.request.options t.request.messages).perform w = (.ok (body, t.reply), w₁) ∧
      (r.outputs t.reply.items).perform w₁ = (.ok t.output, w')
  output_ne_nil : t.output ≠ []

/-- Where the run stands after a completed turn that awaits a reply. -/
def after (r : Runner σ) (messages : List Message) (p : Progress) (t : Turn) : Progress :=
  p.next messages t.output (r.handleAfter p t.reply)

/-- Turns that all await a reply lead from a standing and a world to others. -/
inductive Leads (r : Runner σ) (messages : List Message) (options : RunOptions) :
    Progress → World σ → List Turn → Progress → World σ → Prop
  | refl (p : Progress) (w : World σ) : Leads r messages options p w [] p w
  | next {p p' : Progress} {w w' w'' : World σ} {t : Turn} {turns : List Turn}
      (h : r.Takes options p w t w') (hmore : t.awaits = true)
      (hrest : Leads r messages options (r.after messages p t) w' turns p' w'') :
      Leads r messages options p w (t :: turns) p' w''

theorem Takes.perform_eq {p : Progress} {w w' : World σ} {t : Turn}
    (h : r.Takes options p w t w') :
    (r.takeTurn options p).perform w = (.ok (t.output, r.handleAfter p t.reply), w') := by
  obtain ⟨hrequest, ⟨body, w₁, hask, houtputs⟩, hne⟩ := h
  rw [hrequest] at hask
  unfold takeTurn
  rw [Act.perform_bind_eq_ok_iff]
  refine ⟨_, _, hask, ?_⟩
  rw [Act.perform_bind_eq_ok_iff]
  refine ⟨_, _, houtputs, ?_⟩
  rw [if_neg (by simpa using hne)]
  rfl

theorem exists_takes {p : Progress} {w w' : World σ} {output : List Message}
    {handle? : Option String}
    (h : (r.takeTurn options p).perform w = (.ok (output, handle?), w')) :
    ∃ t, r.Takes options p w t w' ∧ t.output = output ∧ r.handleAfter p t.reply = handle? := by
  unfold takeTurn at h
  rw [Act.perform_bind_eq_ok_iff] at h
  obtain ⟨⟨body, reply⟩, w₁, hask, h⟩ := h
  rw [Act.perform_bind_eq_ok_iff] at h
  obtain ⟨output', w₂, houtputs, h⟩ := h
  split at h
  · simp at h
  · next hne =>
    rw [Act.perform_pure] at h
    obtain ⟨⟨rfl, rfl⟩, rfl⟩ : (output' = output ∧ r.handleAfter p reply = handle?) ∧ w₂ = w' := by
      simpa using h
    exact ⟨⟨p.request options, reply, output'⟩,
      ⟨rfl, ⟨body, w₁, hask, houtputs⟩, by simpa using hne⟩, rfl, rfl⟩

-- ---------------------------------------------------------------------------
-- Histories
-- ---------------------------------------------------------------------------

/-- Turns taken, at most so many, from a standing and a world, with the requests written, to a
result in a world. -/
inductive History (r : Runner σ) (messages : List Message) (options : RunOptions) :
    Nat → Progress → World σ → List Turn → List Request → Except Failure Completion → World σ →
      Prop
  | exhausted (p : Progress) (w : World σ) :
      History r messages options 0 p w [] [] (.error (.error (.turnLimitExceeded r.turnLimit))) w
  | failed {left : Nat} {p : Progress} {w w' : World σ} {f : Failure}
      (h : (r.takeTurn options p).perform w = (.error f, w')) :
      History r messages options (left + 1) p w [] [p.request options] (.error f) w'
  | finished {left : Nat} {p : Progress} {w w' : World σ} {t : Turn}
      (h : r.Takes options p w t w') (hlast : t.awaits = false) :
      History r messages options (left + 1) p w [t] [t.request]
        (.ok (p.finish messages t.output (r.handleAfter p t.reply))) w'
  | continued {left : Nat} {p : Progress} {w w' w'' : World σ} {t : Turn} {turns : List Turn}
      {requests : List Request} {result : Except Failure Completion}
      (h : r.Takes options p w t w') (hmore : t.awaits = true)
      (hrest :
        History r messages options left (r.after messages p t) w' turns requests result w'') :
      History r messages options (left + 1) p w (t :: turns) (t.request :: requests) result w''

/-- The history determines the result and the world of the run. -/
theorem History.perform_eq {left : Nat} {p : Progress} {w w' : World σ} {turns : List Turn}
    {requests : List Request} {result : Except Failure Completion}
    (h : r.History messages options left p w turns requests result w') :
    (r.turnsFrom messages options left p).perform w = (result, w') := by
  induction h with
  | exhausted => rfl
  | failed h =>
    rw [turnsFrom, Act.perform_bind, h]
  | finished h hlast =>
    rw [turnsFrom, Act.perform_bind, h.perform_eq]
    have hlast' : awaitsReply _ = false := hlast
    simp [hlast']
  | continued h hmore _ ih =>
    rw [turnsFrom, Act.perform_bind, h.perform_eq]
    have hmore' : awaitsReply _ = true := hmore
    simp only [hmore', if_true]
    exact ih

/-- Every run has a history. -/
theorem exists_history (r : Runner σ) (messages : List Message) (options : RunOptions) (left : Nat)
    (p : Progress) (w : World σ) :
    ∃ turns requests result w', r.History messages options left p w turns requests result w' := by
  induction left generalizing p w with
  | zero => exact ⟨[], [], _, w, .exhausted p w⟩
  | succ left ih =>
    -- the turn fails, or it is a turn of the history and the rest follows if it awaits a reply
    rcases hturn : (r.takeTurn options p).perform w with ⟨f | ⟨output, handle?⟩, w₁⟩
    · exact ⟨[], _, .error f, w₁, .failed hturn⟩
    · obtain ⟨t, ht, -, -⟩ := exists_takes hturn
      cases hmore : t.awaits with
      | false => exact ⟨[t], _, _, w₁, .finished ht hmore⟩
      | true =>
        obtain ⟨turns, requests, result, w', hrest⟩ := ih (r.after messages p t) w₁
        exact ⟨t :: turns, t.request :: requests, result, w', .continued ht hmore hrest⟩

theorem Takes.unique {p : Progress} {w w' w'' : World σ} {t t' : Turn}
    (h : r.Takes options p w t w') (h' : r.Takes options p w t' w'') : t = t' ∧ w' = w'' := by
  obtain ⟨request, reply, output⟩ := t
  obtain ⟨request', reply', output'⟩ := t'
  -- acts have one result in a world, so both turns go through the same worlds
  obtain ⟨rfl, ⟨body, w₁, hask, houtputs⟩, -⟩ := h
  obtain ⟨rfl, ⟨body', w₁', hask', houtputs'⟩, -⟩ := h'
  obtain ⟨⟨rfl, rfl⟩, rfl⟩ : (body = body' ∧ reply = reply') ∧ w₁ = w₁' := by
    simpa using hask.symm.trans hask'
  obtain ⟨rfl, rfl⟩ : output = output' ∧ w' = w'' := by
    simpa using houtputs.symm.trans houtputs'
  exact ⟨rfl, rfl⟩

/-- A run has one history. -/
theorem History.unique {left : Nat} {p : Progress} {w w' w'' : World σ} {turns turns' : List Turn}
    {requests requests' : List Request} {result result' : Except Failure Completion}
    (h : r.History messages options left p w turns requests result w')
    (h' : r.History messages options left p w turns' requests' result' w'') :
    turns = turns' ∧ requests = requests' := by
  induction h generalizing turns' requests' with
  | exhausted =>
    cases h'
    exact ⟨rfl, rfl⟩
  | failed h =>
    cases h' with
    | failed => exact ⟨rfl, rfl⟩
    | finished h' => exact absurd (h.symm.trans h'.perform_eq) (by simp)
    | continued h' => exact absurd (h.symm.trans h'.perform_eq) (by simp)
  | finished h hlast =>
    cases h' with
    | failed h' => exact absurd (h.perform_eq.symm.trans h') (by simp)
    | finished h' =>
      obtain ⟨rfl, -⟩ := h.unique h'
      exact ⟨rfl, rfl⟩
    | continued h' hmore =>
      obtain ⟨rfl, -⟩ := h.unique h'
      exact absurd (hlast.symm.trans hmore) (by simp)
  | continued h hmore _ ih =>
    cases h' with
    | failed h' => exact absurd (h.perform_eq.symm.trans h') (by simp)
    | finished h' hlast =>
      obtain ⟨rfl, -⟩ := h.unique h'
      exact absurd (hmore.symm.trans hlast) (by simp)
    | continued h' _ hrest' =>
      obtain ⟨rfl, rfl⟩ := h.unique h'
      obtain ⟨rfl, rfl⟩ := ih hrest'
      exact ⟨rfl, rfl⟩

-- ---------------------------------------------------------------------------
-- Notes of requests
-- ---------------------------------------------------------------------------

/-- A view of the world to which the backend adds a note of each request that it is given to write,
and that nothing else in a run changes. -/
structure Notes {ν : Type} (r : Runner σ) (note : Request → ν) (view : World σ → List ν) :
    Prop where
  formatRequest : ∀ messages options w,
    view ((r.backend.formatRequest r.client messages r.tools options).perform w).2 =
      view w ++ [note { messages := messages, options := options }]
  send : ∀ request, Act.Keeps view (r.backend.send r.client request)
  parseReply : ∀ body, Act.Keeps view (r.backend.parseReply body)
  answer : ∀ call, ∀ act ∈ r.dispatcher.answerer? r.tools call, Act.Keeps view act
  sleep : ∀ wait, Act.Keeps view (r.clock.sleep wait)
  random : Act.Keeps view r.clock.random

section

variable {ν : Type} {note : Request → ν} {view : World σ → List ν}

theorem Notes.keeps_outputs (h : r.Notes note view) (items : List ReplyItem) :
    Act.Keeps view (r.outputs items) := by
  induction items with
  | nil => exact Act.keeps_pure _
  | cons item items ih =>
    cases item with
    | message m => exact ih.bind fun _ => Act.keeps_pure _
    | call made =>
      refine Act.Keeps.bind ?_ fun _ => ih.bind fun _ => Act.keeps_pure _
      refine Act.Keeps.bind ?_ fun _ => (Act.keeps_pure _).bind fun _ => Act.keeps_pure _
      unfold Dispatcher.invoke
      split
      · next act hact => exact ((h.answer made act hact).attempt).bind fun _ => Act.keeps_pure _
      · exact Act.keeps_throw _

/-- Asking the backend notes one request, whether it succeeds or fails. -/
theorem Notes.view_ask (h : r.Notes note view) (options : RunOptions) (pending : List Message)
    (w : World σ) :
    view ((r.ask options pending).perform w).2 =
      view w ++ [note { messages := pending, options := options }] := by
  have hformat := h.formatRequest pending options w
  unfold ask
  rw [Act.perform_bind]
  rcases hperform : (r.backend.formatRequest r.client pending r.tools options).perform w with
    ⟨f | request, w₁⟩
  · rw [hperform] at hformat
    exact hformat
  · rw [hperform] at hformat
    rw [← hformat]
    -- the note is made by now, and neither the retries nor the reply change it
    refine Act.Keeps.bind ?_ (fun body => ?_) w₁
    · exact r.retry.keeps_execute h.sleep h.random (h.send request)
    · exact (h.parseReply body).bind fun _ => Act.keeps_pure _

theorem Notes.view_takeTurn (h : r.Notes note view) (options : RunOptions) (p : Progress)
    (w : World σ) :
    view ((r.takeTurn options p).perform w).2 = view w ++ [note (p.request options)] := by
  have hask := h.view_ask (p.turnOptions options) p.pending w
  unfold takeTurn
  rw [Act.perform_bind]
  rcases hperform : (r.ask (p.turnOptions options) p.pending).perform w with ⟨f | ⟨body, reply⟩, w₁⟩
  · rw [hperform] at hask
    exact hask
  · rw [hperform] at hask
    refine Eq.trans ?_ hask
    refine (h.keeps_outputs reply.items).bind (fun output => ?_) w₁
    split
    · exact Act.keeps_throw _
    · exact Act.keeps_pure _

/-- A backend that notes what it is given to write notes the requests of the history, each once. -/
theorem History.view_eq {left : Nat} {p : Progress} {w w' : World σ} {turns : List Turn}
    {requests : List Request} {result : Except Failure Completion}
    (h : r.History messages options left p w turns requests result w')
    (hnotes : r.Notes note view) :
    view w' = view w ++ requests.map note := by
  induction h with
  | exhausted => simp
  | @failed _ p w w' _ h =>
    have hview := hnotes.view_takeTurn options p w
    rwa [h] at hview
  | @finished _ p w w' t h _ =>
    have hview := hnotes.view_takeTurn options p w
    rw [h.perform_eq] at hview
    rw [h.request_eq]
    exact hview
  | @continued _ p w w' w'' t _ _ _ h _ _ ih =>
    have hview := hnotes.view_takeTurn options p w
    rw [h.perform_eq] at hview
    rw [ih, hview, ← h.request_eq, List.append_assoc]
    rfl

end

end Runner

end Colloquy
