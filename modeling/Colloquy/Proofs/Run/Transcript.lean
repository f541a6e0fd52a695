import Colloquy.Proofs.Run.History

/-!
# Colloquy — transcripts of runs

A completed run leaves the messages it began with as they are and adds the outputs of
its turns, each once and in order, and a marker of the handle that is held at the end
(`Runner.Completes`). It takes no more turns than its limit, and it fails for the
limit if that many turns all awaited a reply (`Runner.run_transcript`).
-/

namespace Colloquy.Runner

variable {σ : Type} {r : Runner σ} {options : RunOptions} {messages : List Message}
  {left : Nat} {p : Progress} {w w' : World σ} {turns : List Turn} {requests : List Request}
  {result : Except Failure Completion}

-- ---------------------------------------------------------------------------
-- Completed runs
-- ---------------------------------------------------------------------------

/-- What a completed run says of the turns since it stood somewhere: there was one request for each,
every one but the last awaited a reply, and their outputs follow the earlier messages. -/
structure Completes (messages : List Message) (p : Progress) (turns : List Turn)
    (requests : List Request) (c : Completion) : Prop where
  messages_eq : c.messages = messages ++ (p.exchanges ++ turns.flatMap Turn.output) ++
    c.handle?.toList.map Message.continuation
  length_messages : c.messages.length = messages.length + c.newMessages
  turns_eq : c.turns = p.turns + turns.length
  length_requests : requests.length = turns.length
  last : ∃ earlier last, turns = earlier ++ [last] ∧ (∀ t ∈ earlier, t.awaits = true) ∧
    last.awaits = false

theorem completes_finish {t : Turn} (hlast : t.awaits = false) (handle? : Option String) :
    Completes messages p [t] [t.request] (p.finish messages t.output handle?) where
  messages_eq := by simp [Progress.finish]
  length_messages := by simp [Progress.finish]
  turns_eq := rfl
  length_requests := rfl
  last := ⟨[], t, rfl, by simp, hlast⟩

theorem Completes.cons {t : Turn} {c : Completion} (hmore : t.awaits = true)
    (h : Completes messages (r.after messages p t) turns requests c) :
    Completes messages p (t :: turns) (t.request :: requests) c where
  messages_eq := by
    rw [h.messages_eq]
    simp [after, Progress.next]
  length_messages := h.length_messages
  turns_eq := by
    rw [h.turns_eq, List.length_cons]
    simp only [after, Progress.next]
    omega
  length_requests := by rw [List.length_cons, List.length_cons, h.length_requests]
  last := by
    obtain ⟨earlier, last, rfl, hearlier, hlast⟩ := h.last
    exact ⟨t :: earlier, last, rfl, List.forall_mem_cons.mpr ⟨hmore, hearlier⟩, hlast⟩

namespace History

theorem completes {c : Completion}
    (h : r.History messages options left p w turns requests (.ok c) w') :
    Completes messages p turns requests c := by
  generalize hresult : Except.ok c = result at h
  induction h with
  | exhausted => simp at hresult
  | failed => simp at hresult
  | finished _ hlast =>
    obtain rfl := Except.ok.inj hresult
    exact completes_finish hlast _
  | continued _ hmore _ ih => exact (ih hresult).cons hmore

-- ---------------------------------------------------------------------------
-- The limit of turns
-- ---------------------------------------------------------------------------

theorem length_turns_le (h : r.History messages options left p w turns requests result w') :
    turns.length ≤ left := by
  induction h with
  | exhausted => exact Nat.le_refl _
  | failed => exact Nat.zero_le _
  | finished => simp
  | continued _ _ _ ih =>
    rw [List.length_cons]
    omega

theorem length_requests_le (h : r.History messages options left p w turns requests result w') :
    requests.length ≤ left := by
  induction h with
  | exhausted => exact Nat.le_refl _
  | failed => simp
  | finished => simp
  | continued _ _ _ ih =>
    rw [List.length_cons]
    omega

/-- A run that used up its turns, all of which awaited a reply, fails for the limit. -/
theorem result_of_awaits (h : r.History messages options left p w turns requests result w')
    (hlength : turns.length = left) (hawaits : ∀ t ∈ turns, t.awaits = true) :
    result = .error (.error (.turnLimitExceeded r.turnLimit)) := by
  induction h with
  | exhausted => rfl
  | failed => simp at hlength
  | finished _ hlast =>
    rw [hawaits _ (List.mem_cons_self ..)] at hlast
    exact absurd hlast (by simp)
  | continued _ _ _ ih =>
    rw [List.length_cons] at hlength
    exact ih (by omega) fun t ht => hawaits t (List.mem_cons_of_mem _ ht)

end History

-- ---------------------------------------------------------------------------
-- Failures of turns
-- ---------------------------------------------------------------------------

theorem invoke_failure {made : ToolCall} {f : Failure}
    (h : (r.dispatcher.invoke r.tools made).perform w = (.error f, w')) :
    f = .fault ∨ ∃ name, f = .error (.unknownTool name) := by
  unfold Dispatcher.invoke at h
  split at h
  · rw [Act.perform_bind_eq_error_iff] at h
    rcases h with h | ⟨outcome, w₁, -, h⟩
    · exact Or.inl (Act.attempt_failure h)
    · simp at h
  · rw [Act.perform_fail, Prod.mk.injEq, Except.error.injEq] at h
    exact Or.inr ⟨made.name, h.1.symm⟩

/-- Errors of calls are their outcomes: only a call that nobody answers and a fault end the turn. -/
theorem outputs_failure {items : List ReplyItem} {f : Failure}
    (h : (r.outputs items).perform w = (.error f, w')) :
    f = .fault ∨ ∃ name, f = .error (.unknownTool name) := by
  induction items generalizing w with
  | nil => simp [outputs] at h
  | cons item items ih =>
    cases item with
    | message m =>
      rw [outputs, Act.perform_bind_eq_error_iff] at h
      rcases h with h | ⟨others, w₁, -, h⟩
      · exact ih h
      · simp at h
    | call made =>
      rw [outputs, Act.perform_bind_eq_error_iff] at h
      rcases h with h | ⟨here, w₁, -, h⟩
      · rw [Dispatcher.dispatch, Act.perform_bind_eq_error_iff] at h
        rcases h with h | ⟨result, w₁, -, h⟩
        · exact invoke_failure h
        · simp [Dispatcher.dispatch] at h
      · rw [Act.perform_bind_eq_error_iff] at h
        rcases h with h | ⟨others, w₂, -, h⟩
        · exact ih h
        · simp at h

/-- A turn fails for a limit of turns only if asking the backend does. -/
theorem ask_of_takeTurn_limit {n : Nat}
    (h : (r.takeTurn options p).perform w = (.error (.error (.turnLimitExceeded n)), w')) :
    (r.ask (p.turnOptions options) p.pending).perform w =
      (.error (.error (.turnLimitExceeded n)), w') := by
  rw [takeTurn, Act.perform_bind_eq_error_iff] at h
  rcases h with h | ⟨⟨body, reply⟩, w₁, -, h⟩
  · exact h
  -- calls, and a turn without messages, fail in other ways
  · exfalso
    rw [Act.perform_bind_eq_error_iff] at h
    rcases h with h | ⟨output, w₂, -, h⟩
    · rcases outputs_failure h with hf | ⟨name, hf⟩ <;> simp at hf
    · split at h
      · simp at h
      · simp at h

/-- A run that fails for the limit used it up, or the backend reported that error when it was asked
after the completed turns. -/
theorem History.of_limit {n : Nat}
    (h : r.History messages options left p w turns requests
      (.error (.error (.turnLimitExceeded n))) w') :
    (turns.length = left ∧ ∀ t ∈ turns, t.awaits = true) ∨
      ∃ p₁ w₁, r.Leads messages options p w turns p₁ w₁ ∧
        (r.ask (p₁.turnOptions options) p₁.pending).perform w₁ =
          (.error (.error (.turnLimitExceeded n)), w') := by
  generalize hresult : Except.error (Failure.error (.turnLimitExceeded n)) = result at h
  induction h with
  | exhausted => exact Or.inl ⟨rfl, by simp⟩
  | @failed _ p w _ _ h =>
    obtain rfl := Except.error.inj hresult
    exact Or.inr ⟨p, w, .refl p w, ask_of_takeTurn_limit h⟩
  | finished => simp at hresult
  | continued h hmore _ ih =>
    rcases ih hresult with ⟨hlength, hawaits⟩ | ⟨p₁, w₁, hleads, hask⟩
    · refine Or.inl ⟨by rw [List.length_cons, hlength], ?_⟩
      exact List.forall_mem_cons.mpr ⟨hmore, hawaits⟩
    · exact Or.inr ⟨p₁, w₁, .next h hmore hleads, hask⟩

-- ---------------------------------------------------------------------------
-- Runs
-- ---------------------------------------------------------------------------

/-- A run takes at most as many turns as its limit. If it is completed, every turn made one request,
the messages are those of the beginning, the outputs of the turns and a marker of the handle that
is held, and all turns but the last awaited a reply. It fails for the limit if it used it up with
turns that all awaited a reply, and otherwise only if the backend reports that error when it is
asked after the completed turns. -/
theorem run_transcript (r : Runner σ) (messages : List Message) (options : RunOptions)
    (w : World σ) :
    ∃ turns requests result w',
      r.History messages options r.turnLimit (.start r.backend.isStateful messages options) w
        turns requests result w' ∧
      (r.run messages options).perform w = (result, w') ∧
      (∀ (ν : Type) (note : Request → ν) (view : World σ → List ν), r.Notes note view →
        view w' = view w ++ requests.map note) ∧
      turns.length ≤ r.turnLimit ∧ requests.length ≤ r.turnLimit ∧
      (∀ c, result = .ok c →
        c.messages = messages ++ turns.flatMap Turn.output ++
          c.handle?.toList.map Message.continuation ∧
        c.messages.length = messages.length + c.newMessages ∧
        c.turns = turns.length ∧ requests.length = turns.length ∧
        ∃ earlier last, turns = earlier ++ [last] ∧ (∀ t ∈ earlier, t.awaits = true) ∧
          last.awaits = false) ∧
      (turns.length = r.turnLimit → (∀ t ∈ turns, t.awaits = true) →
        result = .error (.error (.turnLimitExceeded r.turnLimit))) ∧
      (result = .error (.error (.turnLimitExceeded r.turnLimit)) →
        (turns.length = r.turnLimit ∧ ∀ t ∈ turns, t.awaits = true) ∨
          ∃ p₁ w₁, r.Leads messages options (.start r.backend.isStateful messages options) w
              turns p₁ w₁ ∧
            (r.ask (p₁.turnOptions options) p₁.pending).perform w₁ =
              (.error (.error (.turnLimitExceeded r.turnLimit)), w')) := by
  obtain ⟨turns, requests, result, w', h⟩ := r.exists_history messages options r.turnLimit
    (.start r.backend.isStateful messages options) w
  refine ⟨turns, requests, result, w', h, h.perform_eq, fun ν note view hnotes => h.view_eq hnotes,
    h.length_turns_le, h.length_requests_le, fun c hc => ?_, h.result_of_awaits, fun hlimit => ?_⟩
  · subst hc
    have hcompletes := h.completes
    refine ⟨?_, hcompletes.length_messages, ?_, hcompletes.length_requests, hcompletes.last⟩
    · rw [hcompletes.messages_eq]
      simp [Progress.start]
    · rw [hcompletes.turns_eq]
      simp [Progress.start]
  · subst hlimit
    exact h.of_limit

end Colloquy.Runner
