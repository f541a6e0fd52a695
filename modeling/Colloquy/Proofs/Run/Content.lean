import Colloquy.Proofs.Backend.Replies
import Colloquy.Proofs.Run.Execution
import Colloquy.Proofs.Run.Standing

/-!
# Colloquy — contents of requests

The messages of a request are messages of the beginning and outputs of turns, so what holds
of these holds of all that a backend is sent (`Runner.Runs.forall_request`). Outputs are
messages of the reply, and calls with their results (`Runner.Takes.role_of_output`).
-/

namespace Colloquy

theorem Progress.initialPending_subset (messages : List Message) (handle? : Option String)
    (resumeAfter : Option Nat) : initialPending messages handle? resumeAfter ⊆ messages := by
  unfold initialPending
  split
  · split
    · exact List.drop_subset _ _
    · exact List.Subset.refl _
  · exact List.Subset.refl _

/-- Messages that are woven together are those of items, and calls with their results. -/
theorem mem_weave {items : List ReplyItem} {xs : List Execution} {m : Message}
    (h : m ∈ weave items xs) : .message m ∈ items ∨ ∃ x ∈ xs, m ∈ x.messages := by
  induction items generalizing xs with
  | nil => exact absurd h List.not_mem_nil
  | cons item items ih =>
    cases item with
    | message first =>
      rcases List.mem_cons.mp h with rfl | h
      · exact Or.inl List.mem_cons_self
      · exact (ih h).imp_left (List.mem_cons_of_mem _)
    | call made =>
      cases xs with
      | nil => exact absurd h List.not_mem_nil
      | cons x xs =>
        rcases List.mem_append.mp h with h | h
        · exact Or.inr ⟨x, List.mem_cons_self, h⟩
        · rcases ih h with hitem | ⟨later, hlater, hm⟩
          · exact Or.inl (List.mem_cons_of_mem _ hitem)
          · exact Or.inr ⟨later, List.mem_cons_of_mem _ hlater, hm⟩

theorem Execution.role_of_mem_messages {x : Execution} {m : Message} (h : m ∈ x.messages) :
    m.role = .functionCall ∨ m.role = .functionCallOutput := by
  unfold messages at h
  split at h
  · rcases List.mem_cons.mp h with rfl | h
    · exact Or.inl rfl
    · obtain rfl := List.mem_singleton.mp h
      exact Or.inr rfl
  · exact absurd h List.not_mem_nil

namespace Runner

variable {σ : Type} {r : Runner σ} {options : RunOptions} {messages : List Message}

/-- What is sent next are messages of the beginning and outputs of the turns so far. -/
theorem pending_standing_subset (r : Runner σ) (messages : List Message) (options : RunOptions)
    (turns : List Turn) :
    (r.standing messages options turns).pending ⊆ messages ++ turns.flatMap Turn.output := by
  cases turns using List.reverseRecOn with
  | nil =>
    rw [List.flatMap_nil, List.append_nil]
    exact Progress.initialPending_subset _ _ _
  | append_singleton turns t =>
    rw [pending_standing_concat]
    split
    · rw [List.flatMap_append, List.flatMap_singleton, ← List.append_assoc]
      exact List.subset_append_of_subset_right _ (callOutputs_sublist t.output).subset
    · exact List.Subset.refl _

/-- What holds of the messages of the beginning and of all outputs holds of every message that is
sent. -/
theorem Runs.forall_request {P : Message → Prop} {w w' : World σ} {turns : List Turn}
    {requests : List Request} {result : Except Failure Completion}
    (h : r.Runs messages options w turns requests result w') (hmessages : ∀ m ∈ messages, P m)
    (houtputs : ∀ t ∈ turns, ∀ m ∈ t.output, P m) :
    ∀ request ∈ requests, ∀ m ∈ request.messages, P m := by
  intro request hrequest m hm
  obtain ⟨i, hi, rfl⟩ := List.getElem_of_mem hrequest
  rw [h.getElem_requests i hi] at hm
  rcases List.mem_append.mp (r.pending_standing_subset messages options _ hm) with hm | hm
  · exact hmessages m hm
  · obtain ⟨t, ht, hm⟩ := List.mem_flatMap.mp hm
    exact houtputs t (List.mem_of_mem_take ht) m hm

theorem Takes.isPlain_reply (hplain : r.backend.RepliesPlainly) {p : Progress}
    {w w' : World σ} {t : Turn} (h : r.Takes options p w t w') : t.reply.IsPlain := by
  obtain ⟨body, w₁, hask, -⟩ := h.exchange
  have hreply : Act.Ensures (fun heard => heard.2.IsPlain) (fun _ => True)
      (r.ask t.request.options t.request.messages) := by
    refine (Act.ensures_true _).bind fun request _ => (Act.ensures_true _).bind fun body _ => ?_
    exact (hplain body).bind fun reply hreply => Act.ensures_pure hreply
  exact hreply.of_ok hask

/-- If the backend replies plainly, the outputs of a turn are messages of the assistant, calls and
their results. -/
theorem Takes.role_of_output (hplain : r.backend.RepliesPlainly) {p : Progress}
    {w w' : World σ} {t : Turn} (h : r.Takes options p w t w') :
    ∀ m ∈ t.output,
      m.role = .assistant ∨ m.role = .functionCall ∨ m.role = .functionCallOutput := by
  intro m hm
  obtain ⟨_, w₁, -, houtputs⟩ := h.exchange
  have hitems := h.isPlain_reply hplain
  obtain ⟨xs, hexecutes⟩ := r.exists_executes t.reply.items w₁
  rw [houtputs] at hexecutes
  rw [hexecutes.of_ok.2] at hm
  rcases mem_weave hm with hitem | ⟨x, -, hm⟩
  · exact Or.inl (hitems _ hitem)
  · exact Or.inr (Execution.role_of_mem_messages hm)

theorem Runs.role_of_output (hplain : r.backend.RepliesPlainly) {w w' : World σ}
    {turns : List Turn} {requests : List Request} {result : Except Failure Completion}
    (h : r.Runs messages options w turns requests result w') :
    ∀ t ∈ turns, ∀ m ∈ t.output,
      m.role = .assistant ∨ m.role = .functionCall ∨ m.role = .functionCallOutput := by
  intro t ht
  obtain ⟨i, hi⟩ := List.getElem?_of_mem ht
  obtain ⟨_, _, -, htakes⟩ := h.history.exists_leads hi
  exact htakes.role_of_output hplain

end Runner

end Colloquy
