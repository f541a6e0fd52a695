import Colloquy.Proofs.Run.Rehearsal
import Colloquy.Proofs.Run.Standing
import Mathlib.Data.List.Infix

/-!
# Colloquy — runs without a server's memory

A backend that keeps no conversations is sent everything in every turn: the messages
of the beginning and the outputs of all turns so far (`Runner.Resends`). No handle is
ever sent to it, whatever the options and the replies say, and a choice of a tool is
sent in the first turn only.
-/

namespace Colloquy

-- ---------------------------------------------------------------------------
-- Options of a turn
-- ---------------------------------------------------------------------------

/-- The options of a turn without a handle, by its place in the run. -/
def RunOptions.resent (options : RunOptions) (place : Nat) : RunOptions :=
  let options := options.remove "previous_response_id"
  if 0 < place then options.remove "tool_choice" else options

namespace RunOptions

theorem resent_handle (options : RunOptions) (place : Nat) :
    (options.resent place).contains "previous_response_id" = false := by
  unfold resent
  split
  · rw [contains_remove, contains_remove]
    rfl
  · rw [contains_remove]
    rfl

theorem resent_toolChoice (options : RunOptions) {place : Nat} (h : 0 < place) :
    (options.resent place).contains "tool_choice" = false := by
  rw [resent, if_pos h, contains_remove]
  rfl

end RunOptions

namespace Runner

variable {σ : Type} {r : Runner σ} {options : RunOptions} {messages : List Message}

-- ---------------------------------------------------------------------------
-- Requests
-- ---------------------------------------------------------------------------

/-- Without a handle, each request holds everything that was said before its turn. -/
theorem request_standing_of_none {turns : List Turn} (h : r.heldHandle? options turns = none) :
    (r.standing messages options turns).request options =
      { messages := messages ++ turns.flatMap Turn.output
        options := options.resent turns.length } := by
  rw [Progress.request, pending_standing_of_none h, Progress.turnOptions, handle?_standing, h,
    turns_standing]
  rfl

theorem History.getElem_requests_of_stateless {w w' : World σ} {turns : List Turn}
    {requests : List Request} {result : Except Failure Completion} {left : Nat}
    (h : r.History messages options left (.start false messages options) w turns requests result w')
    (hs : r.backend.isStateful = false) (i : Nat) (hi : i < requests.length) :
    requests[i] =
      { messages := messages ++ (turns.take i).flatMap Turn.output
        options := options.resent i } := by
  have hlength : (turns.take i).length = i := by
    have := h.length_requests_le_turns
    rw [List.length_take]
    omega
  have hheld : r.heldHandle? options (turns.take i) = none := by
    rw [heldHandle?, hs]
    rfl
  have hstanding := h.getElem_requests i hi
  rw [← hs] at hstanding
  rw [hstanding]
  show (r.standing messages options (turns.take i)).request options = _
  rw [request_standing_of_none hheld, hlength]

theorem Runs.getElem_requests_of_stateless {w w' : World σ} {turns : List Turn}
    {requests : List Request} {result : Except Failure Completion}
    (h : r.Runs messages options w turns requests result w') (hs : r.backend.isStateful = false)
    (i : Nat) (hi : i < requests.length) :
    requests[i] =
      { messages := messages ++ (turns.take i).flatMap Turn.output
        options := options.resent i } := by
  have hhistory := h.history
  rw [hs] at hhistory
  exact hhistory.getElem_requests_of_stateless hs i hi

/-- Requests that send everything again: the messages of the beginning and the outputs of the turns
before, without a handle, and with a choice of a tool in the first at most. -/
structure Resends (messages : List Message) (turns : List Turn) (requests : List Request) :
    Prop where
  messages_eq : ∀ i (hi : i < requests.length),
    requests[i].messages = messages ++ (turns.take i).flatMap Turn.output
  extends_previous : ∀ i (hi : i + 1 < requests.length), ∃ t, turns[i]? = some t ∧
    t.output ≠ [] ∧ requests[i + 1].messages = requests[i].messages ++ t.output
  no_handle : ∀ request ∈ requests, request.options.contains "previous_response_id" = false
  tool_choice_first : ∀ i (hi : i < requests.length), 0 < i →
    requests[i].options.contains "tool_choice" = false

theorem History.resends {w w' : World σ} {turns : List Turn} {requests : List Request}
    {result : Except Failure Completion} {left : Nat}
    (h : r.History messages options left (.start false messages options) w turns requests result w')
    (hs : r.backend.isStateful = false) : Resends messages turns requests := by
  have hrequest := h.getElem_requests_of_stateless hs
  have hmessages : ∀ i (hi : i < requests.length),
      requests[i].messages = messages ++ (turns.take i).flatMap Turn.output := by
    intro i hi
    rw [hrequest i hi]
  refine ⟨hmessages, fun i hi => ?_, fun request hmem => ?_, fun i hi hpos => ?_⟩
  -- a request that is not the last was answered, so its turn is there
  · have hlt : i < turns.length := by
      have := h.length_requests_le_turns
      omega
    refine ⟨turns[i], List.getElem?_eq_getElem hlt, h.output_ne_nil _ (List.getElem_mem hlt), ?_⟩
    rw [hmessages _ hi, hmessages _ (by omega), List.take_succ_eq_append_getElem hlt,
      List.flatMap_append, List.flatMap_singleton, List.append_assoc]
  · obtain ⟨i, hi, rfl⟩ := List.getElem_of_mem hmem
    rw [hrequest i hi]
    exact RunOptions.resent_handle _ _
  · rw [hrequest i hi]
    exact RunOptions.resent_toolChoice _ (by omega)

/-- A transcript begins with every request of its run. -/
theorem Resends.messages_prefix {turns : List Turn} {requests : List Request} {rest : List Message}
    (h : Resends messages turns requests) {request : Request} (hmem : request ∈ requests) :
    request.messages <+: messages ++ turns.flatMap Turn.output ++ rest := by
  obtain ⟨i, hi, rfl⟩ := List.getElem_of_mem hmem
  rw [h.messages_eq i hi, List.append_assoc, List.prefix_append_right_inj]
  have htake := List.IsPrefix.flatMap (List.take_prefix i turns) Turn.output
  exact htake.trans (List.prefix_append _ rest)

/-- A backend without memory is sent the messages of the beginning and the outputs of all turns so
far in every turn, each request being the beginning of the next and of the final transcript. It is
never sent a handle, and a choice of a tool in the first turn only. -/
theorem run_resends (r : Runner σ) (hs : r.backend.isStateful = false) (messages : List Message)
    (options : RunOptions) (w : World σ) :
    ∃ turns requests result w',
      r.History messages options r.turnLimit (.start r.backend.isStateful messages options) w
        turns requests result w' ∧
      (r.run messages options).perform w = (result, w') ∧
      (∀ (ν : Type) (note : Request → ν) (view : World σ → List ν), r.Notes note view →
        view w' = view w ++ requests.map note) ∧
      Resends messages turns requests ∧
      ∀ c, result = .ok c → ∀ request ∈ requests, request.messages <+: c.messages := by
  obtain ⟨turns, requests, result, w', h⟩ := r.exists_history messages options r.turnLimit
    (.start r.backend.isStateful messages options) w
  have hresends : Resends messages turns requests := by
    rw [hs] at h
    exact h.resends hs
  refine ⟨turns, requests, result, w', h, h.perform_eq, fun ν note view hnotes => h.view_eq hnotes,
    hresends, fun c hc request hmem => ?_⟩
  subst hc
  rw [h.completes.messages_eq]
  exact hresends.messages_prefix hmem

/-- A run of two turns on a scripted backend, the first of which ends in the result of a call. The
handles of its replies and of its options are not sent, and the two requests are what the backend
recorded. -/
theorem run_resends_scripted :
    let r : Runner Stage :=
      { backend := Stage.backend false
        client := { url := "http://localhost", model := "scripted-model" }
        clock := Stage.clock }
    let options : RunOptions := { values := [("previous_response_id", .str "resp_0")] }
    let w : World Stage :=
      { invented := 0
        outer :=
          { replies :=
              [.reply { items := [.message (.ofText .functionCallOutput "4")],
                        handle? := some "resp_1" },
               .reply { items := [.text "four"], handle? := some "resp_2" }] } }
    r.backend.isStateful = false ∧
      ∃ turns requests c w', (r.run [.user "2+2?"] options).perform w = (.ok c, w') ∧
        c.turns = 2 ∧ Resends [.user "2+2?"] turns requests ∧ requests.length = 2 ∧
        Stage.sentIn w' = requests.map
          fun q => Stage.requestEntry r.client q.messages r.tools q.options := by
  intro r options w
  obtain ⟨turns, requests, result, w', h, hperform, hnoted, hresends, -⟩ :=
    r.run_resends rfl [.user "2+2?"] options w
  have hrehearses : Stage.Rehearses r := ⟨⟨false, rfl⟩, rfl, by simp [r], ⟨none, rfl⟩⟩
  obtain ⟨c, hc, hturns⟩ :
      ∃ c, ((r.run [.user "2+2?"] options).perform w).1 = .ok c ∧ c.turns = 2 :=
    ⟨_, rfl, rfl⟩
  rw [hperform] at hc
  obtain rfl : result = .ok c := hc
  have hcompletes := h.completes
  refine ⟨rfl, turns, requests, c, w', hperform, hturns, hresends, ?_,
    hnoted _ _ _ (Stage.notes_sent hrehearses)⟩
  rw [hcompletes.length_requests]
  have := hcompletes.turns_eq
  rw [hturns] at this
  simpa [Progress.start] using this.symm

end Runner

end Colloquy
