import Colloquy.Proofs.Run.Rehearsal
import Colloquy.Proofs.Run.Standing

/-!
# Colloquy — context of requests

A server can answer a request in its context if the request holds everything that was
said before it, or goes on under a handle that is not blank (`Request.KeepsContext`).
Every request of a run does so while no blank handle is held, and a blank handle is held
only after a reply issued it. Then the next request has neither: it holds no more than
the results of the last calls (`Runner.run_keepsContext_iff`).
-/

namespace Colloquy

/-- The request holds everything that was said, or goes on under a handle that is not blank. -/
def Request.KeepsContext (q : Request) (said : List Message) : Prop :=
  q.messages = said ∨
    ∃ handle, q.options.previousResponseId? = some handle ∧ Text.allBlank handle.toList = false

namespace Runner

variable {σ : Type} {r : Runner σ} {options : RunOptions} {messages : List Message}

-- ---------------------------------------------------------------------------
-- Blank handles
-- ---------------------------------------------------------------------------

/-- A handle that is held was issued by a reply, or is that of the options, which is not blank. -/
theorem not_allBlank_of_heldHandle? {turns : List Turn}
    (hissued : ∀ t ∈ turns, ∀ handle ∈ t.reply.handle?, Text.allBlank handle.toList = false)
    {handle : String} (h : r.heldHandle? options turns = some handle) :
    Text.allBlank handle.toList = false := by
  rw [heldHandle?] at h
  split at h
  · cases hlatest : latestHandle? turns with
    | none =>
      rw [hlatest] at h
      exact RunOptions.not_allBlank_of_previousResponseId? h
    | some latest =>
      rw [hlatest] at h
      obtain rfl : latest = handle := Option.some.inj h
      obtain ⟨t, ht, hhandle⟩ := List.mem_filterMap.mp (List.mem_of_getLast? hlatest)
      exact hissued t ht latest hhandle
  · exact absurd h (by simp)

namespace Runs

variable {w w' : World σ} {turns : List Turn} {requests : List Request}
  {result : Except Failure Completion}

theorem keepsContext_of_held (h : r.Runs messages options w turns requests result w') {i : Nat}
    (hi : i < requests.length)
    (hheld : ∀ handle ∈ r.heldHandle? options (turns.take i),
      Text.allBlank handle.toList = false) :
    requests[i].KeepsContext (messages ++ (turns.take i).flatMap Turn.output) := by
  cases hhandle : r.heldHandle? options (turns.take i) with
  | none =>
    left
    rw [h.getElem_requests i hi]
    exact pending_standing_of_none hhandle
  | some handle =>
    right
    have hblank := hheld handle hhandle
    exact ⟨handle, h.previousResponseId?_of_held hi hhandle hblank, hblank⟩

/-- Under a blank handle a request holds the results of the last calls, and goes on under none. -/
theorem request_of_blank (h : r.Runs messages options w turns requests result w') {i : Nat}
    (hi : i < requests.length) {handle : String}
    (hheld : r.heldHandle? options (turns.take i) = some handle)
    (hblank : Text.allBlank handle.toList = true) :
    requests[i].options.previousResponseId? = none ∧
      ∃ earlier t, turns.take i = earlier ++ [t] ∧ requests[i].messages = callOutputs t.output := by
  refine ⟨?_, ?_⟩
  · rw [h.previousResponseId?_getElem i hi, hheld]
    simp [Option.filter, hblank]
  · cases i with
    | zero =>
      -- no reply has issued a handle before the first request
      have hnot := not_allBlank_of_heldHandle? (by simp) hheld
      exact absurd (hblank.symm.trans hnot) (by simp)
    | succ i =>
      obtain ⟨t, -, htake⟩ := h.exists_take_succ hi
      refine ⟨turns.take i, t, htake, ?_⟩
      rw [h.getElem_requests (i + 1) hi]
      rw [htake] at hheld ⊢
      exact pending_standing_of_some hheld

/-- Results of the last calls are everything that was said only if nothing else was said. -/
theorem callOutputs_eq_said_iff (h : r.Runs messages options w turns requests result w')
    {i : Nat} {earlier : List Turn} {t : Turn} (htake : turns.take i = earlier ++ [t]) :
    callOutputs t.output = messages ++ (turns.take i).flatMap Turn.output ↔
      messages = [] ∧ turns.take i = [t] ∧ callOutputs t.output = t.output := by
  rw [htake]
  constructor
  · intro heq
    have hle := (callOutputs_sublist t.output).length_le
    have hlength := congrArg List.length heq
    simp only [List.flatMap_append, List.flatMap_singleton, List.length_append] at hlength
    have hmessages : messages = [] := List.length_eq_zero_iff.mp (by omega)
    have hsaid : earlier.flatMap Turn.output = [] := List.length_eq_zero_iff.mp (by omega)
    have hearlier : earlier = [] := by
      rw [List.eq_nil_iff_forall_not_mem]
      intro s hs
      have hmem : s ∈ turns := List.mem_of_mem_take (htake ▸ List.mem_append_left [t] hs)
      exact h.history.output_ne_nil s hmem (List.flatMap_eq_nil_iff.mp hsaid s hs)
    subst hmessages hearlier
    refine ⟨rfl, rfl, ?_⟩
    simpa using heq
  · rintro ⟨rfl, hsingle, heq⟩
    rw [hsingle, heq]
    simp

/-- Under a blank handle the context is lost, unless nothing was said but results of calls. -/
theorem keepsContext_iff_of_blank (h : r.Runs messages options w turns requests result w')
    {i : Nat} (hi : i < requests.length) {handle : String}
    (hheld : r.heldHandle? options (turns.take i) = some handle)
    (hblank : Text.allBlank handle.toList = true) :
    requests[i].KeepsContext (messages ++ (turns.take i).flatMap Turn.output) ↔
      messages = [] ∧ ∃ t, turns.take i = [t] ∧ callOutputs t.output = t.output := by
  obtain ⟨hnone, earlier, t, htake, hmessages⟩ := h.request_of_blank hi hheld hblank
  constructor
  · rintro (hfull | ⟨sent, hsent, -⟩)
    · rw [hmessages, h.callOutputs_eq_said_iff htake] at hfull
      exact ⟨hfull.1, t, hfull.2⟩
    · exact absurd (hnone.symm.trans hsent) (by simp)
  · rintro ⟨hnil, s, hsingle, houtputs⟩
    obtain rfl : t = s := by
      have hlast := congrArg List.getLast? (htake.symm.trans hsingle)
      simpa using hlast
    exact Or.inl (hmessages.trans
      ((h.callOutputs_eq_said_iff htake).mpr ⟨hnil, hsingle, houtputs⟩))

end Runs

-- ---------------------------------------------------------------------------
-- Runs
-- ---------------------------------------------------------------------------

/-- Every request of a run keeps its context if no reply issues a blank handle. Any one request does
so exactly if the handle held before it is not blank, or if there was nothing to lose: nothing was
said but results of calls. -/
theorem run_keepsContext_iff (r : Runner σ) (messages : List Message) (options : RunOptions)
    (w : World σ) :
    ∃ turns requests result w', r.Runs messages options w turns requests result w' ∧
      ((∀ t ∈ turns, ∀ handle ∈ t.reply.handle?, Text.allBlank handle.toList = false) →
        ∀ i (hi : i < requests.length),
          requests[i].KeepsContext (messages ++ (turns.take i).flatMap Turn.output)) ∧
      ∀ i (hi : i < requests.length),
        requests[i].KeepsContext (messages ++ (turns.take i).flatMap Turn.output) ↔
          (∀ handle ∈ r.heldHandle? options (turns.take i),
            Text.allBlank handle.toList = false) ∨
          messages = [] ∧ ∃ t, turns.take i = [t] ∧ callOutputs t.output = t.output := by
  obtain ⟨turns, requests, result, w', h⟩ := r.exists_runs messages options w
  refine ⟨turns, requests, result, w', h, fun hissued i hi => ?_, fun i hi => ?_⟩
  · apply h.keepsContext_of_held hi
    intro handle hhandle
    exact not_allBlank_of_heldHandle? (fun t ht => hissued t (List.mem_of_mem_take ht)) hhandle
  · by_cases hheld : ∃ handle ∈ r.heldHandle? options (turns.take i),
        Text.allBlank handle.toList = true
    · obtain ⟨handle, hhandle, hblank⟩ := hheld
      rw [h.keepsContext_iff_of_blank hi hhandle hblank, or_iff_right]
      intro hnot
      exact absurd (hblank.symm.trans (hnot handle hhandle)) (by simp)
    · have hnot : ∀ handle ∈ r.heldHandle? options (turns.take i),
          Text.allBlank handle.toList = false := by
        intro handle hhandle
        exact Bool.eq_false_iff.mpr fun hblank => hheld ⟨handle, hhandle, hblank⟩
      exact iff_of_true (h.keepsContext_of_held hi hnot) (Or.inl hnot)

/-- A reply issues a blank handle, and the second request holds the result of its call alone. -/
theorem run_loses_context :
    let replies : List Reply :=
      [{ items := [Stage.addCall "call_1"], handle? := some "" }, { items := [.text "four"] }]
    ∃ turns requests result w',
      (Stage.adder true).Runs [.user "2+2?"] {} (Stage.opening replies) turns requests result w' ∧
      ∃ hi : 1 < requests.length,
        ¬ requests[1].KeepsContext ([.user "2+2?"] ++ (turns.take 1).flatMap Turn.output) := by
  intro replies
  refine ⟨[⟨_, _, _⟩, ⟨_, _, _⟩], _, _, _, History.runs
    (.continued ⟨rfl, ⟨_, _, rfl, rfl⟩, List.cons_ne_nil _ _⟩ rfl
      (.finished ⟨rfl, ⟨_, _, rfl, rfl⟩, List.cons_ne_nil _ _⟩ rfl)), by decide, ?_⟩
  -- one message is sent where three were said
  rintro (hfull | ⟨handle, hsent, -⟩)
  · exact absurd (congrArg List.length hfull) (by decide)
  · exact absurd (show none = some handle from hsent) (by simp)

end Runner

end Colloquy
