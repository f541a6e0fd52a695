import Colloquy.Proofs.Run.Rehearsal
import Colloquy.Proofs.Run.Standing

/-!
# Colloquy — runs on a server's memory

A server that keeps conversations and issues a handle with every reply is sent in each
turn only what it does not have: the results of the calls of the turn before, under the
handle of the reply before (`Runner.Increments`). All requests together hold what the
first one holds and every result that was sent back, each once and in the order of the
transcript, so nothing is lost on the way and nothing is sent twice
(`Runner.run_increments`).
-/

namespace Colloquy

/-- The reply of the turn issues a handle that is not blank. -/
def Turn.IssuesHandle (t : Turn) : Prop :=
  ∃ handle, t.reply.handle? = some handle ∧ Text.allBlank handle.toList = false

/-- The results of calls of several turns are those of each turn. -/
theorem callOutputs_flatMap (turns : List Turn) :
    callOutputs (turns.flatMap Turn.output) = turns.flatMap fun t => callOutputs t.output :=
  List.filter_flatMap

namespace Runner

variable {σ : Type} {r : Runner σ} {options : RunOptions} {messages : List Message}

/-- Requests that go on from one another: each but the first holds the results of the calls of the
turn before and goes on under the handle of its reply, and all requests together hold what the first
one holds and then every result that was sent back, once and in order. -/
structure Increments (turns : List Turn) (requests : List Request) : Prop where
  follows : ∀ i (hi : i + 1 < requests.length), ∃ t, turns[i]? = some t ∧
    requests[i + 1].messages = callOutputs t.output ∧
    requests[i + 1].options.previousResponseId? = t.reply.handle?
  flatMap_messages : ∃ first rest, requests = first :: rest ∧ rest.length ≤ turns.length ∧
    requests.flatMap Request.messages =
      first.messages ++ callOutputs ((turns.take rest.length).flatMap Turn.output)

namespace Runs

variable {w w' : World σ} {turns : List Turn} {requests : List Request}
  {result : Except Failure Completion}

theorem follows (h : r.Runs messages options w turns requests result w')
    (hs : r.backend.isStateful = true)
    (hissued : ∀ t ∈ turns, t.IssuesHandle) {i : Nat} (hi : i + 1 < requests.length) :
    ∃ t, turns[i]? = some t ∧ requests[i + 1].messages = callOutputs t.output ∧
      requests[i + 1].options.previousResponseId? = t.reply.handle? := by
  obtain ⟨t, ht, htake⟩ := h.exists_take_succ hi
  obtain ⟨handle, hhandle, hblank⟩ := hissued t (List.mem_of_getElem? ht)
  have hheld : r.heldHandle? options (turns.take i ++ [t]) = some handle :=
    heldHandle?_concat_of_some hs (turns.take i) hhandle
  refine ⟨t, ht, ?_, ?_⟩
  · rw [h.getElem_requests (i + 1) hi, htake]
    exact pending_standing_of_some hheld
  · rw [hhandle]
    exact h.previousResponseId?_of_held hi (htake ▸ hheld) hblank

theorem increments (h : r.Runs messages options w turns requests result w')
    (hs : r.backend.isStateful = true)
    (hissued : ∀ t ∈ turns, t.IssuesHandle) : Increments turns requests := by
  refine ⟨fun i hi => h.follows hs hissued hi, ?_⟩
  obtain ⟨first, rest, rfl⟩ := h.exists_cons
  have hlength : rest.length ≤ turns.length := by
    have := h.history.length_requests_le_turns
    rw [List.length_cons] at this
    omega
  -- request by request, the rest holds the results of the turn before
  have hrest : rest.map Request.messages =
      (turns.take rest.length).map fun t => callOutputs t.output := by
    apply List.ext_getElem
    · simp [hlength]
    · intro i hi _
      rw [List.length_map] at hi
      obtain ⟨t, ht, hmessages, -⟩ := h.follows hs hissued (Nat.succ_lt_succ hi)
      obtain ⟨hlt, rfl⟩ := List.getElem?_eq_some_iff.mp ht
      simpa using hmessages
  refine ⟨first, rest, rfl, hlength, ?_⟩
  rw [List.flatMap_cons, callOutputs_flatMap, List.flatMap_def, List.flatMap_def, hrest]

end Runs

/-- A server that keeps conversations, and issues a handle that is not blank with every reply, is
sent the results of the calls of each turn under the handle of its reply, and no more. A completed
run holds the handle of the last reply, and its transcript ends in a marker of it. -/
theorem run_increments (r : Runner σ) (hs : r.backend.isStateful = true) (messages : List Message)
    (options : RunOptions) (w : World σ) :
    ∃ turns requests result w', r.Runs messages options w turns requests result w' ∧
      ((∀ t ∈ turns, t.IssuesHandle) →
        Increments turns requests ∧
        ∀ c, result = .ok c → ∃ earlier last handle, turns = earlier ++ [last] ∧
          requests.length = turns.length ∧ last.reply.handle? = some handle ∧
          c.handle? = some handle ∧
          c.messages = messages ++ turns.flatMap Turn.output ++ [.continuation handle]) := by
  obtain ⟨turns, requests, result, w', h⟩ := r.exists_runs messages options w
  refine ⟨turns, requests, result, w', h, fun hissued => ⟨h.increments hs hissued, ?_⟩⟩
  rintro c rfl
  have hcompletes := h.history.completes
  obtain ⟨earlier, last, hturns, -, -⟩ := hcompletes.last
  have hmem : last ∈ turns := hturns ▸ List.mem_append_right _ (List.mem_singleton_self last)
  obtain ⟨handle, hhandle, -⟩ := hissued last hmem
  have hheld : c.handle? = some handle := by
    rw [h.handle?_eq, hturns]
    exact heldHandle?_concat_of_some hs earlier hhandle
  refine ⟨earlier, last, handle, hturns, hcompletes.length_requests, hhandle, hheld, ?_⟩
  rw [hcompletes.messages_eq, hheld]
  simp [Progress.start]

/-- Two turns of calls, each sent on under the handle of its reply, and a marker of the third. -/
theorem run_increments_thrice :
    let replies : List Reply :=
      [{ items := [.text "first", Stage.addCall "call_1", Stage.addCall "call_2"]
         handle? := some "resp_1" },
       { items := [Stage.addCall "call_3"], handle? := some "resp_2" },
       { items := [.text "twelve"], handle? := some "resp_3" }]
    (Stage.adder true).backend.isStateful = true ∧
      ∃ turns requests c w',
        (Stage.adder true).Runs [.user "2+2?"] {} (Stage.opening replies) turns requests (.ok c)
          w' ∧
        (∀ t ∈ turns, t.IssuesHandle) ∧
        Increments turns requests ∧ turns.length = 3 ∧ c.handle? = some "resp_3" ∧
        requests.flatMap Request.messages =
          [.user "2+2?", Stage.sum "call_1", Stage.sum "call_2", Stage.sum "call_3"] := by
  intro replies
  have hruns : (Stage.adder true).Runs [.user "2+2?"] {} (Stage.opening replies)
      [⟨_, _, _⟩, ⟨_, _, _⟩, ⟨_, _, _⟩] _ _ _ := History.runs
    (.continued ⟨rfl, ⟨_, _, rfl, rfl⟩, List.cons_ne_nil _ _⟩ rfl
      (.continued ⟨rfl, ⟨_, _, rfl, rfl⟩, List.cons_ne_nil _ _⟩ rfl
        (.finished ⟨rfl, ⟨_, _, rfl, rfl⟩, List.cons_ne_nil _ _⟩ rfl)))
  obtain ⟨turns, requests, result, w', h, hincrements⟩ :=
    (Stage.adder true).run_increments rfl [.user "2+2?"] {} (Stage.opening replies)
  obtain ⟨rfl, rfl, rfl, rfl⟩ := h.unique hruns
  refine ⟨rfl, _, _, _, _, h, ?issued, (hincrements ?issued).1, rfl, rfl, rfl⟩
  refine List.forall_mem_cons.mpr ⟨⟨"resp_1", rfl, rfl⟩, ?_⟩
  refine List.forall_mem_cons.mpr ⟨⟨"resp_2", rfl, rfl⟩, ?_⟩
  exact List.forall_mem_singleton.mpr ⟨"resp_3", rfl, rfl⟩

end Runner

end Colloquy
