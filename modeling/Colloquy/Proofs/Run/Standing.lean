import Colloquy.Proofs.Run.Transcript
import Colloquy.Proofs.RunOptions.Lookup
import Mathlib.Data.List.Induction

/-!
# Colloquy — where a run stands

Where a run stands is determined by the turns it has taken (`Runner.standing`). It holds
the handle that was issued last (`Runner.heldHandle?`). Without a handle everything that
was said is sent next, and under one only the results of the calls of the last turn. So
the turns of a run determine its requests (`Runner.Runs.getElem_requests`).

* `Runner.Runs` — a run as it went: its turns, its requests and how it ended.
* `Runner.exists_runs`, `Runner.Runs.unique` — every run went in one way.
-/

namespace Colloquy

theorem callOutputs_sublist (messages : List Message) :
    (callOutputs messages).Sublist messages :=
  List.filter_sublist

/-- A turn that awaits a reply ends in the result of a call. -/
theorem callOutputs_ne_nil {t : Turn} (h : t.awaits = true) : callOutputs t.output ≠ [] := by
  unfold Turn.awaits awaitsReply at h
  split at h
  · next m hlast =>
    exact List.ne_nil_of_mem (List.mem_filter.mpr ⟨List.mem_of_getLast? hlast, h⟩)
  · exact absurd h (by decide)

/-- The handle that was issued last by the replies of turns. -/
def latestHandle? (turns : List Turn) : Option String :=
  (turns.filterMap fun t => t.reply.handle?).getLast?

theorem latestHandle?_concat (turns : List Turn) (t : Turn) :
    latestHandle? (turns ++ [t]) = t.reply.handle?.or (latestHandle? turns) := by
  rw [latestHandle?, List.filterMap_append, List.getLast?_append]
  cases h : t.reply.handle? with
  | none => simp [h, latestHandle?]
  | some handle => simp [h]

/-- A turn has the options of the run, except for the handle, which is the one that is held, and a
choice of a tool after the first turn. -/
theorem Progress.get?_turnOptions (p : Progress) (options : RunOptions) (key : String) :
    (p.turnOptions options).get? key =
      if 0 < p.turns ∧ key = "tool_choice" then none
      else if key = "previous_response_id" then p.handle?.map .str
      else options.get? key := by
  have hchoice : ∀ o : RunOptions, (if 0 < p.turns then o.remove "tool_choice" else o).get? key =
      if 0 < p.turns ∧ key = "tool_choice" then none else o.get? key := by
    intro o
    by_cases hturns : 0 < p.turns
    · simp [hturns, RunOptions.get?_remove]
    · simp [hturns]
  refine (hchoice _).trans ?_
  congr 1
  cases p.handle? with
  | none => exact options.get?_remove key _
  | some handle => exact options.get?_set key _ _

/-- A request goes on under the handle that is held, unless it is blank. -/
theorem Progress.previousResponseId?_turnOptions (p : Progress) (options : RunOptions) :
    (p.turnOptions options).previousResponseId? =
      p.handle?.filter fun handle => !Text.allBlank handle.toList := by
  apply RunOptions.previousResponseId?_of_get?
  rw [get?_turnOptions, if_neg (fun h => absurd h.2 (by decide)), if_pos rfl]

namespace Runner

variable {σ : Type} {r : Runner σ} {options : RunOptions} {messages : List Message}

/-- The handle that a run holds after turns: the one issued last, or else that of the options. Only
servers that keep conversations have handles. -/
def heldHandle? (r : Runner σ) (options : RunOptions) (turns : List Turn) : Option String :=
  if r.backend.isStateful then (latestHandle? turns).or options.previousResponseId? else none

theorem heldHandle?_concat_of_some (hs : r.backend.isStateful = true) (turns : List Turn)
    {t : Turn} {handle : String} (h : t.reply.handle? = some handle) :
    r.heldHandle? options (turns ++ [t]) = some handle := by
  rw [heldHandle?, if_pos hs, latestHandle?_concat, h]
  rfl

/-- Where a run on messages stands after turns that all await a reply. -/
def standing (r : Runner σ) (messages : List Message) (options : RunOptions)
    (turns : List Turn) : Progress :=
  turns.foldl (r.after messages) (.start r.backend.isStateful messages options)

-- ---------------------------------------------------------------------------
-- Standings
-- ---------------------------------------------------------------------------

theorem standing_concat (turns : List Turn) (t : Turn) :
    r.standing messages options (turns ++ [t]) =
      r.after messages (r.standing messages options turns) t :=
  List.foldl_append

theorem exchanges_standing (r : Runner σ) (messages : List Message) (options : RunOptions)
    (turns : List Turn) :
    (r.standing messages options turns).exchanges = turns.flatMap Turn.output := by
  induction turns using List.reverseRecOn with
  | nil => rfl
  | append_singleton turns t ih =>
    rw [standing_concat, List.flatMap_append, List.flatMap_singleton, ← ih]
    rfl

theorem turns_standing (r : Runner σ) (messages : List Message) (options : RunOptions)
    (turns : List Turn) :
    (r.standing messages options turns).turns = turns.length := by
  induction turns using List.reverseRecOn with
  | nil => rfl
  | append_singleton turns t ih =>
    rw [standing_concat, List.length_append, ← ih]
    rfl

theorem handle?_standing (r : Runner σ) (messages : List Message) (options : RunOptions)
    (turns : List Turn) :
    (r.standing messages options turns).handle? = r.heldHandle? options turns := by
  induction turns using List.reverseRecOn with
  | nil => rfl
  | append_singleton turns t ih =>
    rw [standing_concat]
    show r.handleAfter (r.standing messages options turns) t.reply = _
    rw [handleAfter, ih, heldHandle?, heldHandle?, latestHandle?_concat]
    split
    · rw [Option.or_assoc]
    · rfl

/-- After a turn all that was said is sent next, or the results of its calls under a handle. -/
theorem pending_standing_concat (turns : List Turn) (t : Turn) :
    (r.standing messages options (turns ++ [t])).pending =
      match r.heldHandle? options (turns ++ [t]) with
      | some _ => callOutputs t.output
      | none => messages ++ (turns ++ [t]).flatMap Turn.output := by
  rw [← handle?_standing r messages, ← exchanges_standing r messages options, standing_concat]
  rfl

theorem pending_standing_of_none {turns : List Turn} (h : r.heldHandle? options turns = none) :
    (r.standing messages options turns).pending = messages ++ turns.flatMap Turn.output := by
  cases turns using List.reverseRecOn with
  | nil =>
    show Progress.initialPending messages (r.heldHandle? options []) options.resumeAfter = _
    rw [h]
    exact (List.append_nil messages).symm
  | append_singleton turns t => rw [pending_standing_concat, h]

theorem pending_standing_of_some {turns : List Turn} {t : Turn} {handle : String}
    (h : r.heldHandle? options (turns ++ [t]) = some handle) :
    (r.standing messages options (turns ++ [t])).pending = callOutputs t.output := by
  rw [pending_standing_concat, h]

-- ---------------------------------------------------------------------------
-- Requests
-- ---------------------------------------------------------------------------

section

variable {left : Nat} {p : Progress} {w w' : World σ} {turns : List Turn}
  {requests : List Request} {result : Except Failure Completion}

/-- Every request is that of the standing that the turns before it lead to. -/
theorem History.getElem_requests
    (h : r.History messages options left p w turns requests result w') (i : Nat)
    (hi : i < requests.length) :
    requests[i] = ((turns.take i).foldl (r.after messages) p).request options := by
  induction h generalizing i with
  | exhausted => simp at hi
  | failed =>
    obtain rfl : i = 0 := by simpa using hi
    rfl
  | finished h _ =>
    obtain rfl : i = 0 := by simpa using hi
    exact h.request_eq
  | continued h _ _ ih =>
    cases i with
    | zero => exact h.request_eq
    | succ i => exact ih i (by simpa using hi)

/-- Every turn is taken where the turns before it lead to, and they all awaited a reply. -/
theorem History.exists_leads
    (h : r.History messages options left p w turns requests result w') {i : Nat} {t : Turn}
    (ht : turns[i]? = some t) :
    ∃ w₁ w₂,
      r.Leads messages options p w (turns.take i) ((turns.take i).foldl (r.after messages) p) w₁ ∧
        r.Takes options ((turns.take i).foldl (r.after messages) p) w₁ t w₂ := by
  induction h generalizing i with
  | exhausted => simp at ht
  | failed => simp at ht
  | @finished _ p w w' _ h _ =>
    cases i with
    | zero =>
      obtain rfl := Option.some.inj ht
      exact ⟨w, w', .refl p w, h⟩
    | succ i => simp at ht
  | @continued _ p w w' _ _ _ _ _ h hmore _ ih =>
    cases i with
    | zero =>
      obtain rfl := Option.some.inj ht
      exact ⟨w, w', .refl p w, h⟩
    | succ i =>
      obtain ⟨w₁, w₂, hleads, htakes⟩ := ih (by simpa using ht)
      exact ⟨w₁, w₂, .next h hmore hleads, htakes⟩

/-- The handle of a completed run is the one held after its last turn. -/
theorem History.handle?_eq {c : Completion}
    (h : r.History messages options left p w turns requests (.ok c) w') :
    c.handle? = (turns.foldl (r.after messages) p).handle? := by
  generalize hresult : Except.ok c = result at h
  induction h with
  | exhausted => simp at hresult
  | failed => simp at hresult
  | finished =>
    obtain rfl := Except.ok.inj hresult
    rfl
  | continued _ _ _ ih => exact ih hresult

/-- Every request but the last was answered. -/
theorem History.length_requests_le_turns
    (h : r.History messages options left p w turns requests result w') :
    requests.length ≤ turns.length + 1 := by
  induction h with
  | exhausted => simp
  | failed => simp
  | finished => simp
  | continued _ _ _ ih => simpa using ih

theorem History.requests_ne_nil
    (h : r.History messages options left p w turns requests result w') (hleft : 0 < left) :
    requests ≠ [] := by
  cases h with
  | exhausted => exact absurd hleft (Nat.lt_irrefl 0)
  | failed => simp
  | finished => simp
  | continued => simp

theorem History.output_ne_nil
    (h : r.History messages options left p w turns requests result w') :
    ∀ t ∈ turns, t.output ≠ [] := by
  induction h with
  | exhausted => simp
  | failed => simp
  | finished h _ => simpa using h.output_ne_nil
  | continued h _ _ ih => exact List.forall_mem_cons.mpr ⟨h.output_ne_nil, ih⟩

end

-- ---------------------------------------------------------------------------
-- Runs
-- ---------------------------------------------------------------------------

/-- A run as it went: it took these turns and made these requests, which a backend that notes them
was given to write, and it ended so. -/
structure Runs (r : Runner σ) (messages : List Message) (options : RunOptions) (w : World σ)
    (turns : List Turn) (requests : List Request) (result : Except Failure Completion)
    (w' : World σ) : Prop where
  history : r.History messages options r.turnLimit (.start r.backend.isStateful messages options) w
    turns requests result w'
  perform_eq : (r.run messages options).perform w = (result, w')
  noted : ∀ (ν : Type) (note : Request → ν) (view : World σ → List ν), r.Notes note view →
    view w' = view w ++ requests.map note

theorem History.runs {w w' : World σ} {turns : List Turn} {requests : List Request}
    {result : Except Failure Completion}
    (h : r.History messages options r.turnLimit (.start r.backend.isStateful messages options) w
      turns requests result w') : r.Runs messages options w turns requests result w' where
  history := h
  perform_eq := h.perform_eq
  noted := fun _ _ _ hnotes => h.view_eq hnotes

theorem exists_runs (r : Runner σ) (messages : List Message) (options : RunOptions)
    (w : World σ) :
    ∃ turns requests result w', r.Runs messages options w turns requests result w' := by
  obtain ⟨turns, requests, result, w', h⟩ := r.exists_history messages options r.turnLimit
    (.start r.backend.isStateful messages options) w
  exact ⟨turns, requests, result, w', h.runs⟩

namespace Runs

variable {w w' : World σ} {turns : List Turn} {requests : List Request}
  {result : Except Failure Completion}

theorem getElem_requests (h : r.Runs messages options w turns requests result w') (i : Nat)
    (hi : i < requests.length) :
    requests[i] = (r.standing messages options (turns.take i)).request options :=
  h.history.getElem_requests i hi

theorem previousResponseId?_getElem (h : r.Runs messages options w turns requests result w')
    (i : Nat) (hi : i < requests.length) :
    requests[i].options.previousResponseId? =
      (r.heldHandle? options (turns.take i)).filter fun handle =>
        !Text.allBlank handle.toList := by
  rw [h.getElem_requests i hi, ← handle?_standing r messages]
  exact Progress.previousResponseId?_turnOptions _ options

/-- A handle that is held and not blank is sent. -/
theorem previousResponseId?_of_held (h : r.Runs messages options w turns requests result w')
    {i : Nat} (hi : i < requests.length) {handle : String}
    (hheld : r.heldHandle? options (turns.take i) = some handle)
    (hblank : Text.allBlank handle.toList = false) :
    requests[i].options.previousResponseId? = some handle := by
  rw [h.previousResponseId?_getElem i hi, hheld]
  simp [Option.filter, hblank]

/-- A completed run ends with the handle that is held after its last turn. -/
theorem handle?_eq {c : Completion} (h : r.Runs messages options w turns requests (.ok c) w') :
    c.handle? = r.heldHandle? options turns := by
  rw [h.history.handle?_eq, ← handle?_standing r messages]
  rfl

/-- A completed run made a request in each of its turns. -/
theorem length_requests {c : Completion}
    (h : r.Runs messages options w turns requests (.ok c) w') : requests.length = c.turns := by
  have hcompletes := h.history.completes
  rw [hcompletes.length_requests, hcompletes.turns_eq]
  exact (Nat.zero_add _).symm

theorem exists_cons (h : r.Runs messages options w turns requests result w') :
    ∃ first rest, requests = first :: rest :=
  List.exists_cons_of_ne_nil (h.history.requests_ne_nil (Nat.le_max_right ..))

/-- A request that is not the first follows a turn. -/
theorem exists_take_succ (h : r.Runs messages options w turns requests result w') {i : Nat}
    (hi : i + 1 < requests.length) :
    ∃ t, turns[i]? = some t ∧ turns.take (i + 1) = turns.take i ++ [t] := by
  have hlt : i < turns.length := by
    have := h.history.length_requests_le_turns
    omega
  exact ⟨turns[i], List.getElem?_eq_getElem hlt, List.take_succ_eq_append_getElem hlt⟩

theorem unique {turns' : List Turn} {requests' : List Request} {result' : Except Failure Completion}
    {w'' : World σ} (h : r.Runs messages options w turns requests result w')
    (h' : r.Runs messages options w turns' requests' result' w'') :
    turns = turns' ∧ requests = requests' ∧ result = result' ∧ w' = w'' := by
  obtain ⟨hturns, hrequests⟩ := h.history.unique h'.history
  obtain ⟨hresult, hworld⟩ := Prod.mk.inj (h.perform_eq.symm.trans h'.perform_eq)
  exact ⟨hturns, hrequests, hresult, hworld⟩

end Runs

end Runner

end Colloquy
