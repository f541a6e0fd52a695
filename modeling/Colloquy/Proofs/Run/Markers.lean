import Colloquy.Backend.Selection
import Colloquy.Proofs.Run.Rehearsal
import Colloquy.Proofs.Run.Standing
import Colloquy.Proofs.RunOptions.Markers

/-!
# Colloquy — markers in runs without a server's memory

A backend that keeps no conversations is sent the same whether the conversation holds
markers or not, but for the place that the last marker leaves in the options. The run
with markers is the run without them at that place, and where the backend overlooks the
place both take the same turns and end in the same way (`Runner.run_disregards_markers`).
A backend that looks at the place can tell (`Runner.run_tells_marker`).

* `Backend.OverlooksPlace` — all known kinds of backends overlook the place.
* `Runner.Rewrites` — requests are rewritten without any difference to the backend.
-/

namespace Colloquy

variable {σ : Type}

/-- The place from which a conversation goes on makes no difference to the requests. -/
def Backend.OverlooksPlace (backend : Backend σ) : Prop :=
  ∀ client messages tools options place,
    backend.formatRequest client messages tools (options.withPlace place) =
      backend.formatRequest client messages tools options

theorem BackendKind.overlooksPlace (kind : BackendKind) (files : FileTree)
    (transport : Transport σ) : (kind.backend files transport).OverlooksPlace := by
  intro client messages tools options place
  cases kind <;> rfl

/-- The request without a place. -/
def Request.withoutPlace (request : Request) : Request :=
  { request with options := request.options.withPlace none }

/-- The turn with a request that is rewritten. -/
def Turn.rewrite (f : Request → Request) (t : Turn) : Turn :=
  { t with request := f t.request }

namespace Runner

variable {r : Runner σ} {options other : RunOptions} {messages : List Message}
  {f : Request → Request}

-- ---------------------------------------------------------------------------
-- Rewritten requests
-- ---------------------------------------------------------------------------

/-- While no handle is held, other options make the same requests but rewritten, and the backend
answers rewritten requests alike. -/
structure Rewrites (r : Runner σ) (f : Request → Request) (options other : RunOptions) :
    Prop where
  request_eq : ∀ p : Progress, p.handle? = none → p.request other = f (p.request options)
  ask_eq : ∀ request : Request,
    r.ask (f request).options (f request).messages = r.ask request.options request.messages

theorem handle?_after (hs : r.backend.isStateful = false) (messages : List Message)
    (p : Progress) (t : Turn) : (r.after messages p t).handle? = p.handle? := by
  show r.handleAfter p t.reply = p.handle?
  rw [handleAfter, hs]
  rfl

namespace Rewrites

variable {p : Progress} {w w' : World σ}

theorem takeTurn_eq (h : r.Rewrites f options other) (hp : p.handle? = none) :
    r.takeTurn other p = r.takeTurn options p := by
  have hask := h.ask_eq (p.request options)
  rw [← h.request_eq p hp] at hask
  have hturn : r.ask (p.turnOptions other) p.pending = r.ask (p.turnOptions options) p.pending :=
    hask
  rw [takeTurn, takeTurn, hturn]

theorem takes (h : r.Rewrites f options other) (hp : p.handle? = none) {t : Turn}
    (ht : r.Takes options p w t w') : r.Takes other p w (t.rewrite f) w' where
  request_eq := by
    show f t.request = _
    rw [ht.request_eq, h.request_eq p hp]
  exchange := by
    obtain ⟨body, w₁, hask, houtputs⟩ := ht.exchange
    refine ⟨body, w₁, ?_, houtputs⟩
    rw [← h.ask_eq] at hask
    exact hask
  output_ne_nil := ht.output_ne_nil

/-- Without handles a run takes the same turns with rewritten requests. -/
theorem history (h : r.Rewrites f options other) (hs : r.backend.isStateful = false)
    (hp : p.handle? = none) {left : Nat} {turns : List Turn} {requests : List Request}
    {result : Except Failure Completion}
    (hhistory : r.History messages options left p w turns requests result w') :
    r.History messages other left p w (turns.map (Turn.rewrite f)) (requests.map f) result w' := by
  induction hhistory with
  | exhausted p w => exact .exhausted p w
  | failed hturn =>
    rw [← h.takeTurn_eq hp] at hturn
    rw [List.map_singleton, ← h.request_eq _ hp]
    exact .failed hturn
  | finished ht hlast => exact .finished (h.takes hp ht) hlast
  | continued ht hmore _ ih =>
    exact .continued (h.takes hp ht) hmore (ih ((handle?_after hs ..).trans hp))

theorem runs (h : r.Rewrites f options other) (hs : r.backend.isStateful = false)
    {turns : List Turn} {requests : List Request} {result : Except Failure Completion}
    (hruns : r.Runs messages options w turns requests result w') :
    r.Runs messages other w (turns.map (Turn.rewrite f)) (requests.map f) result w' := by
  have hhistory := hruns.history
  rw [hs] at hhistory
  -- without memory a run starts in the same way under any options
  have hstart : Progress.start r.backend.isStateful messages other =
      .start false messages options := by
    rw [hs]
    rfl
  apply History.runs
  rw [hstart]
  exact h.history hs rfl hhistory

end Rewrites

theorem rewrites_id (h : other.remove "previous_response_id" =
    options.remove "previous_response_id") : r.Rewrites id options other where
  request_eq p hp := by
    have hoptions : p.turnOptions other = p.turnOptions options := by
      rw [Progress.turnOptions, Progress.turnOptions, hp]
      dsimp only
      rw [h]
    show Request.mk p.pending (p.turnOptions other) = Request.mk p.pending (p.turnOptions options)
    rw [hoptions]
  ask_eq _ := rfl

theorem rewrites_withoutPlace (h : r.backend.OverlooksPlace) (options : RunOptions) :
    r.Rewrites Request.withoutPlace options (options.withPlace none) where
  request_eq p hp := by
    have hoptions : p.turnOptions (options.withPlace none) =
        (p.turnOptions options).withPlace none := by
      rw [Progress.turnOptions, Progress.turnOptions, hp]
      by_cases hturns : 0 < p.turns
      · rw [if_pos hturns, if_pos hturns]
        rfl
      · rw [if_neg hturns, if_neg hturns]
        rfl
    show Request.mk p.pending (p.turnOptions (options.withPlace none)) = _
    rw [hoptions]
    rfl
  ask_eq request := by
    show r.ask (request.options.withPlace none) request.messages = _
    rw [ask, ask, h]

-- ---------------------------------------------------------------------------
-- Runs with markers and without
-- ---------------------------------------------------------------------------

/-- For a backend without memory, markers make no difference but for the place. Without them
extraction fails alike or keeps the same messages; at the place that they leave, the options that
are taken out then lead to the same run; and where the backend overlooks the place, as all known
kinds do, the run is the same without it. -/
theorem run_disregards_markers (r : Runner σ) (hs : r.backend.isStateful = false)
    (search : FileSearch) (files : FileTree) (origin? : Option String) (messages : List Message)
    (defaults : RunOptions) (w : World σ) :
    (∀ e, extractMessages search files messages origin? = .error e ↔
      extractMessages search files (purge messages) origin? = .error e) ∧
    (∀ kept options, extractMessages search files messages origin? = .ok (kept, options) →
      ∃ others, extractMessages search files (purge messages) origin? = .ok (kept, others) ∧
        others.resumeAfter = none ∧
        ∃ turns requests result w',
          r.Runs kept (options.mergeDefaults defaults) w turns requests result w' ∧
          r.Runs kept ((others.withPlace options.resumeAfter).mergeDefaults defaults) w turns
            requests result w' ∧
          (r.backend.OverlooksPlace →
            r.Runs kept (others.mergeDefaults defaults) w
              (turns.map (Turn.rewrite Request.withoutPlace))
              (requests.map Request.withoutPlace) result w')) ∧
    ∀ (kind : BackendKind) (files : FileTree) (transport : Transport σ),
      r.backend = kind.backend files transport → r.backend.OverlooksPlace := by
  refine ⟨fun e => extractMessages_purge_eq_error_iff, fun kept options h => ?_, ?_⟩
  · obtain ⟨others, hothers, hnone, hsame⟩ := extractMessages_purge h
    obtain ⟨turns, requests, result, w', hruns⟩ :=
      r.exists_runs kept (options.mergeDefaults defaults) w
    have hplaced := (rewrites_id (r := r) (hsame defaults)).runs hs hruns
    rw [List.map_id] at hplaced
    have hturns : turns.map (Turn.rewrite id) = turns := List.map_id turns
    rw [hturns] at hplaced
    refine ⟨others, hothers, hnone, turns, requests, result, w', hruns, hplaced, ?_⟩
    intro hoverlooks
    have hunplaced :
        ((others.withPlace options.resumeAfter).mergeDefaults defaults).withPlace none =
          others.mergeDefaults defaults :=
      congrArg (RunOptions.mk (others.mergeDefaults defaults).values) hnone.symm
    rw [← hunplaced]
    exact (rewrites_withoutPlace hoverlooks _).runs hs hplaced
  · intro kind files transport hbackend
    rw [hbackend]
    exact kind.overlooksPlace files transport

/-- Two markers, one of them before everything, and a handle among the defaults: both turns are the
same without the markers, on a backend that records requests without a place. -/
theorem run_disregards_markers_twice :
    let r : Runner Stage :=
      { Stage.adder false with
        backend :=
          { Stage.backend false with
            formatRequest := fun client messages tools options =>
              Stage.recordRequest client messages tools (options.withPlace none) } }
    let messages : List Message :=
      [.continuation "resp_1", .user "1+1?", .assistant "two", .ofText .option "tone dry",
        .continuation "resp_2", .user "2+2?"]
    let defaults : RunOptions := { values := [("previous_response_id", .str "resp_0")] }
    let w : World Stage :=
      Stage.opening [{ items := [Stage.addCall "c1"] }, { items := [.text "four"] }]
    r.backend.isStateful = false ∧ r.backend.OverlooksPlace ∧
      ∃ kept options others turns requests c w',
        extractMessages {} .empty messages none = .ok (kept, options) ∧
        options.resumeAfter = some 2 ∧
        extractMessages {} .empty (purge messages) none = .ok (kept, others) ∧
        requests.length = 2 ∧
        r.Runs kept (options.mergeDefaults defaults) w turns requests (.ok c) w' ∧
        r.Runs kept (others.mergeDefaults defaults) w
          (turns.map (Turn.rewrite Request.withoutPlace)) (requests.map Request.withoutPlace)
          (.ok c) w' := by
  intro r messages defaults w
  let kept : List Message := [.user "1+1?", .assistant "two", .user "2+2?"]
  let options : RunOptions :=
    { values := [("previous_response_id", .str "resp_2"), ("tone", .str "dry")]
      resumeAfter := some 2 }
  have hextract : extractMessages {} .empty messages none = .ok (kept, options) := by
    decide +kernel
  have hoverlooks : r.backend.OverlooksPlace := fun _ _ _ _ _ => rfl
  obtain ⟨-, hok, -⟩ := r.run_disregards_markers rfl {} .empty none messages defaults w
  obtain ⟨others, hothers, -, turns, requests, result, w', hruns, -, hwithout⟩ := hok _ _ hextract
  -- the run can be told at once, and a run goes in one way only
  have hcourse :
      r.Runs kept (options.mergeDefaults defaults) w [⟨_, _, _⟩, ⟨_, _, _⟩] _ (.ok _) _ :=
    History.runs (.continued ⟨rfl, ⟨_, _, rfl, rfl⟩, List.cons_ne_nil _ _⟩ rfl
      (.finished ⟨rfl, ⟨_, _, rfl, rfl⟩, List.cons_ne_nil _ _⟩ rfl))
  obtain ⟨rfl, rfl, rfl, rfl⟩ := hruns.unique hcourse
  exact ⟨rfl, hoverlooks, kept, options, others, _, _, _, _, hextract, rfl, hothers, rfl, hruns,
    hwithout hoverlooks⟩

/-- A backend that records the place of a marker, and one that refuses requests with a place, can
tell a conversation with a marker from the same without it. -/
theorem run_tells_marker :
    let messages : List Message := [.user "hi", .continuation "resp_1"]
    let w : World Stage := Stage.opening [{ items := [.text "hello"] }]
    let picky : Runner Stage :=
      { Stage.adder false with
        backend :=
          { Stage.backend false with
            formatRequest := fun client messages tools options =>
              if options.resumeAfter.isSome then Act.fail (.configuration "no place is known here")
              else Stage.recordRequest client messages tools options } }
    ∃ kept options others,
      extractMessages {} .empty messages none = .ok (kept, options) ∧
      extractMessages {} .empty (purge messages) none = .ok (kept, others) ∧
      ((Stage.adder false).backend.isStateful = false ∧
        ∃ turns turns' request request' result w' w'',
          (Stage.adder false).Runs kept options w turns [request] result w' ∧
          (Stage.adder false).Runs kept others w turns' [request'] result w'' ∧
          request.options.resumeAfter = some 1 ∧ request'.options.resumeAfter = none) ∧
      picky.backend.isStateful = false ∧
        ∃ turns turns' requests requests' e c w' w'',
          picky.Runs kept options w turns requests (.error e) w' ∧
          picky.Runs kept others w turns' requests' (.ok c) w'' := by
  intro messages w picky
  let options : RunOptions :=
    { values := [("previous_response_id", .str "resp_1")], resumeAfter := some 1 }
  refine ⟨[.user "hi"], options, {}, rfl, rfl, ⟨rfl, ?_⟩, rfl, ?_⟩
  · have hmarked : (Stage.adder false).Runs [.user "hi"] options w [⟨_, _, _⟩] _ _ _ :=
      History.runs (.finished ⟨rfl, ⟨_, _, rfl, rfl⟩, List.cons_ne_nil _ _⟩ rfl)
    have hpurged : (Stage.adder false).Runs [.user "hi"] {} w [⟨_, _, _⟩] _ _ _ :=
      History.runs (.finished ⟨rfl, ⟨_, _, rfl, rfl⟩, List.cons_ne_nil _ _⟩ rfl)
    exact ⟨_, _, _, _, _, _, _, hmarked, hpurged, rfl, rfl⟩
  · exact ⟨[], [⟨_, _, _⟩], _, _, _, _, _, _, History.runs (.failed rfl),
      History.runs (.finished ⟨rfl, ⟨_, _, rfl, rfl⟩, List.cons_ne_nil _ _⟩ rfl)⟩

end Runner

end Colloquy
