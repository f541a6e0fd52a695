import Colloquy.Proofs.Run.History
import Colloquy.Rehearsal.Backend

/-!
# Colloquy — rehearsed runs

A rehearsed run keeps to a script and records the requests that the scripted backend
was given to write. The record is complete and has each request once, in the order of
the run's history (`Stage.notes_sent`): waiting, replies and scripted tools leave it
as it is.
-/

namespace Colloquy

namespace Stage

/-- The requests recorded in a world. -/
def sentIn (w : World Stage) : List Json := w.outer.sent

/-- A runner whose collaborators all keep to a script. -/
structure Rehearses (r : Runner Stage) : Prop where
  backend : ∃ isStateful, r.backend = Stage.backend isStateful
  clock : r.clock = Stage.clock
  tools : ∀ tool ∈ r.tools.tools, ∃ behavior : Behavior,
    tool.executor = .inline fun _ args => Act.ofExcept (behavior.run args)
  dispatcher : ∃ fallback?, r.dispatcher = Stage.dispatcher fallback?

theorem keeps_takeReply : Act.Keeps sentIn takeReply := by
  rintro ⟨invented, stage⟩
  obtain ⟨log, jobs, databases, replies, latest?, sent, waits⟩ := stage
  cases replies with
  | nil => rfl
  | cons next rest => cases next <;> rfl

theorem keeps_latestReply : Act.Keeps sentIn latestReply := by
  rintro ⟨invented, stage⟩
  obtain ⟨log, jobs, databases, replies, latest?, sent, waits⟩ := stage
  cases latest? with
  | none => rfl
  | some latest => cases latest <;> rfl

theorem Rehearses.keeps_answer {r : Runner Stage} (h : Rehearses r) (made : ToolCall)
    (act : Act Stage Json) (hact : act ∈ r.dispatcher.answerer? r.tools made) :
    Act.Keeps sentIn act := by
  obtain ⟨fallback?, hdispatcher⟩ := h.dispatcher
  unfold Dispatcher.answerer? at hact
  split at hact
  · next tool htool =>
    obtain ⟨behavior, hexecutor⟩ := h.tools tool (List.mem_of_find?_eq_some htool)
    obtain rfl := Option.some.inj hact
    rw [hexecutor]
    exact Act.keeps_ofExcept _
  · rw [hdispatcher] at hact
    cases fallback? with
    | none => exact absurd hact (by simp [Stage.dispatcher])
    | some behavior =>
      obtain rfl := Option.some.inj hact
      exact (Act.keeps_ofExcept _).bind fun _ => Act.keeps_pure _

/-- A rehearsed run records each request that its backend is given to write, and nothing else. -/
theorem notes_sent {r : Runner Stage} (h : Rehearses r) :
    r.Notes (fun q => requestEntry r.client q.messages r.tools q.options) sentIn := by
  obtain ⟨isStateful, hbackend⟩ := h.backend
  refine ⟨?_, ?_, ?_, h.keeps_answer, ?_, ?_⟩
  · rw [hbackend]
    exact fun _ _ _ => rfl
  · rw [hbackend]
    exact fun _ => keeps_takeReply
  · rw [hbackend]
    exact fun _ => keeps_latestReply
  · rw [h.clock]
    exact fun _ _ => rfl
  · rw [h.clock]
    exact Act.keeps_pure _

-- ---------------------------------------------------------------------------
-- Runners on a stage
-- ---------------------------------------------------------------------------

/-- A runner on a stage, whose one tool adds by heart. -/
def adder (isStateful : Bool) : Runner Stage where
  backend := Stage.backend isStateful
  client := { url := "http://localhost", model := "scripted-model" }
  tools := ⟨[Stage.tool "add" "" .empty [] (.give (.str "4"))]⟩
  clock := Stage.clock

/-- A call of the tool that adds. -/
def addCall (id : String) : ReplyItem := .call ⟨id, "add", .obj []⟩

/-- What the tool tells. -/
def sum (id : String) : Message := .functionCallOutput ⟨id, "4"⟩

/-- A world in which these replies are still to come. -/
def opening (replies : List Reply) : World Stage :=
  { invented := 0, outer := { replies := replies.map .reply } }

end Stage

end Colloquy
