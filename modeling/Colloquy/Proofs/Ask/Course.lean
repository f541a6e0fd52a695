import Colloquy.Ask
import Colloquy.Proofs.Run.Standing

/-!
# Colloquy — courses of questions

A conversation is prepared, a backend is chosen and connected to, and the conversation is
run (`Inquiry.Goes`). The course tells the requests that were made and how it ended: where
the preparation or the connection fails there is no request. Every question takes a course
(`Inquiry.exists_goes`).
-/

namespace Colloquy

namespace Inquiry

variable {σ : Type} {q : Inquiry σ} {c : Conversation}

/-- A conversation goes from a world to a result in another, with the requests that were made. -/
inductive Goes (q : Inquiry σ) (c : Conversation) (w : World σ) :
    List Request → Except Failure Completion → World σ → Prop
  | unprepared {w' : World σ} {f : Failure} (hprepare : (q.prepare c).perform w = (.error f, w')) :
      Goes q c w [] (.error f) w'
  | unconnected {messages : List Message} {options : RunOptions} {tools : Catalogue σ}
      {w' : World σ} {f : Failure}
      (hprepare : (q.prepare c).perform w = (.ok (messages, options, tools), w'))
      (hrunner : q.runner options tools = .error f) : Goes q c w [] (.error f) w'
  | ran {messages : List Message} {options : RunOptions} {tools : Catalogue σ} {w₁ w' : World σ}
      {runner : Runner σ} {turns : List Turn} {requests : List Request}
      {result : Except Failure Completion}
      (hprepare : (q.prepare c).perform w = (.ok (messages, options, tools), w₁))
      (hrunner : q.runner options tools = .ok runner)
      (hruns : runner.Runs messages options w₁ turns requests result w') :
      Goes q c w requests result w'

/-- The course determines the result and the world. -/
theorem Goes.perform_eq {w w' : World σ} {requests : List Request}
    {result : Except Failure Completion} (h : q.Goes c w requests result w') :
    (q.run c).perform w = (result, w') := by
  unfold run
  cases h with
  | unprepared hprepare => rw [Act.perform_bind, hprepare]
  | unconnected hprepare hrunner =>
    rw [Act.perform_bind, hprepare]
    dsimp only
    rw [hrunner]
    rfl
  | ran hprepare hrunner hruns =>
    rw [Act.perform_bind, hprepare]
    dsimp only
    rw [hrunner]
    exact hruns.perform_eq

/-- A conversation takes one course. -/
theorem Goes.unique {w w' w'' : World σ} {requests requests' : List Request}
    {result result' : Except Failure Completion} (h : q.Goes c w requests result w')
    (h' : q.Goes c w requests' result' w'') : requests = requests' := by
  cases h with
  | unprepared hprepare =>
    cases h' with
    | unprepared _ => rfl
    | unconnected hprepare' _ => rfl
    | ran hprepare' _ _ => exact absurd (hprepare.symm.trans hprepare') (by simp)
  | unconnected hprepare hrunner =>
    cases h' with
    | unprepared _ => rfl
    | unconnected _ _ => rfl
    | ran hprepare' hrunner' _ =>
      obtain ⟨⟨rfl, rfl, rfl⟩, rfl⟩ := by simpa using hprepare.symm.trans hprepare'
      exact absurd (hrunner.symm.trans hrunner') nofun
  | ran hprepare hrunner hruns =>
    cases h' with
    | unprepared hprepare' => exact absurd (hprepare.symm.trans hprepare') (by simp)
    | unconnected hprepare' hrunner' =>
      obtain ⟨⟨rfl, rfl, rfl⟩, rfl⟩ := by simpa using hprepare.symm.trans hprepare'
      exact absurd (hrunner.symm.trans hrunner') nofun
    | ran hprepare' hrunner' hruns' =>
      obtain ⟨⟨rfl, rfl, rfl⟩, rfl⟩ := by simpa using hprepare.symm.trans hprepare'
      obtain rfl := Except.ok.inj (hrunner.symm.trans hrunner')
      exact (hruns.unique hruns').2.1

/-- Every conversation takes a course. -/
theorem exists_goes (q : Inquiry σ) (c : Conversation) (w : World σ) :
    ∃ requests result w', q.Goes c w requests result w' := by
  rcases hprepare : (q.prepare c).perform w with ⟨f | ⟨messages, options, tools⟩, w₁⟩
  · exact ⟨[], _, w₁, .unprepared hprepare⟩
  · cases hrunner : q.runner options tools with
    | error f => exact ⟨[], _, w₁, .unconnected hprepare hrunner⟩
    | ok runner =>
      obtain ⟨turns, requests, result, w', hruns⟩ := runner.exists_runs messages options w₁
      exact ⟨requests, result, w', .ran hprepare hrunner hruns⟩

end Inquiry

end Colloquy
