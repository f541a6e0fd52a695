import Colloquy.Proofs.Ask.Conversational

/-!
# Colloquy — conversations that were cleared

Resolving begins with the messages after the last marker that clears. So two conversations
that differ only before such a marker are the same question: collaborators are asked for the
same, in the same order, the same tools are registered, and the run sends the same requests
and ends alike (`Inquiry.run_cleared`), whatever stands before the marker.
-/

namespace Colloquy

variable {σ : Type} {marker : Message}

namespace Resolver

/-- What stands before a marker that clears is not resolved. -/
theorem pipeline_cleared (r : Resolver σ) (chain : List Place) (origin? : Option String)
    (h : marker.role = .clear) (before after : List Message) :
    r.pipeline chain origin? (before ++ marker :: after) = r.pipeline chain origin? after := by
  rw [pipeline_eq, pipeline_eq, clear_append h]

theorem resolveMessages_cleared (r : Resolver σ) (origin? : Option String)
    (h : marker.role = .clear) (before after : List Message) :
    r.resolveMessages (before ++ marker :: after) origin? = r.resolveMessages after origin? :=
  r.pipeline_cleared _ origin? h before after

end Resolver

namespace Inquiry

/-- Conversations that are prepared alike take the same courses. -/
theorem Goes.of_prepare_eq {q : Inquiry σ} {c c' : Conversation}
    (hprepare : q.prepare c = q.prepare c') {w w' : World σ} {requests : List Request}
    {result : Except Failure Completion} (h : q.Goes c w requests result w') :
    q.Goes c' w requests result w' := by
  cases h with
  | unprepared hfailed => exact .unprepared (hprepare ▸ hfailed)
  | unconnected hdone hrunner => exact .unconnected (hprepare ▸ hdone) hrunner
  | ran hdone hrunner hruns => exact .ran (hprepare ▸ hdone) hrunner hruns

theorem prepare_cleared (q : Inquiry σ) (c : Conversation) (h : marker.role = .clear)
    (before after : List Message) :
    q.prepare (c.replace (before ++ marker :: after)) = q.prepare (c.replace after) := by
  simp only [prepare, Conversation.replace, q.resolver.resolveMessages_cleared c.origin? h]

/-- Nothing before a marker that clears makes a difference: the conversation is prepared by the same
act, with the same messages, options and tools, it is run by the same act, and the course that
it takes, with its requests, is the one that what stands after the marker takes alone. -/
theorem run_cleared (q : Inquiry σ) (c : Conversation) (h : marker.role = .clear)
    (before after : List Message) :
    q.prepare (c.replace (before ++ marker :: after)) = q.prepare (c.replace after) ∧
      q.run (c.replace (before ++ marker :: after)) = q.run (c.replace after) ∧
      ∀ w, ∃ requests result w',
        q.Goes (c.replace (before ++ marker :: after)) w requests result w' ∧
        q.Goes (c.replace after) w requests result w' := by
  have hprepare := q.prepare_cleared c h before after
  refine ⟨hprepare, ?_, fun w => ?_⟩
  · rw [run, run, hprepare]
  · obtain ⟨requests, result, w', hgoes⟩ := q.exists_goes (c.replace after) w
    exact ⟨requests, result, w', hgoes.of_prepare_eq hprepare.symm, hgoes⟩

/-- An import of no file, an option, a tool directive, a marker of a response, an earlier marker that
clears and a job that would be made leave nothing of a question. -/
theorem run_cleared_sum :
    let before : List Message :=
      [.ofText .import_ "missing.chat", .ofText .option "temperature 2", .ofText .clear "",
        .ofText .clearTools "", .ofText .mcp "missing", .ofText .stickyOption "effort low",
        .continuation "resp_0", .ofText .job "missing.crow task"]
    let c := sumConversation
    (Message.ofText .clear "").role = .clear ∧
      (sumQuestion.prepare (c.replace (before ++ .ofText .clear "" :: c.messages))).perform
          (Stage.opening []) =
        (.ok ([numbers, .user "Add them."], sumOptions, sumQuestion.tools), Stage.opening []) := by
  intro before c
  have hmarker : (Message.ofText .clear "").role = .clear := rfl
  have hcleared := run_cleared sumQuestion c hmarker before c.messages
  refine ⟨hmarker, ?_⟩
  rw [hcleared.1]
  exact prepare_sum

end Inquiry

end Colloquy
