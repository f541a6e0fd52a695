import Colloquy.Backend.Selection
import Colloquy.Proofs.Act

/-!
# Colloquy — what replies hold

In every dialect an item of a reply is a text that the model wrote, which becomes a message
of the assistant, or a call (`BackendKind.repliesPlainly`).
-/

namespace Colloquy

/-- The item is a message of the assistant, or a call. -/
def ReplyItem.IsPlain : ReplyItem → Prop
  | .message m => m.role = .assistant
  | .call _ => True

/-- All items are messages of the assistant, or calls. -/
def PlainItems (items : List ReplyItem) : Prop :=
  ∀ item ∈ items, item.IsPlain

/-- The reply holds messages of the assistant and calls alone. -/
def Reply.IsPlain (reply : Reply) : Prop :=
  PlainItems reply.items

/-- All replies of the backend hold messages of the assistant and calls alone. -/
def Backend.RepliesPlainly {σ : Type} (backend : Backend σ) : Prop :=
  ∀ body, Act.Ensures Reply.IsPlain (fun _ => True) (backend.parseReply body)

theorem plainItems_nil : PlainItems [] := List.forall_mem_nil _

theorem plainItems_text (text : String) : PlainItems [.text text] :=
  List.forall_mem_singleton.mpr rfl

theorem gives_call (made : Draw ToolCall) :
    Draw.Gives PlainItems (do return [.call (← made)]) :=
  (Draw.gives_true made).bind fun _ _ => Draw.gives_pure (List.forall_mem_singleton.mpr trivial)

/-- The items are calls, as many as are listed. -/
def AreCalls (listed : List Json) (items : List ReplyItem) : Prop :=
  ∃ made : List ToolCall, made.length = listed.length ∧ items = made.map ReplyItem.call

theorem AreCalls.plainItems {listed : List Json} {items : List ReplyItem}
    (h : AreCalls listed items) : PlainItems items := by
  obtain ⟨made, -, rfl⟩ := h
  exact List.forall_mem_map.mpr fun _ _ => trivial

theorem Dialect.gives_readCalls (calls : List Json) :
    Draw.Gives (AreCalls calls) (readCalls calls) := by
  refine Draw.gives_gather_of (Q := fun _ items => ∃ call, items = [ReplyItem.call call])
    (fun v => ?_) ⟨[], rfl, rfl⟩ ?_ calls
  · exact (Draw.gives_true _).bind fun call _ => Draw.gives_pure ⟨call, rfl⟩
  · rintro v rest here others ⟨call, rfl⟩ ⟨made, hlength, rfl⟩
    exact ⟨call :: made, congrArg (· + 1) hlength, rfl⟩

theorem ChatCompletions.gives_parseReply (name : String) (body : Json) :
    Draw.Gives Reply.IsPlain (parseReply name body) := by
  unfold parseReply
  split
  · next choice _ =>
    have hcontent : PlainItems (contentItems ((choice.field? "message").getD .null)) := by
      unfold contentItems
      split
      · split
        · exact plainItems_nil
        · exact plainItems_text _
      · exact plainItems_nil
    have hitems : Draw.Gives PlainItems (choiceItems name body choice) := by
      unfold choiceItems
      dsimp only
      split
      · split
        · unfold refusalItems
          split
          · exact Draw.gives_pure (plainItems_text _)
          · exact Draw.gives_throw _
        · exact Draw.gives_pure hcontent
      · exact (Dialect.gives_readCalls _).bind fun made hmade =>
          Draw.gives_pure (List.forall_mem_append.mpr ⟨hcontent, hmade.plainItems⟩)
    exact hitems.bind fun items hitems => Draw.gives_pure hitems
  · exact Draw.gives_throw _

theorem Responses.gives_parseReply (body : Json) : Draw.Gives Reply.IsPlain (parseReply body) := by
  have hparts : ∀ part, PlainItems (partItems part) := by
    intro part
    unfold partItems
    split
    · exact plainItems_text _
    · exact plainItems_text _
    · exact plainItems_nil
  have hitems : ∀ v, Draw.Gives PlainItems (outputItems v) := by
    intro v
    unfold outputItems
    dsimp only
    split
    · refine Draw.gives_pure fun item hitem => ?_
      obtain ⟨part, -, hitem⟩ := List.mem_flatMap.mp hitem
      exact hparts part item hitem
    · split
      · exact gives_call _
      · split
        · exact Draw.gives_pure plainItems_nil
        · exact Draw.gives_throw _
  unfold parseReply
  split
  · exact (Draw.gives_gather hitems _).bind fun items hitems => Draw.gives_pure hitems
  · exact Draw.gives_throw _

theorem Anthropic.gives_parseReply (body : Json) : Draw.Gives Reply.IsPlain (parseReply body) := by
  have hitems : ∀ block, Draw.Gives PlainItems (blockItems block) := by
    intro block
    unfold blockItems
    dsimp only
    split
    · exact Draw.gives_pure (plainItems_text _)
    · split
      · exact gives_call _
      · split
        · exact Draw.gives_pure plainItems_nil
        · exact Draw.gives_throw _
  unfold parseReply
  split
  · exact (Draw.gives_gather hitems _).bind fun items hitems => Draw.gives_pure hitems
  · exact Draw.gives_throw _

theorem Ollama.gives_parseReply (body : Json) : Draw.Gives Reply.IsPlain (parseReply body) := by
  unfold parseReply
  split
  · next message _ =>
    have hitems : Draw.Gives PlainItems (messageItems body message) := by
      unfold messageItems
      split
      · exact Draw.gives_pure (plainItems_text _)
      · exact (Dialect.gives_readCalls _).imp fun _ hmade => hmade.plainItems
    exact hitems.bind fun items hitems => Draw.gives_pure hitems
  · exact Draw.gives_throw _

/-- Backends of all kinds reply with messages of the assistant and calls alone. -/
theorem BackendKind.repliesPlainly {σ : Type} (kind : BackendKind) (files : FileTree)
    (transport : Transport σ) : (kind.backend files transport).RepliesPlainly := by
  intro body
  refine Act.ensures_ofDraw ?_
  cases kind with
  | openAi | openWebUi | vllm => exact ChatCompletions.gives_parseReply _ body
  | responses => exact Responses.gives_parseReply body
  | anthropic => exact Anthropic.gives_parseReply body
  | ollama => exact Ollama.gives_parseReply body

end Colloquy
