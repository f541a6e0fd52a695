import Colloquy.Proofs.Backend.Replies
import Mathlib.Data.List.Flatten

/-!
# Colloquy — texts of replies

Each dialect has its places for what the model says in plain text: the content of the first
choice, the parts of messages, blocks of text, or the content of the message. A text that
stands there and is not empty becomes a message of the assistant, whatever else the reply
holds — but for Ollama's dialect, which reads the content only where no calls are listed
(`BackendKind.parseReply_keepsTexts_iff`).

* `BackendKind.plainTexts` — the texts of a reply's body.
* `Reply.KeepsTexts` — texts that have become messages.
-/

namespace Colloquy

/-- Each of the texts is a message of the assistant among the items, in the same order. -/
def HoldTexts (texts : List String) (items : List ReplyItem) : Prop :=
  (texts.map ReplyItem.text).Sublist items

/-- The texts are messages of the reply. -/
def Reply.KeepsTexts (texts : List String) (reply : Reply) : Prop :=
  HoldTexts texts reply.items

/-- No text is a message among the items. -/
def Reply.IsSilent (reply : Reply) : Prop :=
  ∀ text, ReplyItem.text text ∉ reply.items

theorem holdTexts_nil (items : List ReplyItem) : HoldTexts [] items := List.nil_sublist items

/-- Where there is nothing to keep, any draw keeps it. -/
theorem gives_holdTexts_nil (draw : Draw (List ReplyItem)) : draw.Gives (HoldTexts []) :=
  (Draw.gives_true draw).imp fun items _ => holdTexts_nil items

/-- Items that are read one after another hold the texts of each. -/
theorem gives_holdTexts_gather {texts : Json → List String} {read : Json → Draw (List ReplyItem)}
    (h : ∀ v, (read v).Gives (HoldTexts (texts v))) (listed : List Json) :
    (Draw.gather read listed).Gives (HoldTexts (listed.flatMap texts)) := by
  unfold HoldTexts
  rw [List.map_flatMap]
  exact Draw.gives_gather_sublist h listed

/-- A reply without texts that keeps some has none to keep. -/
theorem Reply.KeepsTexts.eq_nil {texts : List String} {reply : Reply}
    (h : reply.KeepsTexts texts) (hsilent : reply.IsSilent) : texts = [] := by
  refine List.eq_nil_iff_forall_not_mem.mpr fun text htext => ?_
  exact hsilent text (h.subset (List.mem_map_of_mem htext))

/-- Calls that are listed are calls of the reply. -/
theorem AreCalls.toolCalls_ne_nil {listed : List Json} {items : List ReplyItem}
    (h : AreCalls listed items) (hlisted : listed ≠ []) :
    ({ items } : Reply).toolCalls ≠ [] := by
  obtain ⟨made, hlength, rfl⟩ := h
  have hcalls : ({ items := made.map .call } : Reply).toolCalls = made := by
    simp [Reply.toolCalls, List.filterMap_map, Function.comp_def, ReplyItem.call?]
  rw [hcalls]
  rintro rfl
  exact hlisted (List.length_eq_zero_iff.mp hlength.symm)

theorem AreCalls.isSilent {listed : List Json} {items : List ReplyItem}
    (h : AreCalls listed items) : ({ items } : Reply).IsSilent := by
  obtain ⟨made, -, rfl⟩ := h
  intro text htext
  obtain ⟨call, -, hcall⟩ := List.mem_map.mp htext
  exact absurd hcall nofun

-- ---------------------------------------------------------------------------
-- Texts of each dialect
-- ---------------------------------------------------------------------------

namespace Dialect

/-- The text of a field, unless it is empty. -/
def fieldTexts (key : String) (v : Json) : List String :=
  (textField? key v).toList.filter fun text => !text.isEmpty

/-- An item made of the field holds its text. -/
theorem holdTexts_field (key : String) (v : Json) :
    HoldTexts (fieldTexts key v) [.text ((textField? key v).getD "")] := by
  unfold fieldTexts
  cases textField? key v with
  | none => exact holdTexts_nil _
  | some text => exact (List.filter_sublist (l := [text])).map ReplyItem.text

end Dialect

open Dialect

namespace ChatCompletions

/-- The content of the first choice. -/
def plainTexts (body : Json) : List String :=
  ((choice? body).bind (Json.field? "message")).toList.flatMap (fieldTexts "content")

theorem contentItems_eq (message : Json) :
    contentItems message = (fieldTexts "content" message).map ReplyItem.text := by
  unfold contentItems fieldTexts
  cases textField? "content" message with
  | none => rfl
  | some text => cases h : text.isEmpty <;> simp [h]

theorem contentItems_message {body choice : Json} (h : choice? body = some choice) :
    contentItems ((choice.field? "message").getD .null) =
      (plainTexts body).map ReplyItem.text := by
  unfold plainTexts
  rw [h, Option.bind_some]
  cases choice.field? "message" with
  | none => rfl
  | some message => simp [contentItems_eq]

/-- The text of a choice comes before the calls. -/
theorem gives_texts (name : String) (body : Json) :
    (parseReply name body).Gives (Reply.KeepsTexts (plainTexts body)) := by
  unfold parseReply
  split
  · next choice hchoice =>
    have hitems : (choiceItems name body choice).Gives (HoldTexts (plainTexts body)) := by
      unfold choiceItems
      dsimp only
      rw [contentItems_message hchoice]
      split
      · split
        · next hempty =>
          rw [List.map_eq_nil_iff.mp (List.isEmpty_iff.mp hempty)]
          exact gives_holdTexts_nil _
        · exact Draw.gives_pure (List.Sublist.refl _)
      · exact (Draw.gives_true _).bind fun _ _ =>
          Draw.gives_pure (List.sublist_append_left _ _)
    exact hitems.bind fun items hitems => Draw.gives_pure hitems
  · exact Draw.gives_throw _

end ChatCompletions

namespace Responses

/-- What a part of a message says or refuses to say. -/
def partTexts (part : Json) : List String :=
  if textField? "type" part = some "output_text" then fieldTexts "text" part
  else if textField? "type" part = some "refusal" then fieldTexts "refusal" part
  else []

/-- What a message says. -/
def itemTexts (item : Json) : List String :=
  if textField? "type" item = some "message" then
    ((itemsField? "content" item).getD []).flatMap partTexts
  else []

/-- What the messages of a reply say. -/
def plainTexts (body : Json) : List String :=
  ((itemsField? "output" body).getD []).flatMap itemTexts

theorem holdTexts_part (part : Json) :
    HoldTexts (partTexts part) (partItems part) := by
  unfold partTexts partItems
  split
  · next htype => rw [htype]; exact holdTexts_field ..
  · split
    · next htype => rw [htype]; exact holdTexts_field ..
    · exact holdTexts_nil _

theorem holdTexts_parts (parts : List Json) :
    HoldTexts (parts.flatMap partTexts) (parts.flatMap partItems) := by
  rw [HoldTexts, List.map_flatMap]
  exact .flatMap_right parts fun part _ => holdTexts_part part

theorem gives_itemTexts (item : Json) :
    (outputItems item).Gives (HoldTexts (itemTexts item)) := by
  unfold itemTexts
  split
  · next htype =>
    have hparts : outputItems item =
        pure (((itemsField? "content" item).getD []).flatMap partItems) := by
      simp [outputItems, htype]
    rw [hparts]
    exact Draw.gives_pure (holdTexts_parts _)
  · exact gives_holdTexts_nil _

theorem gives_texts (body : Json) :
    (parseReply body).Gives (Reply.KeepsTexts (plainTexts body)) := by
  unfold parseReply
  split
  · next output houtput =>
    rw [plainTexts, houtput]
    exact (gives_holdTexts_gather gives_itemTexts output).bind fun items hitems =>
      Draw.gives_pure hitems
  · exact Draw.gives_throw _

end Responses

namespace Anthropic

/-- What a block of text says. -/
def blockTexts (block : Json) : List String :=
  if textField? "type" block = some "text" then fieldTexts "text" block else []

/-- What the blocks of a reply say. -/
def plainTexts (body : Json) : List String :=
  ((itemsField? "content" body).getD []).flatMap blockTexts

theorem gives_blockTexts (block : Json) :
    (blockItems block).Gives (HoldTexts (blockTexts block)) := by
  unfold blockTexts
  split
  · next htype =>
    have htext : blockItems block = pure [.text ((textField? "text" block).getD "")] := by
      simp [blockItems, htype]
    rw [htext]
    exact Draw.gives_pure (holdTexts_field ..)
  · exact gives_holdTexts_nil _

theorem gives_texts (body : Json) :
    (parseReply body).Gives (Reply.KeepsTexts (plainTexts body)) := by
  unfold parseReply
  split
  · next blocks hblocks =>
    rw [plainTexts, hblocks]
    exact (gives_holdTexts_gather gives_blockTexts blocks).bind fun items hitems =>
      Draw.gives_pure hitems
  · exact Draw.gives_throw _

end Anthropic

namespace Ollama

/-- The content of the message. -/
def plainTexts (body : Json) : List String :=
  (body.field? "message").toList.flatMap (fieldTexts "content")

/-- The calls of a reply are read in the place of its text. -/
theorem gives_texts (body : Json) :
    (parseReply body).Gives fun reply =>
      reply.toolCalls = [] ∧ reply.KeepsTexts (plainTexts body) ∨
        reply.toolCalls ≠ [] ∧ reply.IsSilent := by
  unfold parseReply
  split
  · next message hmessage =>
    have htexts : plainTexts body = fieldTexts "content" message := by
      simp [plainTexts, hmessage]
    unfold messageItems
    generalize ((fieldOf? "tool_calls" body message).bind Json.asArr?).getD [] = listed
    cases listed with
    | nil =>
      refine Draw.gives_pure (Or.inl ⟨rfl, ?_⟩)
      rw [htexts]
      exact holdTexts_field ..
    | cons call others =>
      exact (gives_readCalls (call :: others)).bind fun items hitems =>
        Draw.gives_pure (Or.inr ⟨hitems.toolCalls_ne_nil (List.cons_ne_nil _ _), hitems.isSilent⟩)
  · exact Draw.gives_throw _

end Ollama

-- ---------------------------------------------------------------------------
-- Texts of all kinds
-- ---------------------------------------------------------------------------

namespace BackendKind

/-- The plain texts of a reply that are not empty, where its dialect has them. -/
def plainTexts : BackendKind → Json → List String
  | .openAi | .openWebUi | .vllm => ChatCompletions.plainTexts
  | .responses => Responses.plainTexts
  | .anthropic => Anthropic.plainTexts
  | .ollama => Ollama.plainTexts

/-- Beside Ollama's dialect all texts are kept. -/
theorem gives_texts_of_ne {kind : BackendKind} (h : kind ≠ .ollama) (body : Json) :
    (kind.parseReply body).Gives (Reply.KeepsTexts (kind.plainTexts body)) := by
  cases kind with
  | openAi | openWebUi | vllm => exact ChatCompletions.gives_texts _ body
  | responses => exact Responses.gives_texts body
  | anthropic => exact Anthropic.gives_texts body
  | ollama => exact absurd rfl h

variable {σ : Type} {kind : BackendKind} {files : FileTree} {transport : Transport σ}
  {w w' : World σ} {body : Json} {reply : Reply}

/-- A reply that is read has all its texts as messages, in order and beside its calls; in Ollama's
dialect if and only if it has no calls or no text. -/
theorem parseReply_keepsTexts_iff
    (h : ((kind.backend files transport).parseReply body).perform w = (.ok reply, w')) :
    reply.KeepsTexts (kind.plainTexts body) ↔
      (kind = .ollama → reply.toolCalls = [] ∨ kind.plainTexts body = []) := by
  by_cases hkind : kind = .ollama
  · subst hkind
    have htexts : reply.toolCalls = [] ∧ reply.KeepsTexts (ollama.plainTexts body) ∨
        reply.toolCalls ≠ [] ∧ reply.IsSilent :=
      (Act.ensures_ofDraw (Ollama.gives_texts body)).of_ok h
    rcases htexts with ⟨hnone, hkeeps⟩ | ⟨hcalls, hsilent⟩
    · exact ⟨fun _ _ => Or.inl hnone, fun _ => hkeeps⟩
    · constructor
      · intro hkeeps _
        exact Or.inr (hkeeps.eq_nil hsilent)
      · intro hnone
        have htexts : ollama.plainTexts body = [] := (hnone rfl).resolve_left hcalls
        rw [htexts]
        exact holdTexts_nil _
  · have hkeeps : reply.KeepsTexts (kind.plainTexts body) :=
      (Act.ensures_ofDraw (gives_texts_of_ne hkind body)).of_ok h
    exact ⟨fun _ hollama => absurd hollama hkind, fun _ => hkeeps⟩

/-- A text before a call. -/
theorem parseReply_keepsTexts_iff_block :
    let block := Json.object [("type", .str "text"), ("text", .str "Let me check.")]
    let call := Json.object
      [("type", .str "tool_use"), ("id", .str "c1"), ("name", .str "lookup"),
        ("input", .obj [("q", .str "y")])]
    let body := Json.object [("content", .arr [block, call])]
    let transport : Transport Unit := ⟨fun _ _ _ _ => pure .timedOut⟩
    let backend := anthropic.backend .empty transport
    ∃ reply : Reply, (backend.parseReply body).perform (.start ()) = (.ok reply, .start ()) ∧
      anthropic.plainTexts body = ["Let me check."] ∧ reply.toolCalls ≠ [] ∧
      reply.KeepsTexts ["Let me check."] := by
  intro block call body transport backend
  have hreply : (backend.parseReply body).perform (.start ()) = (.ok _, .start ()) := rfl
  have htexts : anthropic.plainTexts body = ["Let me check."] := by decide +kernel
  have hkeeps := (parseReply_keepsTexts_iff hreply).mpr nofun
  rw [htexts] at hkeeps
  exact ⟨_, hreply, htexts, by decide +kernel, hkeeps⟩

/-- A text beside a call is no message of the reply. -/
theorem parseReply_drops_text :
    let function := Json.object [("name", .str "add"), ("arguments", .obj [("a", .int 1)])]
    let message := Json.object
      [("role", .str "assistant"), ("content", .str "Let me add."),
        ("tool_calls", .arr [.object [("id", .str "c1"), ("function", function)]])]
    let body := Json.object [("message", message)]
    let transport : Transport Unit := ⟨fun _ _ _ _ => pure .timedOut⟩
    let backend := ollama.backend .empty transport
    ∃ reply : Reply, (backend.parseReply body).perform (.start ()) = (.ok reply, .start ()) ∧
      ollama.plainTexts body = ["Let me add."] ∧
      ReplyItem.text "Let me add." ∉ reply.items :=
  ⟨⟨[.call ⟨"c1", "add", .obj [("a", .int 1)]⟩], none⟩, rfl, by decide +kernel,
    by decide +kernel⟩

end BackendKind

end Colloquy
