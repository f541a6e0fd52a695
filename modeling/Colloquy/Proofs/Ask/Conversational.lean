import Colloquy.Proofs.Ask.Course
import Colloquy.Proofs.Directive.Settled
import Colloquy.Proofs.Directive.ToolRegistration
import Colloquy.Proofs.Run.Content
import Colloquy.Proofs.Run.Rehearsal
import Colloquy.Proofs.RunOptions.Extraction

/-!
# Colloquy — what reaches a backend

Resolving takes directives out, registering takes tool directives out, and extraction takes
options out, so a run starts on messages that are content of the conversation
(`Inquiry.conversational_of_prepare`). A run adds messages of the assistant, calls and
results. So no request holds anything else (`Inquiry.run_conversational`).

* `Role.IsConversational` — the roles of content.
-/

namespace Colloquy

/-- The role is of content: of no option, of no tool directive, and of no directive that resolving
takes out. -/
structure Role.IsConversational (role : Role) : Prop where
  option : role.isOption = false
  toolDirective : role.isToolDirective = false
  directive : role.isDirective = false

namespace Inquiry

variable {σ : Type} {q : Inquiry σ} {c : Conversation}

/-- A conversation that is prepared has content alone. -/
theorem conversational_of_prepare {w w' : World σ} {messages : List Message}
    {options : RunOptions} {tools : Catalogue σ}
    (h : (q.prepare c).perform w = (.ok (messages, options, tools), w')) :
    ∀ m ∈ messages, m.role.IsConversational := by
  unfold prepare at h
  obtain ⟨resolved, w₁, hresolved, h⟩ := Act.perform_bind_eq_ok_iff.mp h
  obtain ⟨⟨registered, _⟩, w₂, hregistered, h⟩ := Act.perform_bind_eq_ok_iff.mp h
  obtain ⟨⟨kept, _⟩, w₃, hkept, h⟩ := Act.perform_bind_eq_ok_iff.mp h
  obtain ⟨hprepared, -⟩ := Prod.mk.inj h
  obtain ⟨rfl, -⟩ := Prod.mk.inj (Except.ok.inj hprepared)
  obtain ⟨hextract, -⟩ := Act.perform_ofExcept_eq_ok_iff.mp hkept
  obtain ⟨x, hx, rfl, -⟩ := extractMessages_eq_ok_iff.mp hextract
  have hleft : registered = withoutToolDirectives resolved :=
    (q.resolver.ensures_registerTools resolved q.tools).of_ok hregistered
  rw [Extraction.kept_foldlM_step hx, hleft]
  intro m hm
  obtain ⟨hm, hoption⟩ := List.mem_filter.mp hm
  obtain ⟨hm, htool⟩ := List.mem_filter.mp hm
  have hsettled := Resolver.settled_of_pipeline hresolved m hm
  exact ⟨by simpa using hoption, by simpa using htool, hsettled.role⟩

/-- The backend of a run is the one that is given, or the one of a kind. -/
theorem repliesPlainly_of_runner {options : RunOptions} {tools : Catalogue σ} {runner : Runner σ}
    (hbackend : ∀ backend ∈ q.backend?, backend.RepliesPlainly)
    (h : q.runner options tools = .ok runner) : runner.backend.RepliesPlainly := by
  obtain ⟨backend, hbacked, h⟩ := exists_of_bind_eq_ok h
  obtain ⟨client, -, h⟩ := exists_of_bind_eq_ok h
  obtain rfl := Except.ok.inj h
  unfold Inquiry.backend at hbacked
  split at hbacked
  · next given hgiven =>
    obtain rfl := Except.ok.inj hbacked
    exact hbackend _ hgiven
  · cases hkind : selectBackend options q.resolver.settings q.resolver.environment with
    | error e =>
      rw [hkind] at hbacked
      exact absurd hbacked nofun
    | ok kind =>
      rw [hkind] at hbacked
      rw [← Except.ok.inj hbacked]
      exact kind.repliesPlainly _ _

theorem isConversational_of_output {m : Message}
    (h : m.role = .assistant ∨ m.role = .functionCall ∨ m.role = .functionCallOutput) :
    m.role.IsConversational := by
  rcases h with h | h | h <;> rw [h] <;> exact ⟨rfl, rfl, rfl⟩

/-- If a given backend replies with messages of the assistant and calls alone, as all kinds of
backends do, every message of every request is content of the conversation. -/
theorem run_conversational (q : Inquiry σ)
    (hbackend : ∀ backend ∈ q.backend?, backend.RepliesPlainly) (c : Conversation) (w : World σ) :
    ∃ requests result w', q.Goes c w requests result w' ∧ (q.run c).perform w = (result, w') ∧
      ∀ request ∈ requests, ∀ m ∈ request.messages, m.role.IsConversational := by
  obtain ⟨requests, result, w', hgoes⟩ := q.exists_goes c w
  refine ⟨requests, result, w', hgoes, hgoes.perform_eq, ?_⟩
  cases hgoes with
  | unprepared | unconnected => exact List.forall_mem_nil _
  | ran hprepare hrunner hruns =>
    refine hruns.forall_request (conversational_of_prepare hprepare) fun t ht m hm => ?_
    exact isConversational_of_output
      (hruns.role_of_output (repliesPlainly_of_runner hbackend hrunner) t ht m hm)

-- ---------------------------------------------------------------------------
-- A question with directives
-- ---------------------------------------------------------------------------

/-- A backend on a stage, which calls a tool once and then gives an answer. -/
def summer : Backend Stage :=
  { Stage.backend false with
    send := fun _ _ => pure Stage.replyBody
    parseReply := fun _ => do
      let stage ← Act.outer
      return { items := [if stage.sent.length = 1 then Stage.addCall "call_1" else .text "four"] } }

theorem repliesPlainly_summer : summer.RepliesPlainly := by
  refine fun body => (Act.ensures_true _).bind fun stage _ => Act.ensures_pure ?_
  refine List.forall_mem_singleton.mpr ?_
  split
  · exact trivial
  · exact rfl

/-- A question on a stage, with chats that name another chat and a file. -/
def sumQuestion : Inquiry Stage where
  resolver :=
    { files :=
        { root :=
            .dir
              [("numbers.txt", .file "2 2".toUTF8),
               ("outer.chat", .file "skip: aside\nimport: inner.chat\noption: effort high".toUTF8),
               ("inner.chat", .file "user: old\nclear:\nfile: numbers.txt".toUTF8)]
          base := [] } }
  tools := ⟨[Stage.tool "add" "" .empty [] (.give (.str "4"))]⟩
  clock := Stage.clock
  transport := Stage.offline
  backend? := some summer

/-- The conversation of that question, which leads to both chats. -/
def sumConversation : Conversation where
  messages :=
    [.ofText .model "adder", .ofText .import_ "outer.chat", .ofText .clearTools "",
     .user "Add them."]

/-- The options that are taken out of it. -/
def sumOptions : RunOptions :=
  { values := [("effort", .str "high"), ("model", .str "adder")] }

/-- What runs it. -/
def sumRunner : Runner Stage where
  backend := summer
  client := { url := "http://localhost", model := "adder", headers := Headers.bearer none }
  tools := sumQuestion.tools
  clock := Stage.clock

/-- What is left of the file that is named. -/
def numbers : Message := .user "<file name=\"numbers.txt\">\n2 2\n</file>"

/-- Both chats are expanded, one inside the other. -/
theorem resolveMessages_sum :
    (sumQuestion.resolver.resolveMessages sumConversation.messages none).perform
        (Stage.opening []) =
      (.ok [.ofText .model "adder", numbers, .ofText .option "effort high", .ofText .clearTools "",
        .user "Add them."], Stage.opening []) := by
  have hinnerChat : sumQuestion.resolver.Enters [["outer.chat"]] (some "outer.chat")
      (.ofText .import_ "inner.chat") "inner.chat" ["inner.chat"]
      [.user "old", .ofText .clear "", .ofText .file "numbers.txt"] :=
    ⟨⟨rfl, rfl, _, rfl⟩, by decide, _, rfl, rfl⟩
  have hinner : sumQuestion.resolver.Imports [["inner.chat"], ["outer.chat"]] (some "inner.chat")
      [.ofText .file "numbers.txt"] (Stage.opening []) [] (.ok [.ofText .file "numbers.txt"])
      (Stage.opening []) :=
    .other_ok rfl (.nil _ _ _)
  have hfile : (Act.ofFailable (.ok [.ofText .file "numbers.txt"]) >>=
        sumQuestion.resolver.afterImports (some "inner.chat")).perform (Stage.opening []) =
      (.ok [numbers], Stage.opening []) := rfl
  have houterChat : sumQuestion.resolver.Enters [] none
      (.ofText .import_ "outer.chat") "outer.chat" ["outer.chat"]
      [.ofText .skip "aside", .ofText .import_ "inner.chat", .ofText .option "effort high"] :=
    ⟨⟨rfl, rfl, _, rfl⟩, List.not_mem_nil, _, rfl, rfl⟩
  have houter : sumQuestion.resolver.Imports [["outer.chat"]] (some "outer.chat")
      [.ofText .import_ "inner.chat", .ofText .option "effort high"] (Stage.opening [])
      [.node "inner.chat" ["inner.chat"] []] (.ok [numbers, .ofText .option "effort high"])
      (Stage.opening []) :=
    .spliced hinnerChat hinner hfile (.other_ok rfl (.nil _ _ _))
  have hoption : (Act.ofFailable (.ok [numbers, .ofText .option "effort high"]) >>=
        sumQuestion.resolver.afterImports (some "outer.chat")).perform (Stage.opening []) =
      (.ok [numbers, .ofText .option "effort high"], Stage.opening []) := rfl
  have himports : sumQuestion.resolver.Imports [] none sumConversation.messages (Stage.opening [])
      [.node "outer.chat" ["outer.chat"] [.node "inner.chat" ["inner.chat"] []]]
      (.ok [.ofText .model "adder", numbers, .ofText .option "effort high", .ofText .clearTools "",
        .user "Add them."]) (Stage.opening []) :=
    .other_ok rfl (.spliced houterChat houter hoption
      (.other_ok rfl (.other_ok rfl (.nil _ _ _))))
  exact Resolver.Resolves.perform_eq ⟨_, _, himports, rfl⟩

theorem prepare_sum :
    (sumQuestion.prepare sumConversation).perform (Stage.opening []) =
      (.ok ([numbers, .user "Add them."], sumOptions, sumQuestion.tools), Stage.opening []) := by
  have hregistered : (sumQuestion.resolver.registerTools
      [.ofText .model "adder", numbers, .ofText .option "effort high", .ofText .clearTools "",
        .user "Add them."] sumQuestion.tools).perform (Stage.opening []) =
      (.ok ([.ofText .model "adder", numbers, .ofText .option "effort high", .user "Add them."],
        sumQuestion.tools), Stage.opening []) := rfl
  have hextracted : extractMessages sumQuestion.resolver.search sumQuestion.resolver.files
      [.ofText .model "adder", numbers, .ofText .option "effort high", .user "Add them."] none =
      .ok ([numbers, .user "Add them."], sumOptions) := by decide +kernel
  have horigin : sumConversation.origin? = none := rfl
  rw [prepare, Act.perform_bind, horigin, resolveMessages_sum]
  dsimp only
  rw [Act.perform_bind, hregistered]
  dsimp only
  rw [hextracted]
  rfl

theorem runner_sum : sumQuestion.runner sumOptions sumQuestion.tools = .ok sumRunner := by
  have hbackend : sumQuestion.backend sumOptions = .ok summer := rfl
  have hclient : summer.buildClient (sumQuestion.sources sumOptions) = .ok sumRunner.client := by
    decide +kernel
  have hmaxTurns : sumQuestion.maxTurns sumOptions = defaultMaxTurns := by decide +kernel
  rw [runner, hbackend]
  dsimp only [Except.mapError, bind, Except.bind]
  rw [hclient, hmaxTurns]
  rfl

/-- Directives, options and tool directives stand in a conversation and in chats that it names, and
neither of its two requests holds any of them. -/
theorem run_conversational_sum :
    (∀ backend ∈ sumQuestion.backend?, backend.RepliesPlainly) ∧
      ∃ requests result w', sumQuestion.Goes sumConversation (Stage.opening []) requests result w' ∧
        requests.map (·.messages) =
          [[numbers, .user "Add them."],
           [numbers, .user "Add them.", .functionCall ⟨"call_1", "add", .obj []⟩,
            Stage.sum "call_1"]] ∧
        ∀ request ∈ requests, ∀ m ∈ request.messages, m.role.IsConversational := by
  have hbackend : ∀ backend ∈ sumQuestion.backend?, backend.RepliesPlainly := by
    intro backend hgiven
    rw [← Option.some.inj hgiven]
    exact repliesPlainly_summer
  have hruns : sumRunner.Runs [numbers, .user "Add them."] sumOptions (Stage.opening [])
      [⟨_, { items := [Stage.addCall "call_1"] }, _⟩, ⟨_, { items := [.text "four"] }, _⟩] _ _ _ :=
    Runner.History.runs (.continued ⟨rfl, ⟨_, _, rfl, rfl⟩, List.cons_ne_nil _ _⟩ rfl
      (.finished ⟨rfl, ⟨_, _, rfl, rfl⟩, List.cons_ne_nil _ _⟩ rfl))
  obtain ⟨requests, result, w', hgoes, -, hconversational⟩ :=
    run_conversational sumQuestion hbackend sumConversation (Stage.opening [])
  refine ⟨hbackend, requests, result, w', hgoes, ?_, hconversational⟩
  rw [hgoes.unique (.ran prepare_sum runner_sum hruns)]
  rfl

end Inquiry

end Colloquy
