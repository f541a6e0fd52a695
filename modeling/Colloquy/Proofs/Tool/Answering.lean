import Colloquy.Proofs.Act
import Colloquy.Proofs.Json.Fields
import Colloquy.Tool.Dispatch

/-!
# Colloquy — who answers a call

A call is answered by the executor of the tool in the catalogue, or else by the fallback
(`Dispatcher.Answers`). Whoever answers gets the arguments that the call brings, and those
that it does not bring from the defaults of the tool (`Dispatcher.Answers.get?_arguments`).
A call brings the fields of an object, nothing by null, and any other value as the input.
Answering fails only where nobody answers, or in a fault (`Dispatcher.invoke_cases`).
-/

namespace Colloquy

/-- The argument that a call brings under a key. -/
def ToolCall.argument? (call : ToolCall) (key : String) : Option Json :=
  match call.arguments with
  | .obj fields => Fields.get? key fields
  | .null => none
  | v => if key = "input" then some v else none

/-- The result of a call whose act ends so: an error is told, and a fault ends the work. -/
def ToolCall.told (call : ToolCall) : Except Failure Json → Except Failure ToolResult
  | .ok v => .ok ⟨call.id, outcomeText (.ok v)⟩
  | .error (.error e) => .ok ⟨call.id, outcomeText (.error e)⟩
  | .error .fault => .error .fault

theorem Arguments.get?_ofJson (call : ToolCall) (key : String) :
    (Arguments.ofJson call.arguments).get? key = call.argument? key := by
  have hinput : ∀ v, Fields.get? key [("input", v)] = if key = "input" then some v else none := by
    intro v
    simp only [Fields.get?]
    by_cases h : key = "input"
    · rw [if_pos h, if_pos h.symm]
    · rw [if_neg h, if_neg (Ne.symm h)]
  unfold ToolCall.argument? Arguments.ofJson
  cases call.arguments with
  | null | obj => rfl
  | bool | int | real | str | arr => exact hinput _

theorem Arguments.get?_withDefaults (args : Arguments) (defaults : Fields) (key : String) :
    (args.withDefaults defaults).get? key = (args.get? key).or (defaults.get? key) :=
  Fields.get?_insertNewAll key args.values defaults

namespace Dispatcher

variable {σ : Type} {d : Dispatcher σ} {catalogue : Catalogue σ} {call : ToolCall}

/-- A call is answered by an act that was given these arguments: by the executor of the tool that is
called, or by the fallback if the catalogue has no such tool. -/
inductive Answers (d : Dispatcher σ) (catalogue : Catalogue σ) (call : ToolCall) :
    Arguments → Act σ Json → Prop
  | executor {tool : Tool σ} (h : catalogue.get? call.name = some tool) :
      Answers d catalogue call ((Arguments.ofJson call.arguments).withDefaults tool.defaults)
        (tool.executor.call call.name
          ((Arguments.ofJson call.arguments).withDefaults tool.defaults))
  | fallback {run : String → Arguments → Act σ Json} (h : catalogue.get? call.name = none)
      (hrun : d.fallback? = some run) :
      Answers d catalogue call (Arguments.ofJson call.arguments)
        (run call.name (Arguments.ofJson call.arguments))

/-- Nobody answers the call. -/
def Ignores (d : Dispatcher σ) (catalogue : Catalogue σ) (call : ToolCall) : Prop :=
  catalogue.get? call.name = none ∧ d.fallback? = none

theorem answers_or_ignores (d : Dispatcher σ) (catalogue : Catalogue σ) (call : ToolCall) :
    (∃ args act, d.Answers catalogue call args act) ∨ d.Ignores catalogue call := by
  cases htool : catalogue.get? call.name with
  | some tool => exact Or.inl ⟨_, _, .executor htool⟩
  | none =>
    cases hfallback : d.fallback? with
    | some run => exact Or.inl ⟨_, _, .fallback htool hfallback⟩
    | none => exact Or.inr ⟨htool, hfallback⟩

theorem perform_invoke_of_ignores (h : d.Ignores catalogue call) (w : World σ) :
    (d.invoke catalogue call).perform w = (.error (.error (.unknownTool call.name)), w) := by
  have hact : d.answerer? catalogue call = none := by
    unfold answerer?
    rw [h.1, h.2]
    rfl
  unfold invoke
  rw [hact]
  rfl

namespace Answers

variable {args : Arguments} {act : Act σ Json}

theorem answerer?_eq (h : d.Answers catalogue call args act) :
    d.answerer? catalogue call = some act := by
  unfold answerer?
  cases h with
  | executor h => rw [h]
  | fallback h hrun =>
    rw [h, hrun]
    rfl

/-- The call is told what its act gives, be it an error, or ends in the act's fault. -/
theorem perform_invoke (h : d.Answers catalogue call args act) (w : World σ) :
    (d.invoke catalogue call).perform w =
      ((act.attempt.perform w).1.map fun outcome => ⟨call.id, outcomeText outcome⟩,
        (act.attempt.perform w).2) := by
  unfold invoke
  rw [h.answerer?_eq]
  exact Act.perform_bind_pure act.attempt _ w

theorem perform_invoke_eq_told (h : d.Answers catalogue call args act) (w : World σ) :
    (d.invoke catalogue call).perform w = (call.told (act.perform w).1, (act.perform w).2) := by
  rw [h.perform_invoke, Act.perform_attempt]
  rcases act.perform w with ⟨(e | _) | v, w'⟩ <;> rfl

/-- Whoever answers gets the arguments of the call, and the defaults of the tool for others. -/
theorem get?_arguments (h : d.Answers catalogue call args act) (key : String) :
    args.get? key =
      (call.argument? key).or
        ((catalogue.get? call.name).bind fun tool => tool.defaults.get? key) := by
  cases h with
  | executor h =>
    rw [Arguments.get?_withDefaults, Arguments.get?_ofJson, h]
    rfl
  | fallback h _ =>
    rw [Arguments.get?_ofJson, h]
    exact (Option.or_none ..).symm

end Answers

/-- A call is answered, and the outcome becomes its result, or its act ends in a fault, or nobody
answers it. -/
theorem invoke_cases (d : Dispatcher σ) (catalogue : Catalogue σ) (call : ToolCall)
    (w : World σ) :
    (∃ args act outcome w', d.Answers catalogue call args act ∧
        act.attempt.perform w = (.ok outcome, w') ∧
        (d.invoke catalogue call).perform w = (.ok ⟨call.id, outcomeText outcome⟩, w')) ∨
      (∃ args act w', d.Answers catalogue call args act ∧
        act.attempt.perform w = (.error .fault, w') ∧
        (d.invoke catalogue call).perform w = (.error .fault, w')) ∨
      (d.Ignores catalogue call ∧
        (d.invoke catalogue call).perform w = (.error (.error (.unknownTool call.name)), w)) := by
  rcases d.answers_or_ignores catalogue call with ⟨args, act, hanswers⟩ | hignores
  · have hinvoke := hanswers.perform_invoke w
    rcases hattempt : act.attempt.perform w with ⟨f | outcome, w'⟩
    · rw [hattempt] at hinvoke
      obtain rfl := Act.attempt_failure hattempt
      exact Or.inr (Or.inl ⟨args, act, w', hanswers, hattempt, hinvoke⟩)
    · rw [hattempt] at hinvoke
      exact Or.inl ⟨args, act, outcome, w', hanswers, hattempt, hinvoke⟩
  · exact Or.inr (Or.inr ⟨hignores, perform_invoke_of_ignores hignores w⟩)

/-- The result of a call has the identifier of the call. -/
theorem id_of_invoke {d : Dispatcher σ} {catalogue : Catalogue σ} {call : ToolCall}
    {result : ToolResult} {w w' : World σ}
    (h : (d.invoke catalogue call).perform w = (.ok result, w')) : result.id = call.id := by
  rcases d.invoke_cases catalogue call w with ⟨_, _, outcome, _, -, -, hinvoke⟩ |
    ⟨_, _, _, -, -, hinvoke⟩ | ⟨-, hinvoke⟩
  · obtain ⟨hresult, -⟩ := Prod.mk.inj (h.symm.trans hinvoke)
    rw [Except.ok.inj hresult]
  · exact absurd (congrArg Prod.fst (h.symm.trans hinvoke)) nofun
  · exact absurd (congrArg Prod.fst (h.symm.trans hinvoke)) nofun

end Dispatcher

end Colloquy
