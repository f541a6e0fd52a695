import Colloquy.Proofs.Json.Line
import Colloquy.Proofs.Tool.Reading

/-!
# Colloquy — calls that travel

A call is portable if its arguments are an object of integers that nests one level less
than texts may: then they are read back as they are from a string
(`ToolCall.IsPortable.decodeArguments_render`), and the call is read back from its message
(`ToolCall.IsPortable.toolCall_functionCall`) and from the text of its message
(`ToolCall.IsPortable.parse?_render`). Every result is (`ToolResult.parse?_render`).
-/

namespace Colloquy

theorem Text.allBlank_render_obj (fields : Fields) :
    Text.allBlank (Json.obj fields).render.toList = false := by
  obtain ⟨body, hbody⟩ := Json.exists_chars_obj fields
  rw [Json.render, String.toList_ofList, hbody]
  rfl

namespace ToolCall

/-- The arguments are an object, in the form in which objects are kept, whose numbers are integers of
64 bits, and there is room for one more object around it. -/
structure IsPortable (call : ToolCall) : Prop where
  isObject : ∃ fields, call.arguments = .obj fields
  ordered : call.arguments.Ordered
  integral : call.arguments.Integral
  depth_lt : call.arguments.depth < Json.greatestDepth

namespace IsPortable

variable {call : ToolCall}

theorem decodeArguments (h : call.IsPortable) :
    ToolCall.decodeArguments call.arguments = call.arguments := by
  obtain ⟨fields, hfields⟩ := h.isObject
  rw [hfields, decodeArguments_obj]

/-- The arguments are read back from a string. -/
theorem decodeArguments_render (h : call.IsPortable) :
    ToolCall.decodeArguments (.str call.arguments.render) = call.arguments := by
  have hblank : Text.allBlank call.arguments.render.toList = false := by
    obtain ⟨fields, hfields⟩ := h.isObject
    rw [hfields, Text.allBlank_render_obj]
  have hparse := Json.parse?_render h.ordered h.integral (Nat.le_of_lt h.depth_lt)
  rw [decodeArguments_str, hblank, hparse]
  rfl

/-- The message of the call carries the call. -/
theorem toolCall_functionCall (h : call.IsPortable) :
    (Message.functionCall call).toolCall = pure call :=
  (ofJson_toJson call).trans (by rw [h.decodeArguments])

theorem integral_toJson (h : call.IsPortable) : call.toJson.Integral := by
  rw [toJson_eq]
  exact ⟨h.integral, trivial, trivial, trivial⟩

/-- The call is read back from the text of its message. -/
theorem parse?_render (h : call.IsPortable) :
    Json.parse? call.toJson.render = some call.toJson := by
  have hordered : call.toJson.Ordered := by
    have hkeys : ["arguments", "id", "name"].Pairwise (· < ·) := by decide
    rw [toJson_eq]
    exact ⟨Fields.ascending_of_keys rfl hkeys, h.ordered, trivial, trivial, trivial⟩
  have hdepth : call.toJson.depth ≤ Json.greatestDepth := by
    rw [toJson_eq]
    exact Nat.succ_le_of_lt (by simpa [Json.depthFields, Json.depth] using h.depth_lt)
  exact Json.parse?_render hordered h.integral_toJson hdepth

end IsPortable

end ToolCall

namespace ToolResult

theorem integral_toJson (result : ToolResult) : result.toJson.Integral := by
  rw [toJson_eq]
  exact ⟨trivial, trivial, trivial⟩

/-- A result is read back from the text of its message. -/
theorem parse?_render (result : ToolResult) :
    Json.parse? result.toJson.render = some result.toJson := by
  have hordered : result.toJson.Ordered := by
    have hkeys : ["content", "id"].Pairwise (· < ·) := by decide
    rw [toJson_eq]
    exact ⟨Fields.ascending_of_keys rfl hkeys, trivial, trivial, trivial⟩
  have hdepth : result.toJson.depth ≤ Json.greatestDepth := by
    rw [toJson_eq]
    exact Nat.le_trans (Nat.le_refl 1) (by decide)
  exact Json.parse?_render hordered result.integral_toJson hdepth

end ToolResult

end Colloquy
