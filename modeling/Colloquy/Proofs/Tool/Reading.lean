import Colloquy.Proofs.Act
import Colloquy.Proofs.Json.Length
import Colloquy.ToolCall

/-!
# Colloquy — calls read back

A result is read back from its value as it is (`ToolResult.ofJson_toJson`). A call is read
back with its arguments decoded once more (`ToolCall.ofJson_toJson`), which changes nothing
unless they are null, a blank string or a string that holds JSON
(`ToolCall.decodeArguments_eq_self_iff`). A call that was read has such arguments where a
string held null, or held another string of that kind: what its message carries is then not
what was read (`ToolCall.toolCall_functionCall_iff`).
-/

namespace Colloquy

-- ---------------------------------------------------------------------------
-- Results
-- ---------------------------------------------------------------------------

namespace ToolResult

theorem toJson_eq (result : ToolResult) :
    result.toJson = .obj [("content", .str result.content), ("id", .str result.id)] := by
  simp only [toJson, Json.object, Fields.ofList, List.foldl_cons, List.foldl_nil, Fields.insert,
    String.reduceLT, String.reduceEq, reduceIte]

/-- A result is read back from its value. -/
theorem ofJson_toJson (result : ToolResult) : ofJson result.toJson = .ok result := by
  simp [ofJson, toJson_eq, id?, Json.field?, Fields.get?, Json.asStr?, contentText]

end ToolResult

-- ---------------------------------------------------------------------------
-- Calls
-- ---------------------------------------------------------------------------

namespace ToolCall

theorem toJson_eq (call : ToolCall) :
    call.toJson =
      .obj [("arguments", call.arguments), ("id", .str call.id), ("name", .str call.name)] := by
  simp only [toJson, Json.object, Fields.ofList, List.foldl_cons, List.foldl_nil, Fields.insert,
    String.reduceLT, String.reduceEq, reduceIte]

/-- A call with an identifier, a name and arguments is read without inventing anything. -/
theorem ofJson_eq_pure {v arguments : Json} {id name : String} (hname : name? v = some name)
    (hid : id? v = some id) (harguments : ownOrNested? "arguments" v = some arguments) :
    ofJson v = pure ⟨id, name, decodeArguments arguments⟩ := by
  rw [ofJson, hname, hid, harguments]
  rfl

/-- A call is read back from its value, with its arguments decoded. -/
theorem ofJson_toJson (call : ToolCall) :
    ofJson call.toJson = pure ⟨call.id, call.name, decodeArguments call.arguments⟩ := by
  rw [toJson_eq]
  refine ofJson_eq_pure ?_ ?_ ?_
  · simp [name?, ownOrNested?, Json.field?, Fields.get?, Json.asStr?]
  · simp [id?, Json.field?, Fields.get?, Json.asStr?]
  · simp [ownOrNested?, Json.field?, Fields.get?]

/-- The arguments of a call that was read are decoded from what it brought. -/
theorem arguments_of_ofJson {v : Json} {call : ToolCall} {supply supply' : Supply}
    (h : (ofJson v).run.run supply = (.ok call, supply')) :
    call.arguments = decodeArguments ((ownOrNested? "arguments" v).getD (.obj [])) := by
  unfold ofJson at h
  split at h
  · exact absurd (Prod.mk.inj h).1 nofun
  · cases hid : id? v with
    | some id =>
      rw [hid] at h
      rw [← Except.ok.inj (Prod.mk.inj h).1]
    | none =>
      rw [hid] at h
      rw [← Except.ok.inj (Prod.mk.inj h).1]

-- ---------------------------------------------------------------------------
-- Decoding once more
-- ---------------------------------------------------------------------------

/-- Decoding finds something else in the string. -/
def IsEncoded (s : String) : Prop :=
  Text.allBlank s.toList = true ∨ ∃ v, Json.parse? s = some v

/-- The string holds null, or another string in which decoding finds something else. -/
def IsEncodedTwice (raw : String) : Prop :=
  Text.allBlank raw.toList = false ∧
    (Json.parse? raw = some .null ∨ ∃ s, Json.parse? raw = some (.str s) ∧ IsEncoded s)

theorem decodeArguments_obj (fields : Fields) : decodeArguments (.obj fields) = .obj fields := rfl

theorem decodeArguments_str (s : String) :
    decodeArguments (.str s) =
      if Text.allBlank s.toList then .obj [] else (Json.parse? s).getD (.str s) := rfl

theorem decodeArguments_str_eq_self_iff (s : String) :
    decodeArguments (.str s) = .str s ↔ ¬ IsEncoded s := by
  rw [decodeArguments_str, IsEncoded]
  split
  · next h => simp [h]
  · next h =>
    cases hparse : Json.parse? s with
    | none => simp [h]
    | some v =>
      -- a text is never the string that it holds
      have hne : v ≠ .str s := fun hv => Json.parse?_ne_str_self s (hv ▸ hparse)
      simpa using hne

/-- Arguments that decoding leaves as they are. -/
theorem decodeArguments_eq_self_iff (v : Json) :
    decodeArguments v = v ↔ v ≠ .null ∧ ∀ s, v = .str s → ¬ IsEncoded s := by
  cases v with
  | null => simp [decodeArguments]
  | str s => simp [decodeArguments_str_eq_self_iff]
  | bool | int | real | arr | obj => simp [decodeArguments]

/-- Decoded arguments are decoded again to themselves unless they were encoded twice. -/
theorem decodeArguments_idem_iff (v : Json) :
    decodeArguments (decodeArguments v) = decodeArguments v ↔
      ∀ raw, v = .str raw → ¬ IsEncodedTwice raw := by
  cases v with
  | null => simp [decodeArguments]
  | bool | int | real | arr | obj => simp [decodeArguments]
  | str raw =>
    rw [decodeArguments_eq_self_iff, decodeArguments_str]
    simp only [Json.str.injEq, forall_eq', IsEncodedTwice]
    split
    · next hblank => simp [hblank]
    · next hblank =>
      cases hparse : Json.parse? raw with
      | none => simp [IsEncoded, hblank, hparse]
      | some w => cases w <;> simp [hblank]

-- ---------------------------------------------------------------------------
-- Messages of calls
-- ---------------------------------------------------------------------------

/-- The message of a call that was read carries the call with its arguments decoded once more, and
that is the call itself exactly if its arguments were not encoded twice. -/
theorem toolCall_functionCall_iff {v : Json} {call : ToolCall} {supply supply' : Supply}
    (h : (ofJson v).run.run supply = (.ok call, supply')) :
    (Message.functionCall call).toolCall =
        pure ⟨call.id, call.name, decodeArguments call.arguments⟩ ∧
      ((Message.functionCall call).toolCall = pure call ↔
        ∀ raw, ownOrNested? "arguments" v = some (.str raw) → ¬ IsEncodedTwice raw) := by
  have hread : (Message.functionCall call).toolCall =
      pure ⟨call.id, call.name, decodeArguments call.arguments⟩ := ofJson_toJson call
  refine ⟨hread, ?_⟩
  have hcall : (⟨call.id, call.name, decodeArguments call.arguments⟩ : ToolCall) = call ↔
      decodeArguments call.arguments = call.arguments :=
    ⟨congrArg ToolCall.arguments, fun heq => by rw [heq]⟩
  rw [hread, Draw.pure_inj, hcall, arguments_of_ofJson h, decodeArguments_idem_iff]
  cases ownOrNested? "arguments" v with
  | none => simp
  | some arguments => simp

/-- Arguments encoded once. -/
theorem toolCall_functionCall_once :
    let v : Json := .object [("id", .str "c1"), ("name", .str "echo"), ("arguments", .str "[5]")]
    let call : ToolCall := ⟨"c1", "echo", .arr [.int 5]⟩
    let supply : Supply := { invented := 0 }
    (ofJson v).run.run supply = (.ok call, supply) ∧
      (Message.functionCall call).toolCall = pure call := by
  intro v call supply
  have harguments : ownOrNested? "arguments" v = some (.str "[5]") := by decide +kernel
  have hparse : Json.parse? "[5]" = some call.arguments := by decide +kernel
  have hread : ofJson v = pure ⟨"c1", "echo", decodeArguments (.str "[5]")⟩ :=
    ofJson_eq_pure (by decide +kernel) (by decide +kernel) harguments
  have hdecoded : decodeArguments (.str "[5]") = call.arguments := by decide +kernel
  have hrun : (ofJson v).run.run supply = (.ok call, supply) := by
    rw [hread, hdecoded]
    rfl
  refine ⟨hrun, (toolCall_functionCall_iff hrun).2.mpr fun raw hraw => ?_⟩
  obtain rfl : "[5]" = raw := by simpa [harguments] using hraw
  rintro ⟨-, hnull | ⟨s, hstr, -⟩⟩
  · exact absurd (hparse.symm.trans hnull) nofun
  · exact absurd (hparse.symm.trans hstr) nofun

/-- Arguments encoded twice: a tool is given the text of a number, and the message of the call
carries the number. -/
theorem toolCall_functionCall_ne :
    let v : Json := .object [("id", .str "c1"), ("name", .str "echo"), ("arguments", .str "\"5\"")]
    let call : ToolCall := ⟨"c1", "echo", .str "5"⟩
    ofJson v = pure call ∧
      (Message.functionCall call).toolCall = pure { call with arguments := .int 5 } ∧
      (Message.functionCall call).toolCall ≠ pure call := by
  intro v call
  have hdecoded : decodeArguments (.str "\"5\"") = .str "5" := by decide +kernel
  have hagain : decodeArguments (.str "5") = .int 5 := by decide +kernel
  have hread : ofJson v = pure ⟨"c1", "echo", decodeArguments (.str "\"5\"")⟩ :=
    ofJson_eq_pure (by decide +kernel) (by decide +kernel) (by decide +kernel)
  have hmessage : (Message.functionCall call).toolCall = pure ⟨"c1", "echo", .int 5⟩ :=
    (ofJson_toJson call).trans (by rw [hagain])
  refine ⟨by rw [hread, hdecoded], hmessage, fun heq => ?_⟩
  exact absurd (congrArg ToolCall.arguments (Draw.pure_inj.mp (hmessage.symm.trans heq))) nofun

end ToolCall

end Colloquy
