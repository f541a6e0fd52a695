import Mathlib.Data.List.Forall2
import Colloquy.Proofs.Markup.RoundTrip
import Colloquy.Proofs.Tool.Portable

/-!
# Colloquy — tool exchanges in print

The text of a JSON object is a line between braces, so it holds in brackets whatever its
strings say (`Markup.holdsInBrackets_render`), and a message with such a text reads back
from print. So the calls and results of a conversation are those of the conversation that
is printed and parsed again (`Markup.Scanner.parse_print_records`).

* `ToolRecord` — a call or a result, as a conversation records it.
* `ToolRecord.IsCarriedBy` — the message has the role of the record and is read as it.
-/

namespace Colloquy

/-- A call or a result, as a conversation records it. -/
inductive ToolRecord where
  | call (made : ToolCall)
  | result (outcome : ToolResult)

namespace ToolRecord

def role : ToolRecord → Role
  | .call _ => .functionCall
  | .result _ => .functionCallOutput

def toJson : ToolRecord → Json
  | .call made => made.toJson
  | .result outcome => outcome.toJson

/-- The message that records a call or a result. -/
def message : ToolRecord → Message
  | .call made => .functionCall made
  | .result outcome => .functionCallOutput outcome

/-- Any result is portable. -/
def IsPortable : ToolRecord → Prop
  | .call made => made.IsPortable
  | .result _ => True

/-- The message has the role of the record and is read as the record. -/
def IsCarriedBy : ToolRecord → Message → Prop
  | .call made, m => m.role = .functionCall ∧ m.toolCall = pure made
  | .result outcome, m => m.role = .functionCallOutput ∧ m.toolResult = .ok outcome

end ToolRecord

-- ---------------------------------------------------------------------------
-- Texts of objects
-- ---------------------------------------------------------------------------

namespace Markup

open Text

/-- A text ends in no pattern with another last character. -/
theorem isSuffixOf_concat_of_ne {c d : Char} (h : c ≠ d) (pat s : List Char) :
    (pat ++ [c]).isSuffixOf (s ++ [d]) = false := by
  rw [Bool.eq_false_iff, ne_eq, List.isSuffixOf_iff_suffix]
  rintro ⟨before, heq⟩
  have hlast := congrArg List.getLast? heq
  rw [← List.append_assoc, List.getLast?_concat, List.getLast?_concat] at hlast
  exact h (Option.some.inj hlast)

theorem trim_chars_obj (fields : Fields) :
    trim (Json.chars (.obj fields)) = Json.chars (.obj fields) := by
  obtain ⟨body, hbody⟩ := Json.exists_chars_obj fields
  rw [hbody]
  exact trim_of_ends (by decide) (by decide) body

/-- The text of an object is one line, which ends no brackets. -/
theorem holdsInBrackets_chars_obj {fields : Fields} (h : (Json.obj fields).Integral) :
    holdsInBrackets (Json.chars (.obj fields)) = true := by
  have hline := List.splitOn_eq_singleton (Json.newline_not_mem_chars h)
  have htrim := trim_chars_obj fields
  obtain ⟨body, hbody⟩ := Json.exists_chars_obj fields
  have hreturn : List.isSuffixOf ['\r'] (Json.chars (.obj fields)) = false := by
    rw [hbody]
    exact isSuffixOf_concat_of_ne (by decide) [] _
  have hbrackets : closesBracket (Json.chars (.obj fields)) = false := by
    rw [closesBracket, htrim, hbody]
    exact isSuffixOf_concat_of_ne (by decide) [']'] _
  rw [holdsInBrackets, hline]
  simp [hreturn, hbrackets]

theorem trimBlank_render_obj (fields : Fields) :
    trimBlank (Json.obj fields).render = (Json.obj fields).render := by
  rw [trimBlank, Json.render, String.toList_ofList, trim_chars_obj]

end Markup

-- ---------------------------------------------------------------------------
-- Messages of records
-- ---------------------------------------------------------------------------

namespace ToolRecord

theorem isKnown_role (r : ToolRecord) : r.role.isKnown = true := by
  cases r <;> rfl

theorem message_eq (r : ToolRecord) : r.message = ⟨r.role, .structured r.toJson⟩ := by
  cases r <;> rfl

theorem exists_toJson_eq_obj (r : ToolRecord) : ∃ fields, r.toJson = .obj fields := by
  cases r with
  | call made => exact ⟨_, made.toJson_eq⟩
  | result outcome => exact ⟨_, outcome.toJson_eq⟩

theorem text_message (r : ToolRecord) : r.message.text = r.toJson.render := by
  obtain ⟨fields, hfields⟩ := r.exists_toJson_eq_obj
  rw [message_eq, hfields]
  rfl

theorem IsPortable.integral {r : ToolRecord} (h : r.IsPortable) : r.toJson.Integral := by
  cases r with
  | call made => exact ToolCall.IsPortable.integral_toJson h
  | result outcome => exact outcome.integral_toJson

theorem IsPortable.parse?_render {r : ToolRecord} (h : r.IsPortable) :
    Json.parse? r.toJson.render = some r.toJson := by
  cases r with
  | call made => exact ToolCall.IsPortable.parse?_render h
  | result outcome => exact outcome.parse?_render

/-- A message whose content is the value of a record is read as the record. -/
theorem isCarriedBy_of_toJson {r : ToolRecord} (h : r.IsPortable) {m : Message}
    (hrole : m.role = r.role) (hcontent : m.content.toJson = r.toJson) : r.IsCarriedBy m := by
  cases r with
  | call made =>
    refine ⟨hrole, ?_⟩
    have hmade : made.IsPortable := h
    rw [Message.toolCall, hcontent]
    exact hmade.toolCall_functionCall
  | result outcome =>
    refine ⟨hrole, ?_⟩
    rw [Message.toolResult, hcontent]
    exact outcome.ofJson_toJson

/-- A message with the text of a record is read as the record. -/
theorem isCarriedBy_ofText {r : ToolRecord} (h : r.IsPortable) :
    r.IsCarriedBy (.ofText r.role (trimBlank r.toJson.render)) := by
  refine isCarriedBy_of_toJson h rfl ?_
  have htrim : trimBlank r.toJson.render = r.toJson.render := by
    obtain ⟨fields, hfields⟩ := r.exists_toJson_eq_obj
    rw [hfields, Markup.trimBlank_render_obj]
  have hread (t : String) : (Message.ofText r.role t).content.toJson =
      (Json.parse? (trimBlank t)).getD (.str t) := rfl
  rw [hread, htrim, htrim, h.parse?_render, Option.getD_some]

end ToolRecord

-- ---------------------------------------------------------------------------
-- Printing and parsing
-- ---------------------------------------------------------------------------

namespace Markup.Scanner

variable {scanner : Scanner}

/-- The message of a record keeps its text in brackets. -/
theorem keepsText_record {r : ToolRecord} (h : r.IsPortable) :
    scanner.keepsText r.message = true := by
  have hholds : holdsInBrackets r.message.text.toList = true := by
    have hintegral := h.integral
    obtain ⟨fields, hfields⟩ := r.exists_toJson_eq_obj
    rw [hfields] at hintegral
    rw [r.text_message, hfields, Json.render, String.toList_ofList,
      holdsInBrackets_chars_obj hintegral]
  rw [keepsText, hholds, Bool.or_true]

theorem readsBack_record {r : ToolRecord} (h : r.IsPortable) :
    scanner.readsBack (scanner.render r.message) r.message.role r.message.text = true := by
  have hheader : scanner.HasHeader r.message.role := by
    rw [r.message_eq]
    exact hasHeader_of_isKnown r.isKnown_role
  exact readsBack_render hheader (keepsText_record h)

/-- Calls and results that are printed as messages are read as themselves from what is parsed, each
in the place of its own. -/
theorem parse_print_records {records : List ToolRecord} (h : ∀ r ∈ records, r.IsPortable)
    (scanner : Scanner) (role : Role) :
    List.Forall₂ ToolRecord.IsCarriedBy records
      (scanner.parse (scanner.print (records.map ToolRecord.message)) role) := by
  have hback : ∀ m ∈ records.map ToolRecord.message,
      scanner.readsBack (scanner.render m) m.role m.text = true := by
    intro m hm
    obtain ⟨r, hr, rfl⟩ := List.mem_map.mp hm
    exact readsBack_record (h r hr)
  have hparsed : scanner.parse (scanner.print (records.map ToolRecord.message)) role =
      records.map fun r => .ofText r.role (trimBlank r.toJson.render) := by
    rw [parse_print_eq, result_run_printedLines hback rfl, List.map_map]
    refine List.map_congr_left fun r _ => ?_
    rw [Function.comp_apply, r.text_message, r.message_eq]
  rw [hparsed, List.forall₂_map_right_iff, List.forall₂_same]
  exact fun r hr => ToolRecord.isCarriedBy_ofText (h r hr)

/-- A call and a result full of marks, headers and line ends. -/
theorem parse_print_records_marks :
    let records : List ToolRecord :=
      [.call ⟨"[[", ":-- ls \x7b\x7b\x7b", .obj [("query", .str "```\nuser: <b>"), ("top", .int (-3))]⟩,
        .result ⟨"[[", " ]]\n\nclear:\r\n\t"⟩]
    (∀ r ∈ records, r.IsPortable) ∧
      List.Forall₂ ToolRecord.IsCarriedBy records
        (({} : Scanner).parse (({} : Scanner).print (records.map ToolRecord.message)) .user) := by
  intro records
  have h : ∀ r ∈ records, r.IsPortable := by
    rw [List.forall_mem_cons, List.forall_mem_singleton]
    refine ⟨{
      isObject := ⟨_, rfl⟩
      ordered := ⟨Fields.ascending_of_keys rfl (by decide), trivial, trivial, trivial⟩
      integral := ⟨trivial, show Json.FitsInteger (-3) by decide, trivial⟩
      depth_lt := by decide
    }, trivial⟩
  exact ⟨h, parse_print_records h {} .user⟩

end Markup.Scanner

end Colloquy
