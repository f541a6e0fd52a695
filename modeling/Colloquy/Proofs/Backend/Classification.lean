import Colloquy.Backend.Selection
import Colloquy.Proofs.Act

/-!
# Colloquy — replies made of typed items

Two dialects reply with a list of items that tell their types. An item is accepted if its
type is known and, where it calls a tool, the tool has a name (`TypedItems.Accepts`). What an
accepted item stands for is a list of messages and calls (`TypedItems.Stands`), and any other
item has an error (`TypedItems.Offends`). A reply is read if and only if all its items are
accepted, and is then what they stand for in their order; else the first item that is not
accepted decides how it fails (`BackendKind.parseReply_classifies`).
-/

namespace Colloquy

open Dialect

-- ---------------------------------------------------------------------------
-- Typed items
-- ---------------------------------------------------------------------------

/-- How a dialect lists typed items in a reply, and what it finds in them. -/
structure TypedItems where
  /-- The name of the backend. -/
  backend : String
  /-- The field of the list. -/
  listKey : String
  /-- The message about a reply without the list. -/
  noList : String
  textType : String
  callType : String
  /-- Types of items that are no part of the conversation. -/
  silentTypes : List String
  /-- What an item of the type of texts says. -/
  texts : Json → List String
  /-- The tool that an item calls. -/
  tool? : Json → Option String
  /-- The identifier of the call, if it has one. -/
  callId? : Json → Option String
  arguments : Json → Json
  /-- The error of a call without a tool. -/
  noTool : Json → Error

/-- The type of an item. One that tells none has the empty type. -/
def itemType (item : Json) : String :=
  (textField? "type" item).getD ""

namespace TypedItems

/-- The types that the dialect knows. -/
def types (typed : TypedItems) : List String :=
  typed.textType :: typed.callType :: typed.silentTypes

/-- The call of the tool that an item makes, under its identifier or else one that a random number
makes. -/
def call (typed : TypedItems) (item : Json) (tool : String) (random : BitVec 128) : ToolCall where
  id := (typed.callId? item).getD (callId random)
  name := tool
  arguments := typed.arguments item

/-- The item has a known type, and the tool that it calls has a name. -/
structure Accepts (typed : TypedItems) (item : Json) : Prop where
  known : itemType item ∈ typed.types
  named : itemType item = typed.callType → ∃ tool, typed.tool? item = some tool

/-- What an item that is accepted stands for: a message of the assistant for each of its texts, one
call, or nothing. -/
inductive Stands (typed : TypedItems) (item : Json) : List ReplyItem → Prop
  | texts (h : itemType item = typed.textType) :
      Stands typed item ((typed.texts item).map ReplyItem.text)
  | call {tool : String} (h : itemType item = typed.callType) (htool : typed.tool? item = some tool)
      (random : BitVec 128) : Stands typed item [.call (typed.call item tool random)]
  | silent (h : itemType item ∈ typed.silentTypes) : Stands typed item []

/-- The error of an item that is not accepted. -/
inductive Offends (typed : TypedItems) (item : Json) : Error → Prop
  | unknown (h : itemType item ∉ typed.types) :
      Offends typed item (unexpectedItem typed.backend (itemType item) item)
  | unnamed (h : itemType item = typed.callType) (htool : typed.tool? item = none) :
      Offends typed item (typed.noTool item)

variable {typed : TypedItems} {item : Json}

theorem accepts_iff : typed.Accepts item ↔ itemType item ∈ typed.types ∧
    (itemType item = typed.callType → (typed.tool? item).isSome = true) := by
  simp only [Option.isSome_iff_exists]
  exact ⟨fun h => ⟨h.known, h.named⟩, fun h => ⟨h.1, h.2⟩⟩

instance (typed : TypedItems) (item : Json) : Decidable (typed.Accepts item) :=
  decidable_of_iff' _ accepts_iff

theorem exists_offends (h : ¬ typed.Accepts item) : ∃ e, typed.Offends item e := by
  by_cases hknown : itemType item ∈ typed.types
  · -- a known type is not accepted only where a call has no tool
    by_contra hnone
    refine h ⟨hknown, fun hcall => Option.ne_none_iff_exists'.mp fun htool => ?_⟩
    exact hnone ⟨_, .unnamed hcall htool⟩
  · exact ⟨_, .unknown hknown⟩

/-- In a list of items all are accepted, or there is a first that is not. -/
theorem accepts_or_offends (typed : TypedItems) (items : List Json) :
    (∀ item ∈ items, typed.Accepts item) ∨
      ∃ before item after e, items = before ++ item :: after ∧
        (∀ x ∈ before, typed.Accepts x) ∧ typed.Offends item e := by
  induction items with
  | nil => exact Or.inl (List.forall_mem_nil _)
  | cons x rest ih =>
    by_cases hx : typed.Accepts x
    · rcases ih with hrest | ⟨before, item, after, e, rfl, hbefore, he⟩
      · exact Or.inl (List.forall_mem_cons.mpr ⟨hx, hrest⟩)
      · exact Or.inr ⟨x :: before, item, after, e, rfl,
          List.forall_mem_cons.mpr ⟨hx, hbefore⟩, he⟩
    · obtain ⟨e, he⟩ := exists_offends hx
      exact Or.inr ⟨[], x, rest, e, rfl, List.forall_mem_nil _, he⟩

-- ---------------------------------------------------------------------------
-- Reading items
-- ---------------------------------------------------------------------------

/-- Calls are read by the tools that they name. -/
structure ReadsCalls (typed : TypedItems) (readCall : Json → Draw ToolCall) : Prop where
  named : ∀ item tool, typed.tool? item = some tool →
    (readCall item).Makes fun made => ∃ random, made = typed.call item tool random
  unnamed : ∀ item, typed.tool? item = none → (readCall item).FailsIn (typed.noTool item)

/-- Read an item by its type. -/
def read (typed : TypedItems) (readCall : Json → Draw ToolCall) (item : Json) :
    Draw (List ReplyItem) :=
  if itemType item = typed.textType then pure ((typed.texts item).map ReplyItem.text)
  else if itemType item = typed.callType then do return [.call (← readCall item)]
  else if itemType item ∈ typed.silentTypes then pure []
  else throw (unexpectedItem typed.backend (itemType item) item)

variable {readCall : Json → Draw ToolCall}

/-- An item that is accepted is read as what it stands for. -/
theorem Accepts.makes_read (h : typed.Accepts item) (hcalls : typed.ReadsCalls readCall) :
    (typed.read readCall item).Makes (typed.Stands item) := by
  unfold read
  split
  · next htext => exact Draw.makes_pure (.texts htext)
  · next htext =>
    split
    · next hcall =>
      obtain ⟨tool, htool⟩ := h.named hcall
      refine (hcalls.named item tool htool).bind fun made hmade => ?_
      obtain ⟨random, rfl⟩ := hmade
      exact Draw.makes_pure (.call hcall htool random)
    · next hcall =>
      have hsilent : itemType item ∈ typed.silentTypes :=
        List.mem_of_ne_of_mem hcall (List.mem_of_ne_of_mem htext h.known)
      rw [if_pos hsilent]
      exact Draw.makes_pure (.silent hsilent)

/-- Any other item fails in its error. -/
theorem Offends.failsIn_read {e : Error} (h : typed.Offends item e)
    (hcalls : typed.ReadsCalls readCall) (hne : typed.callType ≠ typed.textType) :
    (typed.read readCall item).FailsIn e := by
  cases h with
  | unknown hunknown =>
    obtain ⟨htext, hcall, hsilent⟩ : itemType item ≠ typed.textType ∧
        itemType item ≠ typed.callType ∧ itemType item ∉ typed.silentTypes := by
      simpa [types] using hunknown
    rw [read, if_neg htext, if_neg hcall, if_neg hsilent]
    exact Draw.failsIn_throw _
  | unnamed hcall htool =>
    rw [read, if_neg (by rwa [hcall]), if_pos hcall]
    exact (hcalls.unnamed item htool).bind _

/-- Replies are read item by item, and fail without a list of items. -/
structure Governs (typed : TypedItems) (readCall : Json → Draw ToolCall)
    (handle? : Json → Option String) (parse : Json → Draw Reply) : Prop where
  calls : typed.ReadsCalls readCall
  distinct : typed.callType ≠ typed.textType
  parse_of_some : ∀ {body listed}, itemsField? typed.listKey body = some listed →
    parse body = do
      return { items := ← Draw.gather (typed.read readCall) listed, handle? := handle? body }
  parse_of_none : ∀ {body}, itemsField? typed.listKey body = none →
    parse body = throw (.vendorProtocol typed.backend typed.noList (some body))

namespace Governs

variable {handle? : Json → Option String} {parse : Json → Draw Reply} {body : Json}

/-- A reply whose items are all accepted is what they stand for. -/
theorem makes_reply (h : typed.Governs readCall handle? parse) {listed : List Json}
    (hlisted : itemsField? typed.listKey body = some listed)
    (haccepted : ∀ item ∈ listed, typed.Accepts item) :
    (parse body).Makes fun reply =>
      ∃ parts, List.Forall₂ typed.Stands listed parts ∧ reply.items = parts.flatten := by
  rw [h.parse_of_some hlisted]
  have hitems := Draw.makes_gather fun item hitem => (haccepted item hitem).makes_read h.calls
  exact hitems.bind fun items hitems => Draw.makes_pure hitems

/-- The first item that is not accepted decides how the reply fails. -/
theorem failsIn_reply (h : typed.Governs readCall handle? parse) {before after : List Json}
    {e : Error} (hlisted : itemsField? typed.listKey body = some (before ++ item :: after))
    (hbefore : ∀ x ∈ before, typed.Accepts x) (he : typed.Offends item e) :
    (parse body).FailsIn e := by
  rw [h.parse_of_some hlisted]
  have hitems : (Draw.gather (typed.read readCall) (before ++ item :: after)).FailsIn e :=
    Draw.failsIn_gather (fun x hx => (hbefore x hx).makes_read h.calls)
      (he.failsIn_read h.calls h.distinct)
  exact hitems.bind _

theorem failsIn_of_none (h : typed.Governs readCall handle? parse)
    (hnone : itemsField? typed.listKey body = none) :
    (parse body).FailsIn (.vendorProtocol typed.backend typed.noList (some body)) := by
  rw [h.parse_of_none hnone]
  exact Draw.failsIn_throw _

variable {σ : Type}

/-- A reply comes out in one of three ways. -/
theorem outcome_cases (h : typed.Governs readCall handle? parse) (body : Json) (w : World σ) :
    let outcome := ((Act.ofDraw (parse body) : Act σ Reply).perform w).1
    (itemsField? typed.listKey body = none ∧
        outcome = .error (.error (.vendorProtocol typed.backend typed.noList (some body)))) ∨
      (∃ listed reply parts, itemsField? typed.listKey body = some listed ∧
        (∀ item ∈ listed, typed.Accepts item) ∧ outcome = .ok reply ∧
        List.Forall₂ typed.Stands listed parts ∧ reply.items = parts.flatten) ∨
      ∃ before item after e, itemsField? typed.listKey body = some (before ++ item :: after) ∧
        (∀ x ∈ before, typed.Accepts x) ∧ typed.Offends item e ∧
        outcome = .error (.error e) := by
  cases hlisted : itemsField? typed.listKey body with
  | none => exact Or.inl ⟨rfl, (h.failsIn_of_none hlisted).perform_ofDraw w⟩
  | some listed =>
    rcases typed.accepts_or_offends listed with hall | ⟨before, item, after, e, rfl, hbefore, he⟩
    · obtain ⟨reply, hreply, parts, hparts, hitems⟩ :=
        (h.makes_reply hlisted hall).perform_ofDraw w
      exact Or.inr (Or.inl ⟨listed, reply, parts, rfl, hall, hreply, hparts, hitems⟩)
    · have hfails := (h.failsIn_reply hlisted hbefore he).perform_ofDraw w
      exact Or.inr (Or.inr ⟨before, item, after, e, rfl, hbefore, he, hfails⟩)

/-- What is read are the items of a list of which all are accepted. -/
theorem of_ok (h : typed.Governs readCall handle? parse) {w : World σ} {reply : Reply}
    (hreply : ((Act.ofDraw (parse body) : Act σ Reply).perform w).1 = .ok reply) :
    ∃ listed parts, itemsField? typed.listKey body = some listed ∧
      (∀ item ∈ listed, typed.Accepts item) ∧
      List.Forall₂ typed.Stands listed parts ∧ reply.items = parts.flatten := by
  rcases h.outcome_cases body w with ⟨-, hf⟩ |
    ⟨listed, read, parts, hlisted, hall, hread, hparts, hitems⟩ | ⟨_, _, _, _, -, -, -, hf⟩
  · exact absurd (hf.symm.trans hreply) nofun
  · obtain rfl := Except.ok.inj (hread.symm.trans hreply)
    exact ⟨listed, parts, hlisted, hall, hparts, hitems⟩
  · exact absurd (hf.symm.trans hreply) nofun

/-- A reply fails for want of a list, or in the error of the first item that is not accepted. -/
theorem error_iff (h : typed.Governs readCall handle? parse) {w : World σ} {f : Failure} :
    ((Act.ofDraw (parse body) : Act σ Reply).perform w).1 = .error f ↔
      itemsField? typed.listKey body = none ∧
          f = .error (.vendorProtocol typed.backend typed.noList (some body)) ∨
        ∃ before item after e, itemsField? typed.listKey body = some (before ++ item :: after) ∧
          (∀ x ∈ before, typed.Accepts x) ∧ typed.Offends item e ∧ f = .error e := by
  constructor
  · intro hf
    rcases h.outcome_cases body w with ⟨hnone, hnolist⟩ | ⟨-, read, -, -, -, hread, -, -⟩ |
      ⟨before, item, after, e, hlisted, hbefore, he, hfails⟩
    · exact Or.inl ⟨hnone, Except.error.inj (hf.symm.trans hnolist)⟩
    · exact absurd (hf.symm.trans hread) nofun
    · exact Or.inr ⟨before, item, after, e, hlisted, hbefore, he,
        Except.error.inj (hf.symm.trans hfails)⟩
  · rintro (⟨hnone, rfl⟩ | ⟨before, item, after, e, hlisted, hbefore, he, rfl⟩)
    · exact (h.failsIn_of_none hnone).perform_ofDraw w
    · exact (h.failsIn_reply hlisted hbefore he).perform_ofDraw w

end Governs

end TypedItems

-- ---------------------------------------------------------------------------
-- Items of each dialect
-- ---------------------------------------------------------------------------

/-- What is made with an identifier that is found or else invented. -/
theorem Draw.makes_identified {α : Type} (id? : Option String) (make : String → α) :
    Draw.Makes (fun a => ∃ random, a = make (id?.getD (Colloquy.callId random)))
      (do
        let id ← match id? with
          | some id => pure id
          | none => Draw.callId
        return make id) := by
  cases id? with
  | some id => exact makes_pure ⟨0, rfl⟩
  | none =>
    refine makes_callId.bind fun id hid => ?_
    obtain ⟨random, rfl⟩ := hid
    exact makes_pure ⟨random, rfl⟩

namespace Responses

/-- What a part of a message says or refuses to say. -/
def partText? (part : Json) : Option String :=
  if textField? "type" part = some "output_text" then some ((textField? "text" part).getD "")
  else if textField? "type" part = some "refusal" then
    some ((textField? "refusal" part).getD "")
  else none

def typedItems : TypedItems where
  backend := name
  listKey := "output"
  noList := "response has no output"
  textType := "message"
  callType := "function_call"
  silentTypes := silentTypes
  texts item := ((itemsField? "content" item).getD []).filterMap partText?
  tool? := ToolCall.name?
  callId? := ToolCall.id?
  arguments item :=
    ToolCall.decodeArguments ((ToolCall.ownOrNested? "arguments" item).getD (.obj []))
  noTool _ := .directive "function_call" "missing function name"

theorem partItems_eq (part : Json) :
    partItems part = (partText? part).toList.map ReplyItem.text := by
  unfold partItems partText?
  split
  · next h => simp [h]
  · next h => simp [h]
  · next hnoText hnoRefusal => rw [if_neg hnoText, if_neg hnoRefusal]; rfl

theorem flatMap_partItems (parts : List Json) :
    parts.flatMap partItems = (parts.filterMap partText?).map ReplyItem.text := by
  induction parts with
  | nil => rfl
  | cons part parts ih =>
    rw [List.flatMap_cons, ih, partItems_eq, List.filterMap_cons]
    cases partText? part <;> rfl

theorem outputItems_eq (item : Json) : outputItems item = typedItems.read ToolCall.ofJson item := by
  unfold outputItems TypedItems.read
  simp only [beq_iff_eq, List.contains_iff_mem, flatMap_partItems]
  rfl

theorem readsCalls : typedItems.ReadsCalls ToolCall.ofJson where
  named item tool h := by
    have htool : ToolCall.name? item = some tool := h
    rw [ToolCall.ofJson, htool]
    exact Draw.makes_identified (ToolCall.id? item) _
  unnamed item h := by
    have htool : ToolCall.name? item = none := h
    rw [ToolCall.ofJson, htool]
    exact Draw.failsIn_throw _

theorem governs : typedItems.Governs ToolCall.ofJson (textField? "id") parseReply where
  calls := readsCalls
  distinct := by decide
  parse_of_some {body listed} h := by
    have hlisted : itemsField? "output" body = some listed := h
    rw [parseReply, hlisted, funext outputItems_eq]
  parse_of_none {body} h := by
    have hlisted : itemsField? "output" body = none := h
    rw [parseReply, hlisted]
    rfl

end Responses

namespace Anthropic

def typedItems : TypedItems where
  backend := name
  listKey := "content"
  noList := "response has no content"
  textType := "text"
  callType := "tool_use"
  silentTypes := silentTypes
  texts block := [(textField? "text" block).getD ""]
  tool? := textField? "name"
  callId? := textField? "id"
  arguments block := (block.field? "input").getD (.obj [])
  noTool block := .vendorProtocol name "tool_use without a name" (some block)

theorem blockItems_eq (block : Json) : blockItems block = typedItems.read blockCall block := by
  unfold blockItems TypedItems.read
  simp only [beq_iff_eq, List.contains_iff_mem]
  rfl

theorem readsCalls : typedItems.ReadsCalls blockCall where
  named block tool h := by
    have htool : textField? "name" block = some tool := h
    rw [blockCall, htool]
    exact Draw.makes_identified (textField? "id" block) _
  unnamed block h := by
    have htool : textField? "name" block = none := h
    rw [blockCall, htool]
    exact Draw.failsIn_throw _

theorem governs : typedItems.Governs blockCall (fun _ => none) parseReply where
  calls := readsCalls
  distinct := by decide
  parse_of_some {body listed} h := by
    have hlisted : itemsField? "content" body = some listed := h
    rw [parseReply, hlisted, funext blockItems_eq]
  parse_of_none {body} h := by
    have hlisted : itemsField? "content" body = none := h
    rw [parseReply, hlisted]
    rfl

end Anthropic

-- ---------------------------------------------------------------------------
-- Classified replies
-- ---------------------------------------------------------------------------

namespace BackendKind

/-- The items of replies, in the dialects that tell their types. -/
def typedItems? : BackendKind → Option TypedItems
  | .responses => some Responses.typedItems
  | .anthropic => some Anthropic.typedItems
  | .openAi | .openWebUi | .vllm | .ollama => none

theorem governs_parseReply {kind : BackendKind} {typed : TypedItems}
    (h : kind.typedItems? = some typed) :
    ∃ readCall handle?, typed.Governs readCall handle? kind.parseReply := by
  cases kind with
  | responses =>
    obtain rfl := Option.some.inj h
    exact ⟨_, _, Responses.governs⟩
  | anthropic =>
    obtain rfl := Option.some.inj h
    exact ⟨_, _, Anthropic.governs⟩
  | openAi | openWebUi | vllm | ollama => exact absurd h nofun

variable {σ : Type}

/-- A reply of typed items is read if and only if it lists items and all of them are accepted; what
is read is what the items stand for, in their order. Else it fails for want of a list, or in the
error of the first item that is not accepted; if that item has an unknown type the error breaks the
protocol and the item is its payload. -/
theorem parseReply_classifies {kind : BackendKind} {typed : TypedItems}
    (hkind : kind.typedItems? = some typed) (files : FileTree) (transport : Transport σ)
    (body : Json) (w : World σ) :
    let outcome := (((kind.backend files transport).parseReply body).perform w).1
    ((∃ reply, outcome = .ok reply) ↔
      ∃ listed, itemsField? typed.listKey body = some listed ∧
        ∀ item ∈ listed, typed.Accepts item) ∧
    (∀ reply, outcome = .ok reply →
      ∃ listed parts, itemsField? typed.listKey body = some listed ∧
        List.Forall₂ typed.Stands listed parts ∧ reply.items = parts.flatten) ∧
    (∀ f, outcome = .error f ↔
      itemsField? typed.listKey body = none ∧
          f = .error (.vendorProtocol typed.backend typed.noList (some body)) ∨
        ∃ before item after e, itemsField? typed.listKey body = some (before ++ item :: after) ∧
          (∀ x ∈ before, typed.Accepts x) ∧ typed.Offends item e ∧ f = .error e) ∧
    ∀ before item after, itemsField? typed.listKey body = some (before ++ item :: after) →
      (∀ x ∈ before, typed.Accepts x) → itemType item ∉ typed.types →
        ∃ message, outcome = .error (.error (.vendorProtocol typed.backend message (some item))) := by
  intro outcome
  obtain ⟨readCall, handle?, hgoverns⟩ := governs_parseReply hkind
  refine ⟨⟨?_, ?_⟩, ?_, fun f => hgoverns.error_iff, ?_⟩
  · rintro ⟨reply, hreply⟩
    obtain ⟨listed, -, hlisted, hall, -, -⟩ := hgoverns.of_ok hreply
    exact ⟨listed, hlisted, hall⟩
  · rintro ⟨listed, hlisted, hall⟩
    obtain ⟨reply, hreply, -⟩ := (hgoverns.makes_reply hlisted hall).perform_ofDraw w
    exact ⟨reply, hreply⟩
  · intro reply hreply
    obtain ⟨listed, parts, hlisted, -, hparts, hitems⟩ := hgoverns.of_ok hreply
    exact ⟨listed, parts, hlisted, hparts, hitems⟩
  · intro before item after hlisted hbefore hunknown
    have hfails := hgoverns.failsIn_reply hlisted hbefore (.unknown hunknown)
    exact ⟨_, hfails.perform_ofDraw w⟩

/-- A reply with items of all kinds, and one that goes on after an item of an unknown type. -/
theorem parseReply_classifies_mixed :
    let said := Json.object [("type", .str "output_text"), ("text", .str "Checking.")]
    let refused := Json.object [("type", .str "refusal"), ("refusal", .str "Not that.")]
    let thought := Json.object [("type", .str "reasoning")]
    let message := Json.object [("type", .str "message"), ("content", .arr [said, refused])]
    let call := Json.object
      [("type", .str "function_call"), ("name", .str "lookup"), ("arguments", .str "")]
    let block := Json.object [("type", .str "text"), ("text", .str "Checking.")]
    let mystery := Json.object [("type", .str "mystery")]
    let unnamed := Json.object [("type", .str "tool_use")]
    let transport : Transport Unit := ⟨fun _ _ _ _ => pure .timedOut⟩
    let outcome (kind : BackendKind) (body : Json) :=
      (((kind.backend .empty transport).parseReply body).perform (.start ())).1
    responses.typedItems? = some Responses.typedItems ∧
    anthropic.typedItems? = some Anthropic.typedItems ∧
    (∃ reply, outcome responses (.object [("output", .arr [thought, message, call])]) = .ok reply ∧
      ∃ parts, List.Forall₂ Responses.typedItems.Stands [thought, message, call] parts ∧
        reply.items = parts.flatten) ∧
    ∃ text, outcome anthropic (.object [("content", .arr [block, mystery, unnamed])]) =
      .error (.error (.vendorProtocol Anthropic.name text (some mystery))) := by
  intro said refused thought message call block mystery unnamed transport outcome
  have hresponses : responses.typedItems? = some Responses.typedItems := rfl
  have hanthropic : anthropic.typedItems? = some Anthropic.typedItems := rfl
  have hlisted : itemsField? "output" (.object [("output", .arr [thought, message, call])]) =
      some [thought, message, call] := rfl
  obtain ⟨hread, hstands, -⟩ := parseReply_classifies hresponses .empty transport
    (.object [("output", .arr [thought, message, call])]) (.start ())
  obtain ⟨-, -, -, hunknown⟩ := parseReply_classifies hanthropic .empty transport
    (.object [("content", .arr [block, mystery, unnamed])]) (.start ())
  obtain ⟨reply, hreply⟩ := hread.mpr ⟨_, hlisted, by decide +kernel⟩
  obtain ⟨listed, parts, hsome, hparts, hitems⟩ := hstands reply hreply
  obtain rfl := Option.some.inj (hlisted.symm.trans hsome)
  exact ⟨hresponses, hanthropic, ⟨reply, hreply, parts, hparts, hitems⟩,
    hunknown [block] mystery [unnamed] rfl (by decide +kernel) (by decide +kernel)⟩

end BackendKind

end Colloquy
