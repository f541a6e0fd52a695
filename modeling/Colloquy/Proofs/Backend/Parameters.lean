import Colloquy.Backend.Selection
import Colloquy.Proofs.Act
import Colloquy.Proofs.RunOptions.Lookup

/-!
# Colloquy — parameters of the vendor

Options that are not used here are parameters of the vendor. Without them a request has the
fields that its dialect fills from the client, the messages, the tools and the other options.
Chat completions and responses put the parameters underneath these fields, Ollama puts them
into a field of their own, and Anthropic puts them over the fields. So it is in Anthropic's
dialect alone that a parameter can take the place of what the conversation became
(`BackendKind.formatRequest_keeps_iff`).

* `RunOptions.withoutParameters` — the options without the parameters.
* `BackendKind.insertParameters` — where a dialect puts the parameters.
-/

namespace Colloquy

-- ---------------------------------------------------------------------------
-- Options without parameters
-- ---------------------------------------------------------------------------

namespace RunOptions

/-- The options that are not handed to a backend. -/
def withoutParameters (o : RunOptions) : RunOptions :=
  { o with values := o.values.filter fun field => controlKeys.contains field.1 }

/-- What is handed to a backend under a key; of several values the last. -/
def parameter? (o : RunOptions) (key : String) : Option Json :=
  Fields.get? key (.ofList o.vendorParameters)

theorem vendorParameters_withoutParameters (o : RunOptions) :
    o.withoutParameters.vendorParameters = [] := by
  simp [vendorParameters, withoutParameters, List.filter_filter]

theorem get?_withoutParameters {key : String} (h : controlKeys.contains key = true)
    (o : RunOptions) : o.withoutParameters.get? key = o.get? key := by
  have hfilter := Fields.get?_filter controlKeys.contains key o.values
  rw [if_pos h] at hfilter
  exact hfilter

theorem format?_withoutParameters (o : RunOptions) : o.withoutParameters.format? = o.format? :=
  get?_withoutParameters (by decide) o

theorem previousResponseId?_withoutParameters (o : RunOptions) :
    o.withoutParameters.previousResponseId? = o.previousResponseId? := by
  simp only [previousResponseId?, getStr?]
  rw [get?_withoutParameters (by decide)]

theorem flag_withoutParameters {key : String} (h : controlKeys.contains key = true)
    (o : RunOptions) : o.withoutParameters.flag key = o.flag key := by
  rw [flag, get?_withoutParameters h, flag]

theorem parameter?_eq (o : RunOptions) (key : String) :
    o.parameter? key = Fields.get? key o.vendorParameters.reverse :=
  Fields.get?_ofList ..

/-- No parameter has the name of an option that is used here. -/
theorem not_control_of_parameter? {o : RunOptions} {key : String} {v : Json}
    (h : o.parameter? key = some v) : controlKeys.contains key = false := by
  rw [parameter?_eq] at h
  have hmem : (key, v) ∈ o.vendorParameters := List.mem_reverse.mp (Fields.mem_of_get? h)
  simpa [vendorParameters] using (List.mem_filter.mp hmem).2

end RunOptions

-- ---------------------------------------------------------------------------
-- What dialects fill
-- ---------------------------------------------------------------------------

/-- All keys that have a value are among some. -/
def Fields.KeysIn (keys : List String) (fields : Fields) : Prop :=
  ∀ key v, Fields.get? key fields = some v → key ∈ keys

theorem Fields.keysIn_ofList {keys : List String} {pairs : List (String × Json)}
    (h : ∀ pair ∈ pairs, pair.1 ∈ keys) : KeysIn keys (.ofList pairs) := by
  intro key v hget
  rw [get?_ofList] at hget
  exact h _ (List.mem_reverse.mp (mem_of_get? hget))

namespace Dialect

theorem wantsSearch_withoutParameters (messages : List Message) (options : RunOptions) :
    wantsSearch messages options.withoutParameters = wantsSearch messages options := by
  rw [wantsSearch, RunOptions.flag_withoutParameters (by decide), wantsSearch]

variable {keys : List String} {key : String}

theorem forall_mem_listField (h : key ∈ keys) (items : List Json) :
    ∀ pair ∈ listField key items, pair.1 ∈ keys := by
  unfold listField
  split
  · exact List.forall_mem_nil _
  · exact List.forall_mem_singleton.mpr h

theorem forall_mem_optional {α : Type} (h : key ∈ keys) (o : Option α) (f : α → Json) :
    ∀ pair ∈ o.toList.map fun v => (key, f v), pair.1 ∈ keys := by
  cases o with
  | none => exact List.forall_mem_nil _
  | some v => exact List.forall_mem_singleton.mpr h

/-- A request has fields that the dialect fills, under some keys, without the parameters of the
vendor, and the same fields with the parameters put into them otherwise. -/
structure Fills (keys : List String) (insert : Fields → Fields) (path : String)
    (own : Draw Fields) (plain made : Draw VendorRequest) : Prop where
  keysIn : own.Gives (Fields.KeysIn keys)
  plain_eq : plain = own >>= fun body => pure ⟨path, .obj body⟩
  made_eq : made = own >>= fun body => pure ⟨path, .obj (insert body)⟩

/-- The fields are filled from what the messages become. -/
theorem Fills.of_fields {α : Type} {insert : Fields → Fields} {path : String}
    (encoded : Draw α) (fields : α → List (String × Json)) {plain made : Draw VendorRequest}
    (hkeys : ∀ sent, ∀ pair ∈ fields sent, pair.1 ∈ keys)
    (hplain : plain = encoded >>= fun sent => pure ⟨path, .obj (Fields.ofList (fields sent))⟩)
    (hmade : made = encoded >>= fun sent =>
      pure ⟨path, .obj (insert (.ofList (fields sent)))⟩) :
    Fills keys insert path (encoded >>= fun sent => pure (.ofList (fields sent))) plain made where
  keysIn := (Draw.gives_true encoded).bind fun sent _ =>
    Draw.gives_pure (Fields.keysIn_ofList (hkeys sent))
  plain_eq := by
    rw [hplain, bind_assoc]
    simp only [pure_bind]
  made_eq := by
    rw [hmade, bind_assoc]
    simp only [pure_bind]

end Dialect

open Dialect

variable {σ : Type}

namespace ChatCompletions

/-- Parameters are put underneath the fields. -/
theorem fills (files : FileTree) (client : Client) (messages : List Message)
    (catalogue : Catalogue σ) (options : RunOptions) :
    ∃ own, Fills ["model", "messages", "tools", "response_format"]
      (fun body => body.insertNewAll options.vendorParameters) "chat/completions" own
      (request files client messages catalogue options.withoutParameters)
      (request files client messages catalogue options) := by
  refine ⟨_, .of_fields (Draw.gather (encodeMessage files) messages) _ (fun sent => ?_) ?_ rfl⟩
  · refine List.forall_mem_append.mpr ⟨List.forall_mem_append.mpr ⟨?_, ?_⟩, ?_⟩
    · simp
    · exact forall_mem_listField (by decide) _
    · exact forall_mem_optional (by decide) _ _
  · simp only [request, bodyFields, options.format?_withoutParameters,
      options.vendorParameters_withoutParameters]
    rfl

end ChatCompletions

namespace Responses

/-- Parameters are put underneath the fields. -/
theorem fills (files : FileTree) (client : Client) (messages : List Message)
    (catalogue : Catalogue σ) (options : RunOptions) :
    ∃ own, Fills ["model", "input", "tools", "previous_response_id", "text"]
      (fun body => body.insertNewAll options.vendorParameters) "responses" own
      (request files client messages catalogue options.withoutParameters)
      (request files client messages catalogue options) := by
  refine ⟨_, .of_fields (Draw.gather (encodeMessage files) messages) _ (fun sent => ?_) ?_ rfl⟩
  · refine List.forall_mem_append.mpr ⟨List.forall_mem_append.mpr
      ⟨List.forall_mem_append.mpr ⟨?_, ?_⟩, ?_⟩, ?_⟩
    · simp
    · exact forall_mem_listField (by decide) _
    · exact forall_mem_optional (by decide) _ _
    · exact forall_mem_optional (by decide) _ _
  · simp only [request, bodyFields, options.format?_withoutParameters,
      options.previousResponseId?_withoutParameters, wantsSearch_withoutParameters,
      options.vendorParameters_withoutParameters]
    rfl

end Responses

namespace Anthropic

theorem forall_mem_systemField {keys : List String} (h : "system" ∈ keys)
    (messages : List Message) : ∀ pair ∈ systemField messages, pair.1 ∈ keys := by
  unfold systemField
  split
  · exact List.forall_mem_nil _
  · exact List.forall_mem_singleton.mpr h

/-- Parameters are put over the fields. -/
theorem fills (files : FileTree) (client : Client) (messages : List Message)
    (catalogue : Catalogue σ) (options : RunOptions) :
    ∃ own, Fills ["model", "messages", "max_tokens", "system", "tools"]
      (fun body => body.insertAll options.vendorParameters) "messages" own
      (request files client messages catalogue options.withoutParameters)
      (request files client messages catalogue options) := by
  refine ⟨_, .of_fields (Draw.gather (encodeMessage files) messages) _ (fun sent => ?_) ?_ rfl⟩
  · refine List.forall_mem_append.mpr ⟨List.forall_mem_append.mpr ⟨?_, ?_⟩, ?_⟩
    · simp
    · exact forall_mem_systemField (by decide) _
    · exact forall_mem_listField (by decide) _
  · simp only [request, bodyFields, wantsSearch_withoutParameters,
      options.vendorParameters_withoutParameters]
    rfl

end Anthropic

namespace Ollama

/-- The fields of a request beside the one of the parameters. -/
def plainFields (client : Client) (sent : List Json) (catalogue : Catalogue σ)
    (options : RunOptions) : List (String × Json) :=
  [("model", .str client.model), ("messages", .arr sent), ("stream", .bool false)] ++
    listField "tools" (toolDefinitions catalogue) ++
    (options.format?.toList.map fun v => ("format", (AnswerFormat.ofOption v).forOllama))

theorem plainFields_withoutParameters (client : Client) (sent : List Json)
    (catalogue : Catalogue σ) (options : RunOptions) :
    plainFields client sent catalogue options.withoutParameters =
      plainFields client sent catalogue options := by
  rw [plainFields, options.format?_withoutParameters, plainFields]

/-- The field of parameters is put in last, if there are any. -/
theorem bodyFields_eq (client : Client) (sent : List Json) (catalogue : Catalogue σ)
    (options : RunOptions) :
    bodyFields client sent catalogue options =
      if options.vendorParameters.isEmpty then .ofList (plainFields client sent catalogue options)
      else (Fields.ofList (plainFields client sent catalogue options)).insert "options"
        (.obj options.vendorParameters) := by
  show Fields.ofList (plainFields client sent catalogue options ++ parametersField options) = _
  rw [Fields.ofList_append, parametersField]
  cases options.vendorParameters with
  | nil => rfl
  | cons parameter parameters => rfl

/-- Parameters are put into a field of their own. -/
theorem fills (files : FileTree) (client : Client) (messages : List Message)
    (catalogue : Catalogue σ) (options : RunOptions) :
    ∃ own, Fills ["model", "messages", "stream", "tools", "format"]
      (fun body =>
        if options.vendorParameters.isEmpty then body
        else body.insert "options" (.obj options.vendorParameters))
      "api/chat" own
      (request files client messages catalogue options.withoutParameters)
      (request files client messages catalogue options) := by
  refine ⟨_, .of_fields (encodeMessages files [] messages)
    (fun sent => plainFields client sent catalogue options) (fun sent => ?_) ?_ ?_⟩
  · refine List.forall_mem_append.mpr ⟨List.forall_mem_append.mpr ⟨?_, ?_⟩, ?_⟩
    · simp
    · exact forall_mem_listField (by decide) _
    · exact forall_mem_optional (by decide) _ _
  · simp only [request, bodyFields_eq, plainFields_withoutParameters,
      options.vendorParameters_withoutParameters]
    rfl
  · simp only [request, bodyFields_eq]

end Ollama

-- ---------------------------------------------------------------------------
-- Requests of all kinds
-- ---------------------------------------------------------------------------

namespace BackendKind

/-- The keys under which a dialect fills fields of its own. -/
def ownKeys : BackendKind → List String
  | .openAi | .openWebUi | .vllm => ["model", "messages", "tools", "response_format"]
  | .responses => ["model", "input", "tools", "previous_response_id", "text"]
  | .anthropic => ["model", "messages", "max_tokens", "system", "tools"]
  | .ollama => ["model", "messages", "stream", "tools", "format"]

/-- The fields of a request with the parameters put where the dialect puts them: underneath, over
the others, or together into a field of their own. -/
def insertParameters (kind : BackendKind) (parameters body : Fields) : Fields :=
  match kind with
  | .openAi | .openWebUi | .vllm | .responses => body.insertNewAll parameters
  | .anthropic => body.insertAll parameters
  | .ollama => if parameters.isEmpty then body else body.insert "options" (.obj parameters)

theorem fills (kind : BackendKind) (files : FileTree) (client : Client) (messages : List Message)
    (catalogue : Catalogue σ) (options : RunOptions) :
    ∃ path own, Fills kind.ownKeys (kind.insertParameters options.vendorParameters) path own
      (kind.request files client messages catalogue options.withoutParameters)
      (kind.request files client messages catalogue options) := by
  cases kind with
  | openAi | openWebUi | vllm =>
    exact ⟨_, ChatCompletions.fills files client messages catalogue options⟩
  | responses => exact ⟨_, Responses.fills files client messages catalogue options⟩
  | anthropic => exact ⟨_, Anthropic.fills files client messages catalogue options⟩
  | ollama => exact ⟨_, Ollama.fills files client messages catalogue options⟩

variable {files : FileTree} {transport : Transport σ} {client : Client} {messages : List Message}
  {catalogue : Catalogue σ} {options : RunOptions} {w w' : World σ} {made : VendorRequest}

/-- Where a request can be made, it can be made without the parameters, and they are put into the
fields that it then has. -/
theorem exists_plain {kind : BackendKind}
    (h : ((kind.backend files transport).formatRequest client messages catalogue options).perform w
      = (.ok made, w')) :
    ∃ path body, Fields.KeysIn kind.ownKeys body ∧
      ((kind.backend files transport).formatRequest client messages catalogue
        options.withoutParameters).perform w = (.ok ⟨path, .obj body⟩, w') ∧
      made = ⟨path, .obj (kind.insertParameters options.vendorParameters body)⟩ := by
  obtain ⟨path, own, hfills⟩ := kind.fills files client messages catalogue options
  have hmade : (Act.ofDraw (kind.request files client messages catalogue options)).perform w =
      (.ok made, w') := h
  rw [hfills.made_eq, Act.perform_ofDraw_bind_pure] at hmade
  obtain ⟨hresult, hworld⟩ := Prod.mk.inj hmade
  obtain ⟨body, hbody, rfl⟩ := exists_of_map_eq_ok hresult
  have hown : (Act.ofDraw own : Act σ Fields).perform w = (.ok body, w') := Prod.ext hbody hworld
  have hkeys := (Act.ensures_ofDraw hfills.keysIn).of_ok hown
  refine ⟨path, body, hkeys, ?_, rfl⟩
  show (Act.ofDraw (kind.request files client messages catalogue
    options.withoutParameters)).perform w = _
  rw [hfills.plain_eq, Act.perform_ofDraw_bind_pure, hown]
  rfl

/-- A field of a request is one that was there before the parameters, or one of them, or the field
that holds them all. -/
theorem get?_insertParameters_cases {kind : BackendKind} {parameters body : Fields} {key : String}
    {v : Json} (h : Fields.get? key (kind.insertParameters parameters body) = some v) :
    Fields.get? key body = some v ∨ (key, v) ∈ parameters ∨
      kind = .ollama ∧ key = "options" ∧ v = .obj parameters := by
  cases kind with
  | openAi | openWebUi | vllm | responses =>
    have hunder : (Fields.get? key body).or (Fields.get? key parameters) = some v :=
      (Fields.get?_insertNewAll key body parameters).symm.trans h
    rcases Option.or_eq_some_iff.mp hunder with hbody | ⟨-, hparameter⟩
    · exact Or.inl hbody
    · exact Or.inr (Or.inl (Fields.mem_of_get? hparameter))
  | anthropic =>
    have hover : (Fields.get? key parameters.reverse).or (Fields.get? key body) = some v :=
      (Fields.get?_insertAll key body parameters).symm.trans h
    rcases Option.or_eq_some_iff.mp hover with hparameter | ⟨-, hbody⟩
    · exact Or.inr (Or.inl (List.mem_reverse.mp (Fields.mem_of_get? hparameter)))
    · exact Or.inl hbody
  | ollama =>
    unfold insertParameters at h
    dsimp only at h
    split at h
    · exact Or.inl h
    · rw [Fields.get?_insert] at h
      split at h
      · next hkey => exact Or.inr (Or.inr ⟨rfl, hkey, (Option.some.inj h).symm⟩)
      · exact Or.inl h

/-- Beside Anthropic's dialect the fields that a dialect fills stay as they are. -/
theorem get?_insertParameters_of_ne {kind : BackendKind} (hkind : kind ≠ .anthropic)
    {parameters body : Fields} (hkeys : Fields.KeysIn kind.ownKeys body) {key : String} {v : Json}
    (h : Fields.get? key body = some v) :
    Fields.get? key (kind.insertParameters parameters body) = some v := by
  cases kind with
  | openAi | openWebUi | vllm | responses =>
    show Fields.get? key (body.insertNewAll parameters) = some v
    rw [Fields.get?_insertNewAll, h, Option.some_or]
  | anthropic => exact absurd rfl hkind
  | ollama =>
    have hkey : key ≠ "options" := by
      rintro rfl
      exact absurd (hkeys _ v h) (by decide)
    unfold insertParameters
    dsimp only
    split
    · exact h
    · rw [Fields.get?_insert, if_neg hkey, h]

theorem get?_insertParameters_anthropic (options : RunOptions) (body : Fields) (key : String) :
    Fields.get? key (insertParameters .anthropic options.vendorParameters body) =
      (options.parameter? key).or (Fields.get? key body) := by
  rw [options.parameter?_eq]
  exact Fields.get?_insertAll key body options.vendorParameters

end BackendKind

/-- Every field but the bound on tokens is as it is in the other request. -/
def VendorRequest.KeepsFields (made plain : VendorRequest) : Prop :=
  ∀ key v, key ≠ "max_tokens" → plain.body.field? key = some v → made.body.field? key = some v

namespace BackendKind

variable {files : FileTree} {transport : Transport σ} {client : Client} {messages : List Message}
  {catalogue : Catalogue σ} {options : RunOptions} {w w' : World σ} {made : VendorRequest}

/-- Where a request can be made, it can be made without the parameters of the vendor. With them it
has other fields, all of them parameters, and keeps those that it has without them, but for the
bound on tokens. In Anthropic's dialect it keeps them unless a parameter gives another value to the
messages, to what the system says or to the tools, where these are filled. -/
theorem formatRequest_keeps_iff {kind : BackendKind}
    (h : ((kind.backend files transport).formatRequest client messages catalogue options).perform w
      = (.ok made, w')) :
    ∃ plain : VendorRequest,
      ((kind.backend files transport).formatRequest client messages catalogue
        options.withoutParameters).perform w = (.ok plain, w') ∧
      made.path = plain.path ∧
      (∀ key v, made.body.field? key = some v →
        plain.body.field? key = some v ∨ (key, v) ∈ options.vendorParameters ∨
          kind = .ollama ∧ key = "options" ∧ v = .obj options.vendorParameters) ∧
      (made.KeepsFields plain ↔
        (kind = .anthropic → ∀ key ∈ ["messages", "system", "tools"], ∀ v parameter,
          plain.body.field? key = some v → options.parameter? key = some parameter →
            parameter = v)) := by
  obtain ⟨path, body, hkeys, hplain, rfl⟩ := exists_plain h
  refine ⟨⟨path, .obj body⟩, hplain, rfl, fun key v => get?_insertParameters_cases, ?_⟩
  constructor
  · rintro hkeeps rfl key hkey v parameter hv hparameter
    have hbound : key ≠ "max_tokens" := by
      rintro rfl
      exact absurd hkey (by decide)
    have hkept : Fields.get? key (insertParameters .anthropic options.vendorParameters body) =
        some v := hkeeps key v hbound hv
    rw [get?_insertParameters_anthropic, hparameter, Option.some_or] at hkept
    exact Option.some.inj hkept
  · intro hsame key v hbound hv
    by_cases hkind : kind = .anthropic
    · subst hkind
      show Fields.get? key (insertParameters .anthropic options.vendorParameters body) = some v
      rw [get?_insertParameters_anthropic]
      cases hparameter : options.parameter? key with
      | none => exact hv
      | some parameter =>
        -- the client's model has the name of an option that is no parameter
        have hmodel : key ≠ "model" := by
          rintro rfl
          exact absurd (RunOptions.not_control_of_parameter? hparameter) (by decide)
        have hfilled : key ∈ ["messages", "system", "tools"] := by
          simpa [ownKeys, hmodel, hbound] using hkeys key v hv
        rw [hsame rfl key hfilled v parameter hv hparameter, Option.some_or]
    · exact get?_insertParameters_of_ne hkind hkeys hv

/-- Parameters of other names leave what the system says as it is, and bound the tokens anew. -/
theorem formatRequest_keeps_iff_tokens :
    let messages : List Message := [.system "be terse", .user "hi"]
    let options : RunOptions := { values := [("max_tokens", .int 50), ("top_k", .int 5)] }
    let transport : Transport Unit := ⟨fun _ _ _ _ => pure .timedOut⟩
    let backend := anthropic.backend .empty transport
    ∃ made plain : VendorRequest,
      (backend.formatRequest ⟨"", "m", defaultTimeout, []⟩ messages {} options).perform (.start ()) =
        (.ok made, .start ()) ∧
      (backend.formatRequest ⟨"", "m", defaultTimeout, []⟩ messages {}
        options.withoutParameters).perform (.start ()) = (.ok plain, .start ()) ∧
      made.body.field? "max_tokens" = some (.int 50) ∧ made.KeepsFields plain := by
  intro messages options transport backend
  have hmade : (backend.formatRequest ⟨"", "m", defaultTimeout, []⟩ messages {} options).perform
      (.start ()) = (.ok _, .start ()) := rfl
  obtain ⟨plain, hplain, -, -, hkeeps⟩ := formatRequest_keeps_iff hmade
  refine ⟨_, plain, hmade, hplain, by decide +kernel, hkeeps.mpr ?_⟩
  intro _ key hkey v parameter _ hparameter
  have hnone : ∀ key ∈ ["messages", "system", "tools"], options.parameter? key = none := by
    decide +kernel
  exact absurd ((hnone key hkey).symm.trans hparameter) nofun

/-- A parameter takes the place of what the system says. -/
theorem formatRequest_replaces_system :
    let messages : List Message := [.system "be terse", .user "hi"]
    let options : RunOptions := { values := [("system", .str "anything goes")] }
    let transport : Transport Unit := ⟨fun _ _ _ _ => pure .timedOut⟩
    let backend := anthropic.backend .empty transport
    ∃ made plain : VendorRequest,
      (backend.formatRequest ⟨"", "m", defaultTimeout, []⟩ messages {} options).perform (.start ()) =
        (.ok made, .start ()) ∧
      (backend.formatRequest ⟨"", "m", defaultTimeout, []⟩ messages {}
        options.withoutParameters).perform (.start ()) = (.ok plain, .start ()) ∧
      plain.body.field? "system" = some (.str "be terse") ∧
      made.body.field? "system" = some (.str "anything goes") ∧ ¬ made.KeepsFields plain := by
  intro messages options transport backend
  have hplain : (backend.formatRequest ⟨"", "m", defaultTimeout, []⟩ messages {}
      options.withoutParameters).perform (.start ()) = (.ok _, .start ()) := rfl
  refine ⟨_, _, rfl, hplain, by decide +kernel, by decide +kernel, fun hkeeps => ?_⟩
  exact absurd (hkeeps "system" (.str "be terse") (by decide) (by decide +kernel))
    (by decide +kernel)

end BackendKind

end Colloquy
