import Colloquy.Proofs.Backend.Replies
import Colloquy.Proofs.Backend.Wire
import Colloquy.Proofs.Run.Answers
import Colloquy.Proofs.Run.Content
import Colloquy.Proofs.Run.Resending

/-!
# Colloquy — runs on the wire

The conversation that a run sends to a server without memory only grows on the wire
(`Runner.run_appends_on_wire`): a turn adds its entries after those that were sent before
(`BackendKind.Writes`), among them one for each result of a call, and what the system says
stays as it is. In Anthropic's dialect a parameter of the vendor can take the place of the
whole conversation, and then no result is sent (`Runner.run_drops_result_on_wire`).

* `Runner.OnWire` — the requests of a run as they are written.
-/

namespace Colloquy

open Dialect

-- ---------------------------------------------------------------------------
-- Options of a turn
-- ---------------------------------------------------------------------------

/-- The options of a turn without a handle have the parameters of the run, but for a choice of a
tool. -/
theorem RunOptions.parameter?_resent {key : String} (hchoice : key ≠ "tool_choice")
    (hhandle : key ≠ "previous_response_id") (options : RunOptions) (place : Nat) :
    (options.resent place).parameter? key = options.parameter? key := by
  have hremove : ∀ (o : RunOptions) (removed : String), key ≠ removed →
      (o.remove removed).parameter? key = o.parameter? key := by
    intro o removed hne
    have herased : (o.remove removed).vendorParameters.reverse =
        Fields.erase removed o.vendorParameters.reverse := by
      simp only [vendorParameters, remove, Fields.erase, List.filter_filter, List.filter_reverse,
        Bool.and_comm]
    rw [parameter?_eq, parameter?_eq, herased, Fields.get?_erase, if_neg hne]
  unfold resent
  dsimp only
  split
  · rw [hremove _ _ hchoice, hremove _ _ hhandle]
  · exact hremove _ _ hhandle

-- ---------------------------------------------------------------------------
-- One turn
-- ---------------------------------------------------------------------------

namespace BackendKind

/-- What the messages of a turn become on the wire: what the assistant said, and for each call that
was answered an entry of the call and one of its result. The result stands right after the call, so
that no call between them can have its identifier. -/
inductive Writes (kind : BackendKind) : List Message → List Answer → List Json → Prop
  | nil : Writes kind [] [] []
  | said {m : Message} {output : List Message} {answers : List Answer} {entries : List Json}
      (hrole : m.role = .assistant) (hrest : Writes kind output answers entries) :
      Writes kind (m :: output) answers (kind.saidEntries m ++ entries)
  | answered {a : Answer} {output : List Message} {answers : List Answer} {entries : List Json}
      (hid : a.result.id = a.call.id) (hrest : Writes kind output answers entries) :
      Writes kind (Dispatcher.exchange a.call a.result ++ output) (a :: answers)
        (kind.encodeCall a.call.carried :: kind.resultEntry a.call.name a.result :: entries)

namespace Writes

variable {kind : BackendKind} {output : List Message} {answers : List Answer} {added : List Json}

theorem adds (h : kind.Writes output answers added) (files : FileTree) :
    kind.Adds files output added := by
  induction h with
  | nil => exact kind.adds_nil files
  | said hrole _ ih => exact (kind.adds_said files hrole).append ih
  | answered hid _ ih => exact (kind.adds_exchange files hid).append ih

/-- The results of calls among the entries are those of the answers, in order. -/
theorem filter_isResult (h : kind.Writes output answers added) :
    added.filter kind.isResult = answers.map fun a => kind.resultEntry a.call.name a.result := by
  induction h with
  | nil => rfl
  | @said m _ _ _ hrole _ ih =>
    have hsaid : (kind.saidEntries m).filter kind.isResult = [] :=
      List.filter_eq_nil_iff.mpr fun entry hentry => by
        simp [kind.isResult_of_mem_saidEntries hrole entry hentry]
    rw [List.filter_append, hsaid, List.nil_append, ih]
  | answered _ _ ih => simp [isResult_encodeCall, isResult_resultEntry, ih]

/-- The results of calls among the messages are those of the answers, in order. -/
theorem map_message (h : kind.Writes output answers added) :
    answers.map Answer.message = callOutputs output := by
  induction h with
  | nil => rfl
  | said hrole _ ih => simpa [callOutputs, hrole] using ih
  | answered _ _ ih =>
    simpa [callOutputs, Dispatcher.exchange, Message.functionCall, Message.functionCallOutput,
      Answer.message] using ih

theorem role_ne_system (h : kind.Writes output answers added) : ∀ m ∈ output, m.role ≠ .system := by
  induction h with
  | nil => exact List.forall_mem_nil _
  | said hrole _ ih =>
    refine List.forall_mem_cons.mpr ⟨?_, ih⟩
    rw [hrole]
    nofun
  | answered _ _ ih =>
    refine List.forall_mem_append.mpr ⟨?_, ih⟩
    simp [Dispatcher.exchange, Message.functionCall, Message.functionCallOutput]

end Writes

end BackendKind

namespace Runner

variable {σ : Type} {r : Runner σ} {options : RunOptions} {messages : List Message}

/-- The messages of a plain reply become entries in every dialect. -/
theorem Processes.exists_writes {items : List ReplyItem} {w w' : World σ} {answers : List Answer}
    {output : List Message} (h : r.Processes items w answers output w') (hplain : PlainItems items)
    (kind : BackendKind) : ∃ added, kind.Writes output answers added := by
  induction h with
  | nil => exact ⟨[], .nil⟩
  | message _ ih =>
    obtain ⟨hrole, hitems⟩ := List.forall_mem_cons.mp hplain
    obtain ⟨added, hadded⟩ := ih hitems
    exact ⟨_, .said hrole hadded⟩
  | @call made result _ _ _ _ _ _ hinvoke _ ih =>
    obtain ⟨added, hadded⟩ := ih (List.forall_mem_cons.mp hplain).2
    exact ⟨_, .answered (a := ⟨made, result⟩) (Dispatcher.id_of_invoke hinvoke) hadded⟩

/-- Each turn of a run has its answers and its entries. -/
theorem Runs.exists_writes (hplain : r.backend.RepliesPlainly) (kind : BackendKind)
    {w w' : World σ} {turns : List Turn} {requests : List Request}
    {result : Except Failure Completion}
    (h : r.Runs messages options w turns requests result w') :
    ∃ (answers : Turn → List Answer) (added : Turn → List Json), ∀ t ∈ turns,
      (answers t).map Answer.call = t.reply.toolCalls ∧
        kind.Writes t.output (answers t) (added t) := by
  have hturn : ∀ t, ∃ answers added, t ∈ turns →
      answers.map Answer.call = t.reply.toolCalls ∧ kind.Writes t.output answers added := by
    intro t
    by_cases ht : t ∈ turns
    · obtain ⟨i, hi⟩ := List.getElem?_of_mem ht
      obtain ⟨_, answers, _, -, hwith⟩ := h.exists_takesWith hi
      obtain ⟨_, _, -, hprocesses⟩ := hwith.processes
      obtain ⟨added, hadded⟩ :=
        hprocesses.exists_writes (hwith.toTakes.isPlain_reply hplain) kind
      exact ⟨answers, added, fun _ => ⟨hwith.map_call, hadded⟩⟩
    · exact ⟨[], [], fun hmem => absurd hmem ht⟩
  choose answers added hturn using hturn
  exact ⟨answers, added, hturn⟩

-- ---------------------------------------------------------------------------
-- Written requests
-- ---------------------------------------------------------------------------

/-- The requests of a run as they are written: what goes over the wire for the request at a place,
in every world, and the entries that its messages became. Each turn adds the entries of its messages
to them. -/
structure OnWire (kind : BackendKind) (r : Runner σ) (options : RunOptions) (turns : List Turn)
    (requests : List Request) (wire : ℕ → VendorRequest) (entries : ℕ → List Json) : Prop where
  written : ∀ i (hi : i < requests.length) (v : World σ),
    (r.backend.formatRequest r.client requests[i].messages r.tools requests[i].options).perform v =
      (.ok (wire i), v)
  conversation : ∀ i < requests.length, (wire i).body.field? "messages" =
    some ((kind.replacement? options "messages").getD (.arr (entries i)))
  system : kind = .anthropic → ∀ i < requests.length,
    (wire i).body.field? "system" = (wire 0).body.field? "system"
  extends_previous : ∀ i, i + 1 < requests.length → ∃ t answers added, turns[i]? = some t ∧
    answers.map Answer.call = t.reply.toolCalls ∧
    answers.map Answer.message = callOutputs t.output ∧
    kind.Writes t.output answers added ∧
    added.filter kind.isResult = (answers.map fun a => kind.resultEntry a.call.name a.result) ∧
    entries (i + 1) = entries i ++ added

variable {kind : BackendKind} {files : FileTree} {transport : Transport σ} {w : World σ}

/-- A turn whose request cannot be written fails. -/
theorem takeTurn_of_formatRequest {p : Progress} {f : Failure} {w' : World σ}
    (h : (r.backend.formatRequest r.client p.pending r.tools (p.turnOptions options)).perform w =
      (.error f, w')) : (r.takeTurn options p).perform w = (.error f, w') :=
  Act.perform_bind_eq_error_iff.mpr (.inl (Act.perform_bind_eq_error_iff.mpr (.inl h)))

/-- Where the messages of the beginning cannot be written, the run ends at its first request. -/
theorem runs_of_encoded_eq_throw (hr : r.backend = kind.backend files transport)
    (hs : kind.isStateful = false) {e : Error} (h : kind.encoded files messages = throw e) :
    r.Runs messages options w [] [⟨messages, options.resent 0⟩] (.error (.error e)) w := by
  have hstateless : r.backend.isStateful = false := by
    rw [hr]
    exact hs
  obtain ⟨left, hleft⟩ : ∃ left, r.turnLimit = left + 1 :=
    ⟨r.turnLimit - 1, by simp only [turnLimit]; omega⟩
  refine History.runs ?_
  rw [hstateless, hleft]
  refine .failed (takeTurn_of_formatRequest ?_)
  rw [hr]
  show (Act.ofDraw (kind.request files r.client messages r.tools _)).perform w = _
  rw [BackendKind.request_of_encoded_eq_throw h]
  rfl

/-- Where they can be written, so can all requests of the run. -/
theorem Runs.exists_onWire (hr : r.backend = kind.backend files transport)
    (hs : kind.isStateful = false) {sent : List Json}
    (hsent : kind.encoded files messages = pure sent) {w' : World σ} {turns : List Turn}
    {requests : List Request} {result : Except Failure Completion}
    (h : r.Runs messages options w turns requests result w') :
    ∃ wire entries, OnWire kind r options turns requests wire entries ∧ entries 0 = sent := by
  have hplain : r.backend.RepliesPlainly := hr ▸ kind.repliesPlainly files transport
  have hstateless : r.backend.isStateful = false := by
    rw [hr]
    exact hs
  have hfield := BackendKind.conversationField_of_stateless hs
  -- what a turn adds does not depend on what was sent before it
  obtain ⟨answers, added, hturn⟩ := h.exists_writes hplain kind
  have hencoded : ∀ i, kind.encoded files (messages ++ (turns.take i).flatMap Turn.output) =
      pure (sent ++ (turns.take i).flatMap added) := by
    intro i
    have hadds : kind.Adds files ((turns.take i).flatMap Turn.output)
        ((turns.take i).flatMap added) :=
      .flatMap fun t ht => (hturn t (List.mem_of_mem_take ht)).2.adds files
    rw [hadds, hsent, pure_bind]
  choose wire hwire hconversation hsystem using fun i =>
    BackendKind.exists_request_of_encoded (hencoded i) r.client r.tools (options.resent i)
  have hrequest := h.getElem_requests_of_stateless hstateless
  refine ⟨wire, fun i => sent ++ (turns.take i).flatMap added, ⟨?_, ?_, ?_, ?_⟩, by simp⟩
  · intro i hi v
    rw [hr, hrequest i hi]
    show (Act.ofDraw (kind.request files r.client _ r.tools (options.resent i))).perform v = _
    rw [hwire, Act.perform_ofDraw_pure]
  · intro i _
    rw [← hfield, hconversation, hfield, BackendKind.replacement?,
      RunOptions.parameter?_resent (by decide) (by decide)]
    rfl
  · intro hkind i _
    have hsame : ∀ place, (wire place).body.field? "system" = (options.parameter? "system").or
        (Fields.get? "system" (Anthropic.systemField messages)) := by
      intro place
      rw [hsystem place hkind, RunOptions.parameter?_resent (by decide) (by decide),
        Anthropic.systemField_append]
      intro m hm
      obtain ⟨t, ht, hm⟩ := List.mem_flatMap.mp hm
      exact (hturn t (List.mem_of_mem_take ht)).2.role_ne_system m hm
    rw [hsame, hsame]
  · intro i hi
    obtain ⟨t, ht, htake⟩ := h.exists_take_succ hi
    obtain ⟨hcalls, hwrites⟩ := hturn t (List.mem_of_getElem? ht)
    refine ⟨t, answers t, added t, ht, hcalls, hwrites.map_message, hwrites,
      hwrites.filter_isResult, ?_⟩
    rw [htake, List.flatMap_append, List.flatMap_singleton, List.append_assoc]

-- ---------------------------------------------------------------------------
-- A recorded server
-- ---------------------------------------------------------------------------

/-- A server that gives recorded bodies in turn, whatever it is sent. -/
def playback : Transport (List Json) where
  post := fun _ _ _ _ => do
    match ← Act.outer with
    | [] => return .timedOut
    | body :: rest => do
      Act.modifyOuter fun _ => rest
      return .answer 200 body.render

/-- A runner on such a server, whose one tool adds by heart. -/
def playing (kind : BackendKind) : Runner (List Json) where
  backend := kind.backend .empty playback
  client := { url := "http://localhost", model := "m" }
  tools := ⟨[⟨"add", "", .empty, [], .inline fun _ _ => pure (.str "4")⟩]⟩
  clock := ⟨fun _ => pure (), pure 0⟩

-- ---------------------------------------------------------------------------
-- All runs
-- ---------------------------------------------------------------------------

/-- On a server without memory the conversation of a run only grows on the wire, whatever the run
is. If the messages of the beginning cannot be written, the run ends in that error before anything
is sent. Otherwise all its requests can be written: the entries of each are the beginning of those
of the next one, which adds to them what the turn between said, each result of a call in one entry
that tells which call it answers; and what the system says in Anthropic's dialect stays the same.
The entries are what is sent, unless, in Anthropic's dialect, a parameter takes their place. -/
theorem run_appends_on_wire (r : Runner σ) (kind : BackendKind) (files : FileTree)
    (transport : Transport σ) (hr : r.backend = kind.backend files transport)
    (hs : kind.isStateful = false) (messages : List Message) (hids : ∀ m ∈ messages, m.CarriesId)
    (options : RunOptions) (w : World σ) :
    ∃ turns requests result w', r.Runs messages options w turns requests result w' ∧
      ((∃ e, turns = [] ∧ requests = [⟨messages, options.resent 0⟩] ∧ result = .error (.error e) ∧
          kind.encoded files messages = throw e) ∨
        ∃ wire entries, OnWire kind r options turns requests wire entries ∧
          kind.encoded files messages = pure (entries 0)) := by
  obtain ⟨e | sent, h⟩ := kind.isSettled_encoded files hids
  · exact ⟨_, _, _, _, runs_of_encoded_eq_throw hr hs h, .inl ⟨e, rfl, rfl, rfl, h⟩⟩
  · obtain ⟨turns, requests, result, w', hruns⟩ := r.exists_runs messages options w
    obtain ⟨wire, entries, hwire, rfl⟩ := hruns.exists_onWire hr hs h
    exact ⟨turns, requests, result, w', hruns, .inr ⟨wire, entries, hwire, h⟩⟩

/-- Ollama asks for a sum and is told it. -/
theorem run_appends_on_wire_ollama :
    let r := playing .ollama
    let call : Json := .object [("function", .object [("name", .str "add")])]
    let bodies : List Json :=
      [.object [("message", .object [("tool_calls", .arr [call])])],
       .object [("message", .object [("content", .str "four")])]]
    (∀ m ∈ [Message.user "2+2?"], m.CarriesId) ∧
      ∃ turns requests c w' wire entries,
        r.Runs [.user "2+2?"] {} (.start bodies) turns requests (.ok c) w' ∧ requests.length = 2 ∧
        OnWire .ollama r {} turns requests wire entries := by
  intro r call bodies
  have hids : ∀ m ∈ [Message.user "2+2?"], m.CarriesId :=
    List.forall_mem_singleton.mpr nofun
  refine ⟨hids, ?_⟩
  obtain ⟨turns, requests, result, w', hruns, hwritten⟩ :=
    r.run_appends_on_wire .ollama _ playback rfl rfl [.user "2+2?"] hids {} (.start bodies)
  have hturns : ((r.run [.user "2+2?"] {}).perform (.start bodies)).1.map Completion.turns = .ok 2 := by
    decide +kernel
  rw [hruns.perform_eq] at hturns
  obtain ⟨c, rfl, hc⟩ := exists_of_map_eq_ok hturns
  obtain ⟨e, -, -, hresult, -⟩ | ⟨wire, entries, hwire, -⟩ := hwritten
  · exact absurd hresult nofun
  exact ⟨turns, requests, c, w', wire, entries, hruns, hruns.length_requests.trans hc, hwire⟩

/-- Anthropic asks for a sum, and a parameter takes the place of the turns: the run sends the result
back in its second request, but no result is in what is written. -/
theorem run_drops_result_on_wire :
    let r := playing .anthropic
    let fixed : Json := plainMessage (.user "fixed")
    let options : RunOptions := { values := [("messages", .arr [fixed])] }
    let call : Json :=
      .object [("type", .str "tool_use"), ("id", .str "c1"), ("name", .str "add")]
    let bodies : List Json :=
      [.object [("content", .arr [call])],
       .object [("content", .arr [.object [("type", .str "text"), ("text", .str "four")]])]]
    ∃ turns requests c w' request wire,
      r.Runs [.user "2+2?"] options (.start bodies) turns requests (.ok c) w' ∧
      requests[1]? = some request ∧
      .functionCallOutput ⟨"c1", "4"⟩ ∈ callOutputs request.messages ∧
      (∀ v, (r.backend.formatRequest r.client request.messages r.tools request.options).perform v =
        (.ok wire, v)) ∧
      wire.body.field? "messages" = some (.arr [fixed]) ∧
      BackendKind.anthropic.isResult fixed = false := by
  intro r fixed options call bodies
  let said : List Message :=
    [.functionCall ⟨"c1", "add", .obj []⟩, .functionCallOutput ⟨"c1", "4"⟩, .assistant "four"]
  obtain ⟨turns, requests, result, w', hruns⟩ := r.exists_runs [.user "2+2?"] options (.start bodies)
  have hsent : BackendKind.anthropic.encoded .empty [.user "2+2?"] =
      pure [plainMessage (.user "2+2?")] := rfl
  obtain ⟨wire, entries, hwire, -⟩ := hruns.exists_onWire rfl rfl hsent
  have hresult : ((r.run [.user "2+2?"] options).perform (.start bodies)).1 =
      .ok { messages := .user "2+2?" :: said, newMessages := 3, turns := 2 } := by
    decide +kernel
  rw [hruns.perform_eq] at hresult
  obtain rfl := hresult
  have hcompletes := hruns.history.completes
  have hturns : turns.length = 2 := hcompletes.length_requests.symm.trans hruns.length_requests
  have hlt : 1 < requests.length := by
    rw [hruns.length_requests]
    decide
  refine ⟨turns, requests, _, w', requests[1], wire 1, hruns, List.getElem?_eq_getElem hlt, ?_,
    hwire.written 1 hlt, ?_, by decide⟩
  · -- the first turn awaits a reply, so the one result of the transcript is its own
    obtain ⟨t, last, rfl⟩ := List.length_eq_two.mp hturns
    have hawaits : t.awaits = true := by
      obtain ⟨earlier, _, hsplit, hearlier, -⟩ := hcompletes.last
      obtain rfl : [t] = earlier := by simpa using congrArg List.dropLast hsplit
      exact hearlier t (List.mem_singleton_self t)
    have hall : callOutputs t.output ++ callOutputs last.output =
        [.functionCallOutput ⟨"c1", "4"⟩] := by
      have hmessages := congrArg callOutputs hcompletes.messages_eq
      simpa [callOutputs, said, Progress.start, Message.functionCall, Message.functionCallOutput,
        Message.user, Message.assistant, Message.ofText] using hmessages.symm
    obtain ⟨m, rest, hm⟩ := List.exists_cons_of_ne_nil (callOutputs_ne_nil hawaits)
    rw [hm] at hall
    obtain ⟨rfl, -⟩ := List.cons.inj hall
    have hmem : .functionCallOutput ⟨"c1", "4"⟩ ∈ callOutputs t.output := by
      rw [hm]
      exact List.mem_cons_self
    have hresent := hruns.callOutputs_sublist_getElem (i := 0) rfl hlt
    exact List.mem_filter.mpr ⟨hresent.subset hmem, rfl⟩
  · have hreplaced : BackendKind.anthropic.replacement? options "messages" =
        some (.arr [fixed]) := by
      decide +kernel
    rw [hwire.conversation 1 hlt, hreplaced, Option.getD_some]

end Runner

end Colloquy
