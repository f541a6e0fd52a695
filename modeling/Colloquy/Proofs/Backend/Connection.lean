import Colloquy.Backend.Connection
import Colloquy.Backend.Selection
import Colloquy.Proofs.Act
import Colloquy.Proofs.Settings
import Colloquy.RunOptions.Extraction
import Mathlib.Data.List.Basic

/-!
# Colloquy — what a client is made of

A client has an address, a key, a model and a longest wait. Where an address or a model is
missing, or a key that the backend does not go without, connecting ends in an error
(`Backend.finds_or_configuration`); where all is found, only a longest wait that is no length
of time can keep a client from being made (`Backend.buildClient_of_finds`).

* `Backend.buildClient_reports_iff` — when connecting ends in a client or an error, and when
  in a fault.
* `Backend.buildClient_endpoint` — what the settings of an endpoint decide.
-/

namespace Colloquy

-- ---------------------------------------------------------------------------
-- Lengths of time
-- ---------------------------------------------------------------------------

/-- A number of seconds that is a length of time: finite, not below zero, and few enough to be
counted. -/
structure Binary64.IsLengthOfTime (x : Binary64) : Prop where
  finite : x.isFinite = true
  notBelow : x.negative = true → x.isZero = true
  counted : x.ratio.1 < Duration.secondsLimit * x.ratio.2

theorem Duration.ofSeconds?_eq_none_iff {x : Binary64} :
    Duration.ofSeconds? x = none ↔ ¬ x.IsLengthOfTime := by
  have hlength : x.IsLengthOfTime ↔ x.isFinite = true ∧ (x.negative = true → x.isZero = true) ∧
      x.ratio.1 < Duration.secondsLimit * x.ratio.2 :=
    ⟨fun h => ⟨h.finite, h.notBelow, h.counted⟩, fun ⟨hf, hn, hc⟩ => ⟨hf, hn, hc⟩⟩
  rw [hlength]
  unfold Duration.ofSeconds?
  cases x.isFinite <;> cases x.negative <;> cases x.isZero <;> simp

theorem Duration.ofSeconds_eq_fault_iff {x : Binary64} :
    Duration.ofSeconds x = .error .fault ↔ ¬ x.IsLengthOfTime := by
  rw [← Duration.ofSeconds?_eq_none_iff, Duration.ofSeconds]
  cases Duration.ofSeconds? x <;> simp

/-- The length of time of a number of seconds, where one is set. -/
def Duration.ofSetSeconds (seconds? : Option Binary64) : Except Failure (Option Duration) :=
  match seconds? with
  | some x => (Duration.ofSeconds x).map some
  | none => .ok none

theorem Duration.ofSetSeconds_eq_fault_iff {seconds? : Option Binary64} :
    Duration.ofSetSeconds seconds? = .error .fault ↔
      ∃ x, seconds? = some x ∧ ¬ x.IsLengthOfTime := by
  cases seconds? with
  | none => simp [Duration.ofSetSeconds]
  | some x =>
    rw [Duration.ofSetSeconds, map_eq_error_iff, Duration.ofSeconds_eq_fault_iff]
    simp

theorem Duration.ofSetSeconds_cases (seconds? : Option Binary64) :
    (∃ duration?, Duration.ofSetSeconds seconds? = .ok duration?) ∨
      Duration.ofSetSeconds seconds? = .error .fault := by
  cases seconds? with
  | none => exact Or.inl ⟨none, rfl⟩
  | some x =>
    unfold Duration.ofSetSeconds Duration.ofSeconds
    dsimp only
    cases Duration.ofSeconds? x with
    | none => exact Or.inr rfl
    | some d => exact Or.inl ⟨some d, rfl⟩

theorem durationOfText?_eq (text : String) :
    durationOfText? text = Duration.ofSetSeconds (Binary64.ofText? text) := by
  unfold durationOfText? Duration.ofSetSeconds
  cases Binary64.ofText? text <;> rfl

theorem RunOptions.requestTimeout?_eq (options : RunOptions) :
    options.requestTimeout? =
      Duration.ofSetSeconds ((options.getStr? "request_timeout").bind Binary64.ofText?) := by
  unfold requestTimeout?
  cases options.getStr? "request_timeout" with
  | none => rfl
  | some text =>
    rw [Option.bind_some]
    exact durationOfText?_eq text

namespace ClientSources

variable {sources : ClientSources} {profile : BackendProfile}

/-- The number of seconds that is set for the longest wait: by the option if its text is a number,
or else by the settings. -/
def seconds? (sources : ClientSources) (profile : BackendProfile) : Option Binary64 :=
  ((sources.options.getStr? "request_timeout").bind Binary64.ofText?).or
    ((sources.settings.get sources.environment "request_timeout" (sources.scopes profile) []
      none).bind Binary64.ofText?)

theorem timeout?_eq :
    sources.timeout? profile = Duration.ofSetSeconds (sources.seconds? profile) := by
  unfold timeout? seconds?
  rw [RunOptions.requestTimeout?_eq]
  cases (sources.options.getStr? "request_timeout").bind Binary64.ofText? with
  | some x =>
    show ((Duration.ofSeconds x).map some >>= fun _ => _) = (Duration.ofSeconds x).map some
    cases Duration.ofSeconds x <;> rfl
  | none =>
    -- an option that is no number leaves the wait to the settings
    rw [Option.none_or]
    cases sources.settings.get sources.environment "request_timeout" (sources.scopes profile) []
      none with
    | none => rfl
    | some text =>
      rw [Option.bind_some, ← durationOfText?_eq]
      dsimp only
      generalize durationOfText? text = timeout?
      rfl

/-- What a client is made of besides its longest wait. -/
structure Finds (sources : ClientSources) (profile : BackendProfile) (url : String)
    (key? : Option String) (model : String) : Prop where
  url_eq : sources.url? profile = some url
  key_eq : sources.key? profile url = key?
  hasKey : profile.requiresKey = true → key? ≠ none
  model_eq : sources.model? profile url = some model

end ClientSources

namespace Backend

variable {σ : Type} {backend : Backend σ} {sources : ClientSources}

-- ---------------------------------------------------------------------------
-- Connecting
-- ---------------------------------------------------------------------------

theorem findKey_eq_ok {url : String} {key? : Option String}
    (hkey : sources.key? backend.profile url = key?)
    (hasKey : backend.profile.requiresKey = true → key? ≠ none) :
    backend.findKey sources url = .ok key? := by
  unfold findKey
  rw [hkey]
  cases key? with
  | some key => rfl
  | none =>
    dsimp only
    rw [if_neg fun h => hasKey h rfl]

theorem findKey_eq_error {url : String} (hrequires : backend.profile.requiresKey = true)
    (hkey : sources.key? backend.profile url = none) :
    ∃ message, backend.findKey sources url = .error (.error (.configuration message)) := by
  unfold findKey
  rw [hkey]
  dsimp only
  rw [if_pos hrequires]
  exact ⟨_, rfl⟩

/-- Where address, key and model are found, only the wait can keep a client from being made. -/
theorem buildClient_of_finds {url model : String} {key? : Option String}
    (h : sources.Finds backend.profile url key? model) :
    backend.buildClient sources = (sources.timeout? backend.profile).map fun timeout? =>
      { url, model, timeout := timeout?.getD defaultTimeout, headers := backend.headers key? } := by
  unfold buildClient
  dsimp only
  rw [h.url_eq]
  show (backend.findKey sources url >>= fun _ => _) = _
  rw [findKey_eq_ok h.key_eq h.hasKey]
  show (backend.required "model" "" (sources.model? backend.profile url) >>= fun _ => _) = _
  rw [h.model_eq]
  rfl

/-- All is found, or connecting ends in an error about what is missing. -/
theorem finds_or_configuration (backend : Backend σ) (sources : ClientSources) :
    (∃ url key? model, sources.Finds backend.profile url key? model) ∨
      ∃ message, backend.buildClient sources = .error (.error (.configuration message)) := by
  unfold buildClient
  dsimp only
  cases hurl : sources.url? backend.profile with
  | none => exact Or.inr ⟨_, rfl⟩
  | some url =>
    by_cases hkey : backend.profile.requiresKey = true ∧ sources.key? backend.profile url = none
    · obtain ⟨message, herror⟩ := findKey_eq_error hkey.1 hkey.2
      refine Or.inr ⟨message, ?_⟩
      show (backend.findKey sources url >>= fun _ => _) = _
      rw [herror]
      rfl
    · have hasKey : backend.profile.requiresKey = true →
          sources.key? backend.profile url ≠ none := fun hrequires hnone => hkey ⟨hrequires, hnone⟩
      cases hmodel : sources.model? backend.profile url with
      | none =>
        obtain ⟨message, herror⟩ : ∃ message,
            backend.required "model" "" none = .error (.error (.configuration message)) := ⟨_, rfl⟩
        refine Or.inr ⟨message, ?_⟩
        show (backend.findKey sources url >>= fun _ => _) = _
        rw [findKey_eq_ok rfl hasKey]
        show (backend.required "model" "" (sources.model? backend.profile url) >>= fun _ => _) = _
        rw [hmodel, herror]
        rfl
      | some model => exact Or.inl ⟨url, _, model, hurl, rfl, hasKey, hmodel⟩

theorem exists_finds_of_buildClient {client : Client}
    (h : backend.buildClient sources = .ok client) :
    ∃ key? timeout?, sources.Finds backend.profile client.url key? client.model ∧
      client.headers = backend.headers key? ∧ sources.timeout? backend.profile = .ok timeout? ∧
      client.timeout = timeout?.getD defaultTimeout := by
  rcases backend.finds_or_configuration sources with ⟨url, key?, model, hfinds⟩ | ⟨message, herror⟩
  · rw [buildClient_of_finds hfinds] at h
    obtain ⟨timeout?, htimeout, rfl⟩ := exists_of_map_eq_ok h
    exact ⟨key?, timeout?, hfinds, rfl, htimeout, rfl⟩
  · exact absurd (h.symm.trans herror) nofun

-- ---------------------------------------------------------------------------
-- Clients, errors and faults
-- ---------------------------------------------------------------------------

/-- Connecting ends in a client, in an error about what is missing, or in a fault. -/
theorem buildClient_cases (backend : Backend σ) (sources : ClientSources) :
    ((∃ client, backend.buildClient sources = .ok client) ∨
        ∃ message, backend.buildClient sources = .error (.error (.configuration message))) ∨
      backend.buildClient sources = .error .fault := by
  rcases backend.finds_or_configuration sources with ⟨url, key?, model, h⟩ | hconfiguration
  · rw [buildClient_of_finds h, ClientSources.timeout?_eq]
    rcases Duration.ofSetSeconds_cases (sources.seconds? backend.profile) with
      ⟨duration?, hduration⟩ | hfault
    · rw [hduration]
      exact Or.inl (Or.inl ⟨_, rfl⟩)
    · rw [hfault]
      exact Or.inr rfl
  · exact Or.inl (Or.inr hconfiguration)

theorem buildClient_eq_fault_iff :
    backend.buildClient sources = .error .fault ↔
      (∃ url key? model, sources.Finds backend.profile url key? model) ∧
        ∃ seconds, sources.seconds? backend.profile = some seconds ∧
          ¬ seconds.IsLengthOfTime := by
  by_cases hfinds : ∃ url key? model, sources.Finds backend.profile url key? model
  · obtain ⟨url, key?, model, h⟩ := hfinds
    rw [buildClient_of_finds h, map_eq_error_iff, ClientSources.timeout?_eq,
      Duration.ofSetSeconds_eq_fault_iff]
    exact ⟨fun hseconds => ⟨⟨url, key?, model, h⟩, hseconds⟩, And.right⟩
  · obtain ⟨message, herror⟩ := (backend.finds_or_configuration sources).resolve_left hfinds
    rw [herror]
    exact ⟨nofun, fun h => absurd h.1 hfinds⟩

/-- Connecting ends in a client or in an error about what is missing unless it ends in a fault, and
that it does exactly if all is found but the number of seconds that is set for the longest wait is
no length of time. -/
theorem buildClient_reports_iff (backend : Backend σ) (sources : ClientSources) :
    (((∃ client, backend.buildClient sources = .ok client) ∨
        ∃ message, backend.buildClient sources = .error (.error (.configuration message))) ↔
      backend.buildClient sources ≠ .error .fault) ∧
    (backend.buildClient sources = .error .fault ↔
      (∃ url key? model, sources.Finds backend.profile url key? model) ∧
        ∃ seconds, sources.seconds? backend.profile = some seconds ∧
          ¬ seconds.IsLengthOfTime) := by
  refine ⟨⟨?_, (backend.buildClient_cases sources).resolve_right⟩, buildClient_eq_fault_iff⟩
  rintro (⟨client, h⟩ | ⟨message, h⟩) hfault
  · exact absurd (h.symm.trans hfault) nofun
  · exact absurd (h.symm.trans hfault) nofun

/-- A conversation that asks for a wait below zero. -/
theorem buildClient_faults :
    let messages : List Message := [.ofText .option "request_timeout -1", .user "hi"]
    let transport : Transport Unit := ⟨fun _ _ _ _ => pure .timedOut⟩
    let backend := BackendKind.ollama.backend .empty transport
    ∃ options, extractMessages {} .empty messages none = .ok ([.user "hi"], options) ∧
      backend.buildClient ⟨options, {}, []⟩ = .error .fault := by
  intro messages transport backend
  refine ⟨{ values := [("request_timeout", .int (-1))] }, by decide +kernel, ?_⟩
  decide +kernel

end Backend

-- ---------------------------------------------------------------------------
-- Endpoints
-- ---------------------------------------------------------------------------

namespace ClientSources

variable {sources : ClientSources} {profile : BackendProfile} {endpoint key value : String}

/-- The value of the first scope for the server of an address that has one. -/
def forServer? (sources : ClientSources) (profile : BackendProfile) (url key : String) :
    Option String :=
  sources.settings.inScopes? key (Settings.refinedScopes url (sources.scopes profile))

theorem scopes_of_endpoint (h : sources.options.endpoint? = some endpoint) :
    sources.scopes profile = endpoint :: profile.scopes none := by
  rw [scopes, h]
  rfl

theorem get_of_endpoint (h : sources.options.endpoint? = some endpoint)
    (hvalue : sources.settings.value? endpoint key = some value) (envNames : List String)
    (default? : Option String) :
    sources.settings.get sources.environment key (sources.scopes profile) envNames default? =
      some value := by
  rw [scopes_of_endpoint h]
  exact Settings.get_of_value? hvalue _

theorem getForUrl_of_endpoint (h : sources.options.endpoint? = some endpoint)
    (hvalue : sources.settings.value? endpoint key = some value) (url : String)
    (envNames : List String) (default? : Option String) :
    sources.settings.getForUrl sources.environment key (some url) (sources.scopes profile) envNames
        default? =
      some ((sources.forServer? profile url key).getD value) := by
  rw [forServer?, scopes_of_endpoint h]
  exact Settings.getForUrl_of_value? hvalue url _

/-- The options choose an endpoint and leave to it what a client is made of. -/
structure LeavesTo (sources : ClientSources) (endpoint : String) : Prop where
  endpoint_eq : sources.options.endpoint? = some endpoint
  unset : ∀ key ∈ ["url", "key", "model", "request_timeout"], sources.options.getStr? key = none

namespace LeavesTo

variable (h : sources.LeavesTo endpoint)
include h

theorem url?_eq (hvalue : sources.settings.value? endpoint "url" = some value) :
    sources.url? profile = some value := by
  rw [url?, h.unset "url" (by simp)]
  exact get_of_endpoint h.endpoint_eq hvalue _ _

theorem key?_eq (hvalue : sources.settings.value? endpoint "key" = some value) (url : String) :
    sources.key? profile url = some ((sources.forServer? profile url "key").getD value) := by
  rw [key?, h.unset "key" (by simp)]
  exact getForUrl_of_endpoint h.endpoint_eq hvalue url _ _

theorem model?_eq (hvalue : sources.settings.value? endpoint "model" = some value) (url : String) :
    sources.model? profile url = some ((sources.forServer? profile url "model").getD value) := by
  rw [model?, RunOptions.model?, h.unset "model" (by simp)]
  exact getForUrl_of_endpoint h.endpoint_eq hvalue url _ _

theorem timeout?_eq (hvalue : sources.settings.value? endpoint "request_timeout" = some value) :
    sources.timeout? profile = durationOfText? value := by
  rw [ClientSources.timeout?_eq, seconds?, h.unset "request_timeout" (by simp),
    get_of_endpoint h.endpoint_eq hvalue, Option.bind_none, Option.none_or, Option.bind_some,
    durationOfText?_eq]

end LeavesTo

end ClientSources

namespace Backend

variable {σ : Type} {backend : Backend σ} {sources : ClientSources} {endpoint : String}

/-- What the settings of an endpoint decide about a client. Address and wait are the endpoint's own;
key and model are, unless there are others for the server. -/
structure FollowsEndpoint (backend : Backend σ) (sources : ClientSources) (endpoint : String)
    (client : Client) : Prop where
  url_eq : ∀ url, sources.settings.value? endpoint "url" = some url → client.url = url
  headers_eq : ∀ key, sources.settings.value? endpoint "key" = some key →
    client.headers =
      backend.headers (some ((sources.forServer? backend.profile client.url "key").getD key))
  model_eq : ∀ model, sources.settings.value? endpoint "model" = some model →
    client.model = (sources.forServer? backend.profile client.url "model").getD model
  timeout_eq : ∀ text, sources.settings.value? endpoint "request_timeout" = some text →
    ∃ timeout?, durationOfText? text = .ok timeout? ∧
      client.timeout = timeout?.getD defaultTimeout

theorem followsEndpoint_of_buildClient (h : sources.LeavesTo endpoint) {client : Client}
    (hclient : backend.buildClient sources = .ok client) :
    backend.FollowsEndpoint sources endpoint client := by
  obtain ⟨key?, timeout?, hfinds, hheaders, htimeout, hwait⟩ := exists_finds_of_buildClient hclient
  refine ⟨fun url hurl => ?_, fun key hkey => ?_, fun model hmodel => ?_, fun text htext => ?_⟩
  · exact Option.some.inj (hfinds.url_eq.symm.trans (h.url?_eq hurl))
  · rw [hheaders, ← h.key?_eq hkey client.url, hfinds.key_eq]
  · exact Option.some.inj (hfinds.model_eq.symm.trans (h.model?_eq hmodel client.url))
  · exact ⟨timeout?, (h.timeout?_eq htext).symm.trans htimeout, hwait⟩

/-- Where the options choose an endpoint and name no address, key, model or wait, every client
follows the settings of the endpoint; and where these hold all four, there is a client, unless the
wait is no length of time. -/
theorem buildClient_endpoint (h : sources.LeavesTo endpoint) :
    (∀ client, backend.buildClient sources = .ok client →
      backend.FollowsEndpoint sources endpoint client) ∧
    (∀ url key model text timeout?,
      sources.settings.value? endpoint "url" = some url →
      sources.settings.value? endpoint "key" = some key →
      sources.settings.value? endpoint "model" = some model →
      sources.settings.value? endpoint "request_timeout" = some text →
      durationOfText? text = .ok timeout? →
      ∃ client, backend.buildClient sources = .ok client) := by
  refine ⟨fun client => followsEndpoint_of_buildClient h, ?_⟩
  intro url key model text timeout? hurl hkey hmodel htext htimeout
  have hfinds : sources.Finds backend.profile url _ _ :=
    ⟨h.url?_eq hurl, h.key?_eq hkey url, fun _ => nofun, h.model?_eq hmodel url⟩
  rw [buildClient_of_finds hfinds, h.timeout?_eq htext, htimeout]
  exact ⟨_, rfl⟩

/-- An endpoint that sets all, beside settings of the backend and of another server. -/
def workSources : ClientSources where
  options := { values := [("endpoint", .str "work")] }
  settings :=
    (((((({} : Settings).set "url" "work" "https://llm.example.org/v1").set "key" "work"
      "preset").set "model" "work" "large").set "request_timeout" "work" "2.5").set "key" "openai"
      "other").set "model" "work.openai" "elsewhere"
  environment := []

theorem buildClient_endpoint_work :
    let backend := BackendKind.openAi.backend .empty
      (⟨fun _ _ _ _ => pure .timedOut⟩ : Transport Unit)
    workSources.LeavesTo "work" ∧
      ∃ client, backend.buildClient workSources = .ok client ∧
        client.url = "https://llm.example.org/v1" ∧
        client.headers = backend.headers (some "preset") ∧
        client.model = "large" ∧ client.timeout = .ofMillis 2500 := by
  intro backend
  have hleaves : workSources.LeavesTo "work" := ⟨by decide, by decide⟩
  have htimeout : durationOfText? "2.5" = .ok (some (.ofMillis 2500)) := by decide +kernel
  obtain ⟨hfollows, hexists⟩ := backend.buildClient_endpoint hleaves
  obtain ⟨client, hclient⟩ := hexists "https://llm.example.org/v1" "preset" "large" "2.5" _
    (by decide) (by decide) (by decide) (by decide) htimeout
  have hf := hfollows client hclient
  have hurl := hf.url_eq "https://llm.example.org/v1" (by decide)
  refine ⟨hleaves, client, hclient, hurl, ?_, ?_, ?_⟩
  · have hserver : workSources.forServer? backend.profile "https://llm.example.org/v1" "key" =
        none := by decide +kernel
    rw [hf.headers_eq "preset" (by decide), hurl, hserver, Option.getD_none]
  · have hserver : workSources.forServer? backend.profile "https://llm.example.org/v1" "model" =
        none := by decide +kernel
    rw [hf.model_eq "large" (by decide), hurl, hserver, Option.getD_none]
  · obtain ⟨timeout?, hread, hwait⟩ := hf.timeout_eq "2.5" (by decide)
    rw [htimeout] at hread
    rw [hwait, ← Except.ok.inj hread]
    rfl

/-- A key for the server comes before the endpoint's. -/
theorem buildClient_passes_endpoint :
    let backend := BackendKind.openAi.backend .empty
      (⟨fun _ _ _ _ => pure .timedOut⟩ : Transport Unit)
    let settings :=
      (({} : Settings).set "key" "work" "preset").set "key" "openai.openai" "for-server"
    let sources : ClientSources := ⟨{ values := [("endpoint", .str "work")] }, settings, []⟩
    sources.LeavesTo "work" ∧ settings.value? "work" "key" = some "preset" ∧
      ∃ client, backend.buildClient sources = .ok client ∧
        client.headers = backend.headers (some "for-server") ∧
        client.headers ≠ backend.headers (some "preset") := by
  refine ⟨⟨by decide, by decide⟩, by decide, ?_⟩
  refine ⟨⟨"https://api.openai.com/v1", "gpt-4.1", defaultTimeout, _⟩, ?_, rfl, ?_⟩
  · decide +kernel
  · decide +kernel

end Backend

end Colloquy
