import Colloquy.Proofs.Directive.Expansion
import Colloquy.Proofs.Directive.Filter
import Colloquy.Proofs.Directive.Passes

/-!
# Colloquy — handles in imported chats

A chat may hold markers of responses, and to go on from one of another chat would bring the
conversation of that chat into this one. Import and last directives take no markers, and no
pass makes one or takes one out. So unless a continue directive takes one, the markers that
resolving leaves are those of the conversation itself (`Resolver.resolveMessages_markers`).

* `markers` — the markers among messages.
* `Resolver.Reaches` — a directive is met among messages, or in a chat that they lead to.
* `Resolver.Secludes` — no continue directive is met.
-/

namespace Colloquy

/-- The markers of responses among messages. -/
def markers (messages : List Message) : List Message :=
  messages.filter fun m => m.role == .previousResponseId

theorem markers_append (messages others : List Message) :
    markers (messages ++ others) = markers messages ++ markers others :=
  List.filter_append messages others

theorem markers_eq_nil {messages : List Message}
    (h : ∀ m ∈ messages, m.role ≠ .previousResponseId) : markers messages = [] := by
  simpa [markers] using h

/-- What is made of the first message comes before what is made of the others. -/
theorem markers_append_eq_cons {m : Message} {rest here others : List Message}
    (hhere : markers here = markers [m]) (hothers : markers others = markers rest) :
    markers (here ++ others) = markers (m :: rest) := by
  rw [markers_append, hhere, hothers, ← markers_append, List.singleton_append]

/-- Cleaning drops the markers that are empty. -/
theorem markers_clean (messages : List Message) :
    markers (clean .skip messages) = (markers messages).filter fun m => !m.isEmpty := by
  rw [markers, markers, clean, List.filter_filter, List.filter_filter]
  apply List.filter_congr
  intro m _
  by_cases hrole : m.role = .previousResponseId
  · unfold survives
    rw [hrole]
    cases m.isEmpty <;> rfl
  · have hmarker : (m.role == .previousResponseId) = false := by simpa using hrole
    rw [hmarker, Bool.false_and, Bool.and_false]

theorem mem_of_mem_clean_clear {messages : List Message} {m : Message}
    (h : m ∈ clean .skip (clear .clear messages)) : m ∈ messages :=
  (clear_suffix _ messages).mem (mem_clean_iff.mp h).1

theorem markers_clean_clear_eq_nil {messages : List Message}
    (h : ∀ m ∈ messages, m.role ≠ .previousResponseId) :
    markers (clean .skip (clear .clear messages)) = [] :=
  markers_eq_nil fun m hm => h m (mem_of_mem_clean_clear hm)

theorem mem_of_lastWith? {p : Message → Bool} {messages : List Message} {m : Message}
    (h : lastWith? p messages = some m) : m ∈ messages :=
  (List.mem_filter.mp (List.mem_of_getLast? h)).1

/-- All directives but continue directives take messages that are no markers. -/
theorem mem_purge_of_mem_selectImported {role : Role} (hrole : role ≠ .continue_)
    {messages : List Message} {m : Message} (h : m ∈ selectImported role messages) :
    m ∈ purge messages := by
  unfold selectImported at h
  split at h
  · exact absurd rfl hrole
  · exact mem_of_lastWith? (Option.mem_toList.mp h)
  · exact h

namespace Resolver

variable {σ : Type} {r : Resolver σ}

-- ---------------------------------------------------------------------------
-- Passes
-- ---------------------------------------------------------------------------

/-- What is made of messages has the same markers, in the same order. -/
def KeepsMarkers (messages : List Message) (act : Act σ (List Message)) : Prop :=
  Act.Ensures (fun left => markers left = markers messages) (fun _ => True) act

/-- A directive is no marker, and neither is what is made of it. -/
theorem markers_of_made {m : Message} {made : List Message} (hm : m.role ≠ .previousResponseId)
    (hmade : ∀ x ∈ made, x.role ≠ .previousResponseId) : markers made = markers [m] :=
  (markers_eq_nil hmade).trans (markers_eq_nil (List.forall_mem_singleton.mpr hm)).symm

theorem keepsMarkers_eachMessage {f : Message → Act σ (List Message)}
    (h : ∀ m, KeepsMarkers [m] (f m)) (messages : List Message) :
    KeepsMarkers messages (eachMessage f messages) :=
  ensures_eachMessage_of (R := fun messages left => markers left = markers messages) rfl
    (fun _ _ _ _ => markers_append_eq_cons) fun m _ => h m

theorem keepsMarkers_tasks (r : Resolver σ) (messages : List Message) :
    KeepsMarkers messages (r.tasks messages) := by
  refine r.failsOnly_true.ensures_tasks_of (ensures_makeJobs_of
    (Q := fun m made => markers [made] = markers [m])
    (R := fun messages left => markers left = markers messages) rfl
    (fun _ _ _ _ => markers_append_eq_cons) (fun _ _ _ => rfl) fun m _ hrole => ?_)
  have hm : m.role ≠ .previousResponseId :=
    ne_of_apply_ne Role.isTaskDirective (by rw [hrole]; decide)
  have hmade := r.failsOnly_true.ensures_taskDirective
    (P := fun made => made.role ≠ .previousResponseId) m (fun _ => nofun) (fun _ => nofun)
    fun _ => nofun
  exact hmade.imp fun made hmade => markers_of_made hm (List.forall_mem_singleton.mpr hmade)

theorem keepsMarkers_jobs (r : Resolver σ) (messages : List Message) :
    KeepsMarkers messages (r.jobs messages) := by
  refine keepsMarkers_eachMessage (fun m => ?_) messages
  unfold jobDirective
  split
  · next hrole =>
    have hm : m.role ≠ .previousResponseId :=
      ne_of_apply_ne Role.isJobDirective (by rw [hrole]; decide)
    refine (Act.ensures_true _).bind fun engine _ => (Act.ensures_true _).bind fun job _ =>
      (Act.ensures_true _).bind fun _ _ => ?_
    split
    · exact Act.ensures_pure (markers_of_made hm (List.forall_mem_singleton.mpr nofun))
    · refine (Act.ensures_true _).bind fun text _ => Act.ensures_pure ?_
      exact markers_of_made hm
        (List.forall_mem_cons.mpr ⟨nofun, List.forall_mem_singleton.mpr nofun⟩)
  · exact Act.ensures_pure rfl

theorem keepsMarkers_fileContents (r : Resolver σ) (origin? : Option String)
    (messages : List Message) : KeepsMarkers messages (r.fileContents origin? messages) := by
  refine keepsMarkers_eachMessage (fun m => ?_) messages
  rcases r.fileDirective_cases origin? m with ⟨made, hmade, hbecomes⟩ | ⟨e, he, -⟩
  rotate_left
  · rw [he]
    exact Act.ensures_fail trivial
  rw [hmade]
  refine Act.ensures_pure ?_
  cases hbecomes with
  | kept => rfl
  | file hrole =>
    exact markers_of_made (by simp [hrole]) (List.forall_mem_singleton.mpr nofun)
  | directory hrole =>
    refine markers_of_made (by simp [hrole]) fun x hx => ?_
    obtain ⟨⟨path, contents⟩, -, hx⟩ := List.mem_filterMap.mp hx
    obtain ⟨text, -, rfl⟩ := Option.map_eq_some_iff.mp hx
    exact nofun
  | media hrole =>
    have hm : m.role ≠ .previousResponseId := by
      rcases hrole with hrole | hrole <;> simp [hrole]
    exact markers_of_made hm (List.forall_mem_singleton.mpr hm)

theorem keepsMarkers_afterImports (r : Resolver σ) (origin? : Option String)
    (messages : List Message) : KeepsMarkers messages (r.afterImports origin? messages) := by
  refine (r.keepsMarkers_tasks messages).bind fun made hmade => ?_
  refine (r.keepsMarkers_jobs made).bind fun joined hjoined => ?_
  exact (r.keepsMarkers_fileContents origin? joined).imp fun left hleft =>
    hleft.trans (hjoined.trans hmade)

-- ---------------------------------------------------------------------------
-- Chats that are reached
-- ---------------------------------------------------------------------------

/-- An import or last directive leads to a chat, which has this path and this text. -/
structure Leads (r : Resolver σ) (origin? : Option String) (m : Message) (path text : String) :
    Prop where
  role : m.role = .import_ ∨ m.role = .last
  find : r.find? m.trimmedText origin? = some path
  reads : r.files.readText path = .ok text

/-- A chat is reached by an import or last directive, which is met among messages from an origin or
among those that such a directive takes of a chat. -/
inductive Reaches (r : Resolver σ) :
    Option String → List Message → Message → String → String → Prop
  | here {origin? : Option String} {messages : List Message} {m : Message} {path text : String}
      (hm : m ∈ clean .skip (clear .clear messages)) (h : r.Leads origin? m path text) :
      Reaches r origin? messages m path text
  | through {origin? : Option String} {messages : List Message} {m inner : Message}
      {path text innerPath innerText : String}
      (hm : m ∈ clean .skip (clear .clear messages)) (h : r.Leads origin? m path text)
      (hinner : Reaches r (some path) (r.excerpt m text) inner innerPath innerText) :
      Reaches r origin? messages inner innerPath innerText

/-- No continue directive stands among messages from an origin, or in a chat that is reached. -/
structure Secludes (r : Resolver σ) (origin? : Option String) (messages : List Message) : Prop where
  here : ∀ m ∈ messages, m.role ≠ .continue_
  beyond : ∀ m path text, r.Reaches origin? messages m path text →
    ∀ x ∈ r.scanner.parse text .user, x.role ≠ .continue_

theorem Leads.not_continue {origin? : Option String} {m : Message} {path text : String}
    (h : r.Leads origin? m path text) : m.role ≠ .continue_ := by
  rcases h.role with hrole | hrole <;> simp [hrole]

theorem Leads.not_marker {origin? : Option String} {m : Message} {path text : String}
    (h : r.Leads origin? m path text) : m.role ≠ .previousResponseId := by
  rcases h.role with hrole | hrole <;> simp [hrole]

/-- A directive that goes into a chat leads to it, unless it continues. -/
theorem Enters.exists_leads {chain : List Place} {origin? : Option String} {m : Message}
    {path : String} {here : Place} {chosen : List Message}
    (h : r.Enters chain origin? m path here chosen) (hcontinue : m.role ≠ .continue_) :
    ∃ text, r.Leads origin? m path text ∧ chosen = r.excerpt m text := by
  obtain ⟨text, hread, hchosen⟩ := h.reads
  refine ⟨text, ⟨?_, h.find, hread⟩, hchosen⟩
  have hdirective := h.directive
  revert hdirective hcontinue
  cases m.role <;> simp [Role.isImportDirective]

/-- A directive leads to one chat. -/
theorem Leads.unique {origin? : Option String} {m : Message} {path path' text text' : String}
    (h : r.Leads origin? m path text) (h' : r.Leads origin? m path' text') :
    path = path' ∧ text = text' := by
  obtain rfl := Option.some.inj (h.find.symm.trans h'.find)
  exact ⟨rfl, Except.ok.inj (h.reads.symm.trans h'.reads)⟩

/-- What a directive takes of a chat stands in the chat and is no marker. -/
theorem Leads.mem_excerpt {origin? : Option String} {m : Message} {path text : String}
    (h : r.Leads origin? m path text) {x : Message} (hx : x ∈ r.excerpt m text) :
    x ∈ r.scanner.parse text .user ∧ x.role ≠ .previousResponseId :=
  mem_purge_iff.mp (mem_purge_of_mem_selectImported h.not_continue hx)

/-- What is met from messages on is met among them, or from what their directives take. -/
theorem secludes_iff {origin? : Option String} {messages : List Message} :
    r.Secludes origin? messages ↔
      (∀ m ∈ messages, m.role ≠ .continue_) ∧
      ∀ m ∈ clean .skip (clear .clear messages), ∀ path text, r.Leads origin? m path text →
        (∀ x ∈ r.scanner.parse text .user, x.role ≠ .continue_) ∧
          r.Secludes (some path) (r.excerpt m text) := by
  constructor
  · refine fun h => ⟨h.here, fun m hm path text hleads => ?_⟩
    have hchat := h.beyond m path text (.here hm hleads)
    exact ⟨hchat, fun x hx => hchat x (hleads.mem_excerpt hx).1,
      fun x _ _ hx => h.beyond x _ _ (.through hm hleads hx)⟩
  · rintro ⟨hhere, hleads⟩
    refine ⟨hhere, fun m path text hreaches => ?_⟩
    cases hreaches with
    | here hm h => exact (hleads _ hm _ _ h).1
    | through hm h hinner => exact (hleads _ hm _ _ h).2.beyond _ _ _ hinner

/-- The directives that stay do not continue, and what they take meets no continue directive. -/
theorem Secludes.of_mem_clean {origin? : Option String} {messages : List Message}
    (h : r.Secludes origin? messages) :
    ∀ m ∈ clean .skip (clear .clear messages), m.role ≠ .continue_ ∧
      ∀ path text, r.Leads origin? m path text → r.Secludes (some path) (r.excerpt m text) := by
  obtain ⟨hhere, hleads⟩ := secludes_iff.mp h
  exact fun m hm =>
    ⟨hhere m (mem_of_mem_clean_clear hm), fun path text h => (hleads m hm path text h).2⟩

/-- What is taken of a chat that is reached meets no continue directive either, and no marker is
among it. -/
theorem Secludes.of_reaches {origin? : Option String} {messages : List Message} {m : Message}
    {path text : String} (h : r.Secludes origin? messages)
    (hreaches : r.Reaches origin? messages m path text) :
    r.Secludes (some path) (r.excerpt m text) ∧
      ∀ x ∈ r.excerpt m text, x.role ≠ .previousResponseId := by
  induction hreaches with
  | here hm hleads =>
    exact ⟨(h.of_mem_clean _ hm).2 _ _ hleads, fun x hx => (hleads.mem_excerpt hx).2⟩
  | through hm hleads _ ih => exact ih ((h.of_mem_clean _ hm).2 _ _ hleads)

-- ---------------------------------------------------------------------------
-- Resolving
-- ---------------------------------------------------------------------------

/-- Each directive leads to messages without markers and has none itself, so the markers are those
that stood among the messages. -/
theorem Imports.markers_eq {chain : List Place} {origin? : Option String}
    {messages out : List Message} {w w' : World σ} {es : List Expansion}
    {result : Except Failure (List Message)}
    (h : r.Imports chain origin? messages w es result w') (hresult : result = .ok out)
    (hmessages : ∀ m ∈ messages, m.role ≠ .continue_ ∧
      ∀ path text, r.Leads origin? m path text → r.Secludes (some path) (r.excerpt m text)) :
    markers out = markers messages := by
  induction h generalizing out with
  | nil =>
    obtain rfl := Except.ok.inj hresult
    rfl
  | other hrole _ ih =>
    obtain ⟨others, rfl, rfl⟩ := exists_of_map_eq_ok hresult
    exact markers_append_eq_cons rfl (ih rfl (List.forall_mem_cons.mp hmessages).2)
  | missing | cycle | unreadable | stuck => exact absurd hresult nofun
  | @spliced _ _ m _ _ spliced path _ _ _ _ _ _ _ _ _ henters _ hafter _ ih ihrest =>
    obtain ⟨⟨hcontinue, hsecludes⟩, hrest⟩ := List.forall_mem_cons.mp hmessages
    obtain ⟨others, rfl, rfl⟩ := exists_of_map_eq_ok hresult
    obtain ⟨text, hleads, rfl⟩ := henters.exists_leads hcontinue
    obtain ⟨inner, rfl, hafter⟩ := Act.exists_of_perform_ofFailable_bind hafter
    -- markers go before the chat is resolved, and none comes back from the chats that it names
    have hinner : markers inner = [] := by
      rw [ih rfl (hsecludes path text hleads).of_mem_clean]
      exact markers_clean_clear_eq_nil fun x hx => (hleads.mem_excerpt hx).2
    have hspliced : markers spliced = [] :=
      ((r.keepsMarkers_afterImports _ inner).of_ok hafter).trans hinner
    refine markers_append_eq_cons ?_ (ihrest rfl hrest)
    exact hspliced.trans (markers_eq_nil (List.forall_mem_singleton.mpr hleads.not_marker)).symm

/-- Where no continue directive is met, resolving leaves the markers that the filters leave. -/
theorem Secludes.markers_of_pipeline {chain : List Place} {origin? : Option String}
    {messages out : List Message} {w w' : World σ} (hsecludes : r.Secludes origin? messages)
    (h : (r.pipeline chain origin? messages).perform w = (.ok out, w')) :
    markers out = markers (clean .skip (clear .clear messages)) := by
  obtain ⟨es, imported, w₁, himports, hafter⟩ := exists_imports_of_pipeline h
  have himported := himports.markers_eq rfl hsecludes.of_mem_clean
  exact ((r.keepsMarkers_afterImports origin? imported).of_ok hafter).trans himported

/-- If no continue directive is met, the markers that resolving leaves are those that stand after
the last clear directive and are not empty, in their order. What is taken of a chat that is reached,
however deep, becomes messages without markers. -/
theorem resolveMessages_markers (r : Resolver σ) (messages : List Message)
    (origin? : Option String) (hsecludes : r.Secludes origin? messages) (w w' : World σ)
    (out : List Message) (h : (r.resolveMessages messages origin?).perform w = (.ok out, w')) :
    markers out = (markers (clear .clear messages)).filter (fun m => !m.isEmpty) ∧
    ∀ m path text, r.Reaches origin? messages m path text →
      ∀ chain w w' inner,
        (r.pipeline chain (some path) (r.excerpt m text)).perform w = (.ok inner, w') →
        markers inner = [] := by
  refine ⟨(hsecludes.markers_of_pipeline h).trans (markers_clean _),
    fun m path text hreaches chain w w' inner hinner => ?_⟩
  obtain ⟨hexcerpt, hmarkers⟩ := hsecludes.of_reaches hreaches
  exact (hexcerpt.markers_of_pipeline hinner).trans (markers_clean_clear_eq_nil hmarkers)

/-- A resolver with a chat that takes the last message of another one, and markers in both. -/
def relayResolver : Resolver Unit where
  files :=
    { root :=
        .dir
          [("hello.chat", .file "user: hello\nprevious_response_id: resp_hello".toUTF8),
           ("outer.chat", .file "previous_response_id: resp_outer\nlast: hello.chat".toUTF8)]
      base := [] }

/-- Two chats have a marker each, and of the three markers of the conversation one is empty and one
is cleared. -/
theorem resolveMessages_markers_relay :
    let messages : List Message :=
      [.ofText .previousResponseId "resp_0", .ofText .clear "", .ofText .import_ "outer.chat",
        .ofText .previousResponseId "", .ofText .previousResponseId "resp_1"]
    let out : List Message := [.user "hello", .ofText .previousResponseId "resp_1"]
    relayResolver.Secludes none messages ∧
      (relayResolver.resolveMessages messages none).perform (.start ()) = (.ok out, .start ()) ∧
      markers out = [.ofText .previousResponseId "resp_1"] ∧
      relayResolver.Reaches none messages (.ofText .last "hello.chat") "hello.chat"
        "user: hello\nprevious_response_id: resp_hello" ∧
      (relayResolver.pipeline [] (some "hello.chat") [.user "hello"]).perform (.start ()) =
        (.ok [.user "hello"], .start ()) ∧
      markers [.user "hello"] = [] := by
  intro messages out
  have houter : relayResolver.Leads none (.ofText .import_ "outer.chat") "outer.chat"
      "previous_response_id: resp_outer\nlast: hello.chat" := ⟨Or.inl rfl, rfl, rfl⟩
  have hlast : relayResolver.Leads (some "outer.chat") (.ofText .last "hello.chat") "hello.chat"
      "user: hello\nprevious_response_id: resp_hello" := ⟨Or.inr rfl, rfl, rfl⟩
  have hhello : relayResolver.Secludes (some "hello.chat") [.user "hello"] := by
    refine secludes_iff.mpr ⟨by decide, fun m hm path text h => ?_⟩
    obtain rfl := List.mem_singleton.mp (mem_of_mem_clean_clear hm)
    exact absurd h.role (by decide)
  have hinner : relayResolver.Secludes (some "outer.chat") [.ofText .last "hello.chat"] := by
    refine secludes_iff.mpr ⟨by decide, fun m hm path text h => ?_⟩
    obtain rfl := List.mem_singleton.mp (mem_of_mem_clean_clear hm)
    obtain ⟨rfl, rfl⟩ := hlast.unique h
    exact ⟨by decide, hhello⟩
  have hsecludes : relayResolver.Secludes none messages := by
    refine secludes_iff.mpr ⟨by decide, fun m hm path text h => ?_⟩
    obtain rfl | hm := List.mem_cons.mp (hm : m ∈ [.ofText .import_ "outer.chat", _])
    · obtain ⟨rfl, rfl⟩ := houter.unique h
      exact ⟨by decide, hinner⟩
    · obtain rfl := List.mem_singleton.mp hm
      exact absurd h.role (by decide)
  have hreaches : relayResolver.Reaches none messages (.ofText .last "hello.chat") "hello.chat"
      "user: hello\nprevious_response_id: resp_hello" :=
    .through (m := .ofText .import_ "outer.chat") (by decide) houter (.here (by decide) hlast)
  have hchosen : relayResolver.Enters [] none (.ofText .import_ "outer.chat") "outer.chat"
      ["outer.chat"] [.ofText .last "hello.chat"] :=
    ⟨⟨rfl, rfl, _, rfl⟩, List.not_mem_nil, _, rfl, rfl⟩
  have hanswer : relayResolver.Enters [["outer.chat"]] (some "outer.chat")
      (.ofText .last "hello.chat") "hello.chat" ["hello.chat"] [.user "hello"] :=
    ⟨⟨rfl, rfl, _, rfl⟩, by decide, _, rfl, rfl⟩
  have h : (relayResolver.resolveMessages messages none).perform (.start ()) =
      (.ok out, .start ()) :=
    Resolves.perform_eq ⟨_, _,
      .spliced hchosen
        (.spliced hanswer (.other_ok rfl (.nil _ _ _)) rfl (.nil _ _ _)) rfl
        (.other_ok rfl (.nil _ _ _)), rfl⟩
  have hpipeline : (relayResolver.pipeline [] (some "hello.chat") [.user "hello"]).perform
      (.start ()) = (.ok [.user "hello"], .start ()) :=
    Resolves.perform_eq ⟨_, _, .other_ok rfl (.nil _ _ _), rfl⟩
  obtain ⟨hmarkers, hchats⟩ :=
    relayResolver.resolveMessages_markers messages none hsecludes _ _ out h
  exact ⟨hsecludes, h, hmarkers, hreaches, hpipeline, hchats _ _ _ hreaches _ _ _ _ hpipeline⟩

end Resolver

end Colloquy
