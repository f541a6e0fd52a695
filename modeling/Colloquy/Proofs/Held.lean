import Colloquy.Held
import Colloquy.Proofs.Directive.ToolRegistration
import Colloquy.Proofs.Run.Standing
import Colloquy.Proofs.RunOptions.Extraction

/-!
# Colloquy — what failures leave of what is held

Work on what a caller holds makes of it what the same work makes of a copy, once all of it has
succeeded, and else nothing (`Act.inPlace`, `Resolver.registerToolsHeld_eq`, `extractHeld_eq`,
`Runner.completeHeld_eq`). What the collaborators did until a failure is not undone.

* `failures_leave_held` — where the work can fail, and what is held then.
-/

namespace Colloquy

variable {κ σ α β : Type}

-- ---------------------------------------------------------------------------
-- Worlds in which something is held
-- ---------------------------------------------------------------------------

@[simp]
theorem World.besides_holding (w : World σ) (k : κ) : (w.holding k).besides = w := rfl

@[simp]
theorem World.held_holding (w : World σ) (k : κ) : (w.holding k).held = k := rfl

theorem World.holding_eq_iff {w : World (Holding κ σ)} {v : World σ} {k : κ} :
    w = v.holding k ↔ w.besides = v ∧ w.held = k := by
  constructor
  · rintro rfl
    exact ⟨rfl, rfl⟩
  · rintro ⟨rfl, rfl⟩
    rfl

namespace Act

theorem ext_perform {act act' : Act σ α} (h : ∀ w, act.perform w = act'.perform w) : act = act' :=
  funext h

/-- Work on a copy of what is held, which takes its place if the work succeeds. -/
def inPlace (work : κ → Act σ (α × κ)) : Act (Holding κ σ) α := fun w =>
  match (work w.held).perform w.besides with
  | (.ok (a, k), w') => (.ok a, w'.holding k)
  | (.error f, w') => (.error f, w'.holding w.held)

variable {w w' : World (Holding κ σ)}

theorem perform_getHeld (w : World (Holding κ σ)) :
    (getHeld : Act (Holding κ σ) κ).perform w = (.ok w.held, w) := rfl

theorem perform_beside (act : Act σ α) (w : World (Holding κ σ)) :
    act.beside.perform w =
      ((act.perform w.besides).1, (act.perform w.besides).2.holding w.held) := rfl

theorem perform_inPlace (work : κ → Act σ (α × κ)) (w : World (Holding κ σ)) :
    (inPlace work).perform w =
      match (work w.held).perform w.besides with
      | (.ok (a, k), w') => (.ok a, w'.holding k)
      | (.error f, w') => (.error f, w'.holding w.held) := rfl

/-- Work fails in place as it does on a copy, and what is held is not changed. -/
theorem perform_inPlace_eq_error_iff {work : κ → Act σ (α × κ)} {f : Failure} :
    (inPlace work).perform w = (.error f, w') ↔
      w'.held = w.held ∧ (work w.held).perform w.besides = (.error f, w'.besides) := by
  rw [perform_inPlace]
  rcases (work w.held).perform w.besides with ⟨f' | ⟨a, k⟩, v⟩
  · rw [Prod.mk.injEq, Prod.mk.injEq, Except.error.injEq, Except.error.injEq,
      eq_comm (a := v.holding w.held), World.holding_eq_iff, eq_comm (a := v)]
    tauto
  · simp

/-- Work succeeds in place as it does on a copy, and then the copy is held. -/
theorem perform_inPlace_eq_ok_iff {work : κ → Act σ (α × κ)} {a : α} :
    (inPlace work).perform w = (.ok a, w') ↔
      (work w.held).perform w.besides = (.ok (a, w'.held), w'.besides) := by
  rw [perform_inPlace]
  rcases (work w.held).perform w.besides with ⟨f' | ⟨a', k⟩, v⟩
  · simp
  · rw [Prod.mk.injEq, Prod.mk.injEq, Except.ok.injEq, Except.ok.injEq, Prod.mk.injEq,
      eq_comm (a := v.holding k), World.holding_eq_iff, eq_comm (a := v), eq_comm (a := k)]
    tauto

end Act

-- ---------------------------------------------------------------------------
-- Work in place and on a copy
-- ---------------------------------------------------------------------------

theorem Resolver.registerToolsHeld_eq (r : Resolver σ) (messages : List Message) :
    r.registerToolsHeld messages = Act.inPlace (r.registerTools messages) := by
  refine Act.ext_perform fun w => ?_
  rw [Act.perform_inPlace, registerToolsHeld, registerTools, Act.perform_bind, Act.perform_beside,
    Act.perform_bind]
  rcases (r.registerAll {} messages).perform w.besides with ⟨f | g, v⟩ <;> rfl

theorem extractHeld_eq (search : FileSearch) (files : FileTree) :
    (extractHeld search files : Act (Holding Conversation σ) RunOptions) =
      Act.inPlace fun c => Act.ofExcept ((extract search files c).map Prod.swap) := by
  refine Act.ext_perform fun w => ?_
  rw [Act.perform_inPlace, extractHeld, Act.perform_bind, Act.perform_getHeld]
  dsimp only
  rw [extract, Act.perform_bind]
  rcases extractMessages search files w.held.messages w.held.origin? with e | ⟨kept, options⟩
  · rfl
  · rfl

theorem Runner.completeHeld_eq (r : Runner σ) (options : RunOptions) :
    r.completeHeld options = Act.inPlace fun c => r.complete c options := by
  refine Act.ext_perform fun w => ?_
  rw [Act.perform_inPlace, completeHeld, Act.perform_bind, Act.perform_getHeld]
  dsimp only
  rw [complete, Act.perform_bind, Act.perform_beside, Act.perform_bind]
  rcases (r.run w.held.messages options).perform w.besides with ⟨f | completion, v⟩
  · rfl
  · dsimp only
    rw [Act.perform_bind, Act.perform_bind]
    rcases completion.produced with f | produced <;> rfl

-- ---------------------------------------------------------------------------
-- Where the work fails
-- ---------------------------------------------------------------------------

theorem Resolver.perform_registerTools_eq_error_iff {r : Resolver σ} {messages : List Message}
    {catalogue : Catalogue σ} {w w' : World σ} {f : Failure} :
    (r.registerTools messages catalogue).perform w = (.error f, w') ↔
      ∃ before m after listings w₁, messages = before ++ m :: after ∧
        r.Lists before w listings w₁ ∧ (r.toolsOf m).perform w₁ = (.error f, w') := by
  rw [← perform_registerAll_eq_error_iff (g := {}), registerTools, Act.perform_bind]
  rcases (r.registerAll {} messages).perform w with ⟨f' | g, v⟩
  · simp
  · exact iff_of_false (by simp) (by simp)

theorem extract_eq_error_iff {search : FileSearch} {files : FileTree} {c : Conversation}
    {e : Error} :
    extract search files c = .error e ↔
      ∃ before m after readings, c.messages = before ++ m :: after ∧
        Extraction.ReadsAs search files c.origin? before readings ∧
        Reading.ofMessage search files c.origin? m = .error e := by
  rw [← Extraction.foldlM_step_eq_error_iff (x := {}), ← extractMessages_eq_error_iff, extract]
  rcases extractMessages search files c.messages c.origin? with e' | ⟨kept, options⟩
  · exact ⟨fun h => congrArg _ (Except.error.inj h), fun h => congrArg _ (Except.error.inj h)⟩
  · exact ⟨nofun, nofun⟩

/-- Nothing but what is held is changed by taking options out of it. -/
theorem perform_extractHeld_eq_error_iff {search : FileSearch} {files : FileTree}
    {w w' : World (Holding Conversation σ)} {f : Failure} :
    (extractHeld search files).perform w = (.error f, w') ↔
      w'.held = w.held ∧ w'.besides = w.besides ∧
      ∃ before m after readings e, w.held.messages = before ++ m :: after ∧
        Extraction.ReadsAs search files w.held.origin? before readings ∧
        Reading.ofMessage search files w.held.origin? m = .error e ∧ f = .error e := by
  rw [extractHeld_eq, Act.perform_inPlace_eq_error_iff]
  refine and_congr_right fun _ => ?_
  constructor
  · intro h
    cases hextract : extract search files w.held with
    | ok result =>
      rw [hextract] at h
      exact absurd (congrArg Prod.fst h) nofun
    | error e =>
      rw [hextract] at h
      obtain ⟨hf, hbesides⟩ := Prod.mk.inj h
      obtain ⟨before, m, after, readings, hmessages, hreads, hread⟩ :=
        extract_eq_error_iff.mp hextract
      exact ⟨hbesides.symm, before, m, after, readings, e, hmessages, hreads, hread,
        (Except.error.inj hf).symm⟩
  · rintro ⟨hbesides, before, m, after, readings, e, hmessages, hreads, hread, rfl⟩
    rw [extract_eq_error_iff.mpr ⟨before, m, after, readings, hmessages, hreads, hread⟩, hbesides]
    rfl

namespace Runner

variable {r : Runner σ} {options : RunOptions} {messages : List Message} {w w' : World σ}

/-- What a completed run produced follows the messages of the beginning. -/
theorem Runs.exists_produced {turns : List Turn} {requests : List Request} {c : Completion}
    (h : r.Runs messages options w turns requests (.ok c) w') :
    ∃ produced, c.produced = .ok produced ∧ c.messages = messages ++ produced := by
  have hcompletes := h.history.completes
  have hlength := hcompletes.length_messages
  have hprefix : messages <+: c.messages := by
    rw [hcompletes.messages_eq, List.append_assoc]
    exact List.prefix_append ..
  obtain ⟨produced, hproduced⟩ := hprefix
  refine ⟨produced, ?_, hproduced.symm⟩
  rw [Completion.produced, if_pos (by omega), hlength, Nat.add_sub_cancel, ← hproduced,
    List.drop_left]

theorem perform_complete_eq_error_iff {c : Conversation} {f : Failure} :
    (r.complete c options).perform w = (.error f, w') ↔
      ∃ turns requests, r.Runs c.messages options w turns requests (.error f) w' := by
  obtain ⟨turns, requests, result, v, hruns⟩ := r.exists_runs c.messages options w
  rw [complete, Act.perform_bind, hruns.perform_eq]
  constructor
  · intro h
    cases result with
    | error f' =>
      obtain ⟨hf, rfl⟩ := Prod.mk.inj h
      obtain rfl := Except.error.inj hf
      exact ⟨turns, requests, hruns⟩
    | ok completion =>
      obtain ⟨produced, hproduced, -⟩ := hruns.exists_produced
      dsimp only at h
      rw [hproduced] at h
      exact absurd (congrArg Prod.fst h) nofun
  · rintro ⟨turns', requests', hruns'⟩
    obtain ⟨rfl, rfl, rfl, rfl⟩ := hruns.unique hruns'
    rfl

theorem perform_complete_eq_ok_iff {c c' : Conversation} {completion : Completion} :
    (r.complete c options).perform w = (.ok (completion, c'), w') ↔
      ∃ turns requests produced,
        r.Runs c.messages options w turns requests (.ok completion) w' ∧
        completion.produced = .ok produced ∧ c' = c.extend produced ∧
        c'.messages = completion.messages := by
  obtain ⟨turns, requests, result, v, hruns⟩ := r.exists_runs c.messages options w
  rw [complete, Act.perform_bind, hruns.perform_eq]
  constructor
  · intro h
    cases result with
    | error f => exact absurd (congrArg Prod.fst h) nofun
    | ok completion' =>
      obtain ⟨produced, hproduced, hmessages⟩ := hruns.exists_produced
      dsimp only at h
      rw [hproduced] at h
      obtain ⟨hok, rfl⟩ := Prod.mk.inj h
      obtain ⟨rfl, rfl⟩ := Prod.mk.inj (Except.ok.inj hok)
      exact ⟨turns, requests, produced, hruns, hproduced, rfl, hmessages.symm⟩
  · rintro ⟨turns', requests', produced, hruns', hproduced, rfl, -⟩
    obtain ⟨rfl, rfl, rfl, rfl⟩ := hruns.unique hruns'
    dsimp only
    rw [hproduced]
    rfl

end Runner

/-- Registering tools in a catalogue fails at a message after the tools of those before it were had,
taking options out of a conversation fails at a message after those before it were read, and running
a conversation fails after some turns; whatever was done till then, the catalogue or the
conversation is what it was. If the run is completed, the conversation goes on with exactly what the
run produced, and so has the messages of the completed run. -/
theorem failures_leave_held (resolver : Resolver σ) (search : FileSearch) (files : FileTree)
    (runner : Runner σ) :
    (∀ (messages : List Message) (w w' : World (Holding (Catalogue σ) σ)) (f : Failure),
      (resolver.registerToolsHeld messages).perform w = (.error f, w') ↔
        w'.held = w.held ∧
        ∃ before m after listings w₁, messages = before ++ m :: after ∧
          resolver.Lists before w.besides listings w₁ ∧
          (resolver.toolsOf m).perform w₁ = (.error f, w'.besides)) ∧
    (∀ (w w' : World (Holding Conversation σ)) (f : Failure),
      (extractHeld search files).perform w = (.error f, w') ↔
        w'.held = w.held ∧ w'.besides = w.besides ∧
        ∃ before m after readings e, w.held.messages = before ++ m :: after ∧
          Extraction.ReadsAs search files w.held.origin? before readings ∧
          Reading.ofMessage search files w.held.origin? m = .error e ∧ f = .error e) ∧
    (∀ (options : RunOptions) (w w' : World (Holding Conversation σ)) (f : Failure),
      (runner.completeHeld options).perform w = (.error f, w') ↔
        w'.held = w.held ∧
        ∃ turns requests, runner.Runs w.held.messages options w.besides turns requests (.error f)
          w'.besides) ∧
    (∀ (options : RunOptions) (w w' : World (Holding Conversation σ)) (completion : Completion),
      (runner.completeHeld options).perform w = (.ok completion, w') ↔
        ∃ turns requests produced,
          runner.Runs w.held.messages options w.besides turns requests (.ok completion)
            w'.besides ∧
          completion.produced = .ok produced ∧ w'.held = w.held.extend produced ∧
          w'.held.messages = completion.messages) := by
  refine ⟨fun messages w w' f => ?_, fun w w' f => ?_, fun options w w' f => ?_,
    fun options w w' completion => ?_⟩
  · rw [resolver.registerToolsHeld_eq, Act.perform_inPlace_eq_error_iff,
      Resolver.perform_registerTools_eq_error_iff]
  · exact perform_extractHeld_eq_error_iff
  · rw [runner.completeHeld_eq, Act.perform_inPlace_eq_error_iff,
      Runner.perform_complete_eq_error_iff]
  · rw [runner.completeHeld_eq, Act.perform_inPlace_eq_ok_iff, Runner.perform_complete_eq_ok_iff]

-- what an association registered before the failure stays registered
example :
    let kb : KnowledgeBase (List String) :=
      { databases := pure [], databaseInfo := fun name => pure { name := name },
        children := fun _ _ => pure [], parents := fun _ _ => pure [],
        associationDetails := fun _ _ _ => pure [],
        register := fun name _ _ => Act.modifyOuter (· ++ [name]) }
    let resolver : Resolver (List String) :=
      { files := .empty
        knowledgeBases? := some { load := fun _ => pure kb, session := pure kb } }
    let w : World (Holding (Catalogue (List String)) (List String)) := .start ⟨{}, []⟩
    let failed := (resolver.registerToolsHeld
      [.ofText .association "genes genes.tsv", .ofText .tool ""]).perform w
    failed.1 = .error (.error (.directive "tool" "missing workflow name")) ∧
      failed.2.held.names = [] ∧ failed.2.besides.outer = ["genes"] := by
  decide +kernel

end Colloquy
