import Colloquy.Proofs.Run.Rehearsal
import Colloquy.Proofs.Run.Standing
import Colloquy.Proofs.RunOptions.Extraction
import Colloquy.Proofs.Text.Trim

/-!
# Colloquy — resumed runs

A conversation with a marker of a handle goes on from there: the options are taken out
of it, and the first request to a server that keeps conversations goes on under the
handle of the last marker. It holds the messages that stood after that marker, however
many markers and options there are (`Runner.run_resumes`). Where nothing stood after it,
the request holds everything that stood before (`Runner.run_resumes_at_end`).
-/

namespace Colloquy

theorem Message.allBlank_trimmedText (m : Message) :
    Text.allBlank m.trimmedText.toList = Text.allBlank m.text.toList := by
  rw [trimmedText, trimBlank, String.toList_ofList, Text.allBlank_trim]

namespace Runner

variable {σ : Type}

/-- The first request under a handle holds what stood after a place, unless nothing did. -/
theorem initialPending_append (handle : String) (before after : List Message) :
    Progress.initialPending (before ++ after) (some handle) (some before.length) =
      if after = [] then before ++ after else after := by
  cases after with
  | nil => simp [Progress.initialPending]
  | cons m after => simp [Progress.initialPending]

/-- If a conversation is resumed, the first request goes on under the handle of the last marker and
holds the messages that stood after it, without the options, or all messages if none stood after it.
The conversation is resumed unless an option in it cannot be read. -/
theorem run_resumes (r : Runner σ) (hs : r.backend.isStateful = true) (search : FileSearch)
    (files : FileTree) (origin? : Option String) (before after : List Message) (marker : Message)
    (hmarker : marker.role = .previousResponseId)
    (hblank : Text.allBlank marker.text.toList = false)
    (hlast : ∀ m ∈ after, m.role ≠ .previousResponseId)
    (hsets : ∀ m ∈ before ++ marker :: after, ¬ m.SetsHandle) (w : World σ) :
    (∀ e, extractMessages search files (before ++ marker :: after) origin? = .error e →
      ∃ m ∈ before ++ marker :: after, Reading.ofMessage search files origin? m = .error e) ∧
    ∀ kept options,
      extractMessages search files (before ++ marker :: after) origin? = .ok (kept, options) →
      kept = withoutOptions before ++ withoutOptions after ∧
      ∃ turns first rest result w', r.Runs kept options w turns (first :: rest) result w' ∧
        first.options.previousResponseId? = some marker.trimmedText ∧
        first.messages = if withoutOptions after = [] then kept else withoutOptions after := by
  refine ⟨fun e h => exists_of_extractMessages_eq_error h, fun kept options h => ?_⟩
  obtain ⟨rfl, hhandle, hplace⟩ := extractMessages_marker hmarker hlast hsets h
  refine ⟨rfl, ?_⟩
  have htrimmed : Text.allBlank marker.trimmedText.toList = false :=
    marker.allBlank_trimmedText.trans hblank
  have hheld : r.heldHandle? options [] = some marker.trimmedText := by
    have hget : options.get? "previous_response_id" = (some marker.trimmedText).map .str := hhandle
    rw [heldHandle?, if_pos hs, RunOptions.previousResponseId?_of_get? hget]
    simp [latestHandle?, Option.filter, htrimmed]
  obtain ⟨turns, requests, result, w', hruns⟩ := r.exists_runs _ options w
  obtain ⟨first, rest, rfl⟩ := hruns.exists_cons
  refine ⟨turns, first, rest, result, w', hruns, ?_, ?_⟩
  · exact hruns.previousResponseId?_of_held (i := 0) (Nat.zero_lt_succ _) hheld htrimmed
  · have hfirst : first = _ := hruns.getElem_requests 0 (Nat.zero_lt_succ _)
    rw [hfirst]
    show Progress.initialPending _ (r.heldHandle? options []) options.resumeAfter = _
    rw [hheld, hplace, initialPending_append]

/-- A conversation with two markers goes on from the second one, whatever options are in it. -/
theorem run_resumes_twice :
    let before : List Message :=
      [.continuation "resp_1", .user "old", .ofText .option "tone dry", .assistant "old answer"]
    let marker : Message := .continuation "resp_8"
    let after : List Message := [.ofText .model "tiny", .user "new"]
    (Stage.adder true).backend.isStateful = true ∧ marker.role = .previousResponseId ∧
      Text.allBlank marker.text.toList = false ∧
      (∀ m ∈ after, m.role ≠ .previousResponseId) ∧
      (∀ m ∈ before ++ marker :: after, ¬ m.SetsHandle) ∧
      ∃ kept options turns first rest result w',
        extractMessages {} .empty (before ++ marker :: after) none = .ok (kept, options) ∧
        kept = [.user "old", .assistant "old answer", .user "new"] ∧
        (Stage.adder true).Runs kept options (Stage.opening []) turns (first :: rest) result w' ∧
        first.options.previousResponseId? = some "resp_8" ∧ first.messages = [.user "new"] := by
  intro before marker after
  have hlast : ∀ m ∈ after, m.role ≠ .previousResponseId := by decide
  have hsets : ∀ m ∈ before ++ marker :: after, ¬ m.SetsHandle := by
    rintro m hm ⟨hrole, value, hset⟩
    -- one message alone is an option, and of another name
    have hone : ∀ m ∈ before ++ marker :: after, m.role = .option ∨ m.role = .stickyOption →
        m = .ofText .option "tone dry" := by decide
    have hsplit : splitOption (.ofText .option "tone dry") = .ok ("tone", .str "dry") := rfl
    rw [hone m hm hrole, hsplit] at hset
    simp at hset
  have hextract : extractMessages {} .empty (before ++ marker :: after) none =
      .ok ([.user "old", .assistant "old answer", .user "new"],
        { values := [("model", .str "tiny"), ("previous_response_id", .str "resp_8")]
          resumeAfter := some 2 }) := by
    dsimp only [before, marker, after]
    rfl
  obtain ⟨-, turns, first, rest, result, w', hruns, hhandle, hmessages⟩ :=
    ((Stage.adder true).run_resumes rfl {} .empty none before after marker rfl (by decide)
      hlast hsets (Stage.opening [])).2 _ _ hextract
  have hnew : withoutOptions after = [.user "new"] := rfl
  have htrimmed : marker.trimmedText = "resp_8" := by decide
  rw [htrimmed] at hhandle
  rw [hnew, if_neg (List.cons_ne_nil _ _)] at hmessages
  exact ⟨rfl, rfl, by decide, hlast, hsets, _, _, turns, first, rest, result, w', hextract, rfl,
    hruns, hhandle, hmessages⟩

/-- Where nothing stands after the marker, what stands before it is sent again. -/
theorem run_resumes_at_end :
    let messages : List Message :=
      [.user "old", .assistant "old answer", .continuation "resp_8"]
    let replies : List Reply := [{ items := [.text "again"], handle? := some "resp_9" }]
    ∃ kept options turns first rest c w',
      extractMessages {} .empty messages none = .ok (kept, options) ∧
      (Stage.adder true).Runs kept options (Stage.opening replies) turns (first :: rest) (.ok c)
        w' ∧
      first.options.previousResponseId? = some "resp_8" ∧
      first.messages = [.user "old", .assistant "old answer"] := by
  intro messages replies
  let options : RunOptions :=
    { values := [("previous_response_id", .str "resp_8")], resumeAfter := some 2 }
  have hextract : extractMessages {} .empty messages none =
      .ok ([.user "old", .assistant "old answer"], options) := rfl
  have hruns : (Stage.adder true).Runs [.user "old", .assistant "old answer"] options
      (Stage.opening replies) [⟨_, _, _⟩] _ _ _ :=
    History.runs (.finished ⟨rfl, ⟨_, _, rfl, rfl⟩, List.cons_ne_nil _ _⟩ rfl)
  exact ⟨_, _, _, _, _, _, _, hextract, hruns, rfl, rfl⟩

end Runner

end Colloquy
