import Colloquy.Proofs.Run.Account

/-!
# Colloquy — runs in spite of failures

Sending may fail now and then with an error that is worth another attempt. As long as each
turn is heard before its attempts are used up (`Runner.Endures`), the run takes the same
turns, makes the same requests, reads the same replies, executes the same calls and ends in
the same way as where every request is heard at once (`Runner.run_endures`).

* `Runner.Course` — the history and the account of one run.
* `Runner.Calms` — what failures and waits leave in the world makes no difference to
  anything else in a run.
-/

namespace Colloquy

namespace Runner

variable {σ : Type} {r : Runner σ} {options : RunOptions} {messages : List Message}

-- ---------------------------------------------------------------------------
-- Courses
-- ---------------------------------------------------------------------------

/-- Turns taken, at most so many, from a standing and a world to a result in a world: with the
requests that were made, the replies that were read and the executions of their calls. -/
structure Course (r : Runner σ) (messages : List Message) (options : RunOptions) (left : Nat)
    (p : Progress) (w : World σ) (turns : List Turn) (requests : List Request)
    (replies : List Reply) (executions : List (List Execution))
    (result : Except Failure Completion) (w' : World σ) : Prop where
  history : r.History messages options left p w turns requests result w'
  account : r.Account messages options left p w turns replies executions result w'

namespace Course

variable {left : Nat} {p : Progress} {w w₁ w' : World σ} {body : Json} {reply : Reply}
  {xs : List Execution}

theorem exhausted (p : Progress) (w : World σ) :
    r.Course messages options 0 p w [] [] [] []
      (.error (.error (.turnLimitExceeded r.turnLimit))) w :=
  ⟨.exhausted p w, .exhausted p w⟩

theorem refused {f : Failure}
    (hask : (r.ask (p.turnOptions options) p.pending).perform w = (.error f, w')) :
    r.Course messages options (left + 1) p w [] [p.request options] [] [] (.error f) w' where
  history := .failed (by rw [takeTurn, Act.perform_bind, hask])
  account := .refused hask

theorem stopped {f : Failure}
    (hask : (r.ask (p.turnOptions options) p.pending).perform w = (.ok (body, reply), w₁))
    (h : r.Executes reply.items w₁ xs (.error f) w') :
    r.Course messages options (left + 1) p w [] [p.request options] [reply] [xs] (.error f)
      w' where
  history := by
    apply History.failed
    rw [takeTurn, Act.perform_bind, hask]
    dsimp only
    rw [Act.perform_bind, h.perform_eq]
  account := .stopped hask h

theorem silent
    (hask : (r.ask (p.turnOptions options) p.pending).perform w = (.ok (body, reply), w₁))
    (h : r.Executes reply.items w₁ xs (.ok []) w') :
    r.Course messages options (left + 1) p w [] [p.request options] [reply] [xs]
      (.error (.error (.vendorProtocol r.backend.name "response carried no messages" (some body))))
      w' where
  history := by
    apply History.failed
    rw [takeTurn, Act.perform_bind, hask]
    dsimp only
    rw [Act.perform_bind, h.perform_eq]
    rfl
  account := .silent hask h

/-- The completed turn of a reply to the request that is due. -/
theorem takesBy {output : List Message}
    (hask : (r.ask (p.turnOptions options) p.pending).perform w = (.ok (body, reply), w₁))
    (h : r.Executes reply.items w₁ xs (.ok output) w') (hne : output ≠ []) :
    r.TakesBy options p w ⟨p.request options, reply, output⟩ xs w' :=
  ⟨⟨rfl, ⟨body, w₁, hask, h.perform_eq⟩, hne⟩, body, w₁, hask, h⟩

theorem finished {t : Turn} (h : r.TakesBy options p w t xs w') (hlast : t.awaits = false) :
    r.Course messages options (left + 1) p w [t] [t.request] [t.reply] [xs]
      (.ok (p.finish messages t.output (r.handleAfter p t.reply))) w' :=
  ⟨.finished h.toTakes hlast, .finished h hlast⟩

theorem continued {t : Turn} {turns : List Turn} {requests : List Request}
    {replies : List Reply} {executions : List (List Execution)}
    {result : Except Failure Completion} (h : r.TakesBy options p w t xs w₁)
    (hmore : t.awaits = true)
    (hrest : r.Course messages options left (r.after messages p t) w₁ turns requests replies
      executions result w') :
    r.Course messages options (left + 1) p w (t :: turns) (t.request :: requests)
      (t.reply :: replies) (xs :: executions) result w' :=
  ⟨.continued h.toTakes hmore hrest.history, .continued h hmore hrest.account⟩

end Course

/-- One request was made for each turn, and at most one more, which was not answered. -/
theorem History.take_requests {left : Nat} {p : Progress} {w w' : World σ} {turns : List Turn}
    {requests : List Request} {result : Except Failure Completion}
    (h : r.History messages options left p w turns requests result w') :
    requests.take turns.length = turns.map Turn.request := by
  induction h with
  | exhausted | failed | finished => rfl
  | continued _ _ _ ih => exact congrArg _ ih

-- ---------------------------------------------------------------------------
-- Failures to send
-- ---------------------------------------------------------------------------

/-- The runner with another way to send and other retries. -/
def sending (r : Runner σ) (send : Client → VendorRequest → Act σ Json) (policy : RetryPolicy) :
    Runner σ :=
  { r with backend := { r.backend with send := send }, retry := policy }

/-- Once the request that is due is written, sending it fails less often than it is attempted, each
time with an error that is worth another attempt, and then succeeds. -/
def Hears (r : Runner σ) (options : RunOptions) (p : Progress) (w : World σ) : Prop :=
  ∀ request w₁,
    (r.backend.formatRequest r.client p.pending r.tools (p.turnOptions options)).perform w =
      (.ok request, w₁) →
    ∃ failures < r.retry.attempts, ∃ body w₂,
      r.retry.Recovers r.clock (r.backend.send r.client request) failures r.retry.initialBackoff
        w₁ body w₂

/-- Once the backend is heard, it only remains to read the reply. -/
theorem perform_ask {pending : List Message} {request : VendorRequest} {body : Json}
    {failures : Nat} {w w₁ w₂ : World σ}
    (hformat : (r.backend.formatRequest r.client pending r.tools options).perform w =
      (.ok request, w₁))
    (hlt : failures < r.retry.attempts)
    (hrecovers : r.retry.Recovers r.clock (r.backend.send r.client request) failures
      r.retry.initialBackoff w₁ body w₂) :
    (r.ask options pending).perform w =
      (((r.backend.parseReply body).perform w₂).1.map fun reply => (body, reply),
        ((r.backend.parseReply body).perform w₂).2) := by
  have hexecute := RetryPolicy.perform_execute_eq_ok_iff.mpr ⟨failures, hlt, hrecovers⟩
  rw [ask, Act.perform_bind, hformat]
  dsimp only
  rw [Act.perform_bind, hexecute]
  exact Act.perform_bind_pure (r.backend.parseReply body) _ w₂

/-- Every turn that is taken, of at most so many, is heard. -/
def Endures (r : Runner σ) (messages : List Message) (options : RunOptions) :
    Nat → Progress → World σ → Prop
  | 0, _, _ => True
  | left + 1, p, w =>
    r.Hears options p w ∧
      ∀ t w', r.Takes options p w t w' → t.awaits = true →
        Endures r messages options left (r.after messages p t) w'

/-- A turn that was completed was heard. -/
theorem Takes.hears {p : Progress} {w w' : World σ} {t : Turn} (h : r.Takes options p w t w') :
    r.Hears options p w := by
  intro request w₁ hformat
  obtain ⟨body, w₂, hask, -⟩ := h.exchange
  rw [h.request_eq, ask, Act.perform_bind_eq_ok_iff] at hask
  obtain ⟨request', w₁', hformat', hask⟩ := hask
  obtain ⟨rfl, rfl⟩ : request' = request ∧ w₁' = w₁ := by
    simpa using hformat'.symm.trans hformat
  rw [Act.perform_bind_eq_ok_iff] at hask
  obtain ⟨body', w₃, hexecute, -⟩ := hask
  obtain ⟨failures, hlt, hrecovers⟩ := RetryPolicy.perform_execute_eq_ok_iff.mp hexecute
  exact ⟨failures, hlt, body', w₃, hrecovers⟩

/-- In a completed run every turn was heard. -/
theorem History.endures {left : Nat} {p : Progress} {w w' : World σ} {turns : List Turn}
    {requests : List Request} {c : Completion}
    (h : r.History messages options left p w turns requests (.ok c) w') :
    r.Endures messages options left p w := by
  generalize hresult : Except.ok c = result at h
  induction h with
  | exhausted => trivial
  | failed => simp at hresult
  | finished ht hlast =>
    refine ⟨ht.hears, fun t w'' ht' hmore => ?_⟩
    obtain ⟨rfl, -⟩ := ht'.unique ht
    exact absurd (hlast.symm.trans hmore) Bool.false_ne_true
  | continued ht _ _ ih =>
    refine ⟨ht.hears, fun t w'' ht' _ => ?_⟩
    obtain ⟨rfl, rfl⟩ := ht'.unique ht
    exact ih hresult

/-- Worlds are related in which failures and waits make all the difference. What else a run does is
the same in both. A failure that is worth another attempt, and a wait, are not felt in the second
world; and what is heard in the first world is heard there in another way of sending. -/
structure Calms (r : Runner σ) (send : Client → VendorRequest → Act σ Json)
    (R : World σ → World σ → Prop) : Prop where
  formatRequest : ∀ messages options,
    Act.Respects R (r.backend.formatRequest r.client messages r.tools options)
  parseReply : ∀ body, Act.Respects R (r.backend.parseReply body)
  answer : ∀ call args act, r.dispatcher.Answers r.tools call args act → Act.Respects R act
  send_error : ∀ request e w w' v, R w v →
    (r.backend.send r.client request).perform w = (.error (.error e), w') →
    e.isRetryable = true → R w' v
  send_ok : ∀ request body w w' v, R w v →
    (r.backend.send r.client request).perform w = (.ok body, w') →
    ∃ v', (send r.client request).perform v = (.ok body, v') ∧ R w' v'
  sleep : ∀ wait w w' v, R w v → (r.clock.sleep wait).perform w = (.ok (), w') → R w' v
  random : ∀ n w w' v, R w v → r.clock.random.perform w = (.ok n, w') → R w' v

-- ---------------------------------------------------------------------------
-- The same run without failures
-- ---------------------------------------------------------------------------

namespace Calms

variable {send : Client → VendorRequest → Act σ Json} {R : World σ → World σ → Prop}
  {policy : RetryPolicy} {w w' v : World σ}

theorem delayAfter (h : r.Calms send R) {e : Error} {backoff wait : Duration} (hv : R w v)
    (hdelay : (RetryPolicy.delayAfter r.clock e backoff).perform w = (.ok wait, w')) : R w' v := by
  unfold RetryPolicy.delayAfter at hdelay
  split at hdelay
  · obtain ⟨-, rfl⟩ := Prod.mk.inj hdelay
    exact hv
  · rw [Act.perform_bind_eq_ok_iff] at hdelay
    obtain ⟨n, w₁, hrandom, hscale⟩ := hdelay
    have hv₁ := h.random n w w₁ v hv hrandom
    cases hscaled : backoff.scale (RetryPolicy.jitterFactor n) with
    | error f =>
      rw [hscaled] at hscale
      exact absurd (congrArg Prod.fst hscale) nofun
    | ok d =>
      rw [hscaled] at hscale
      obtain ⟨-, rfl⟩ := Prod.mk.inj hscale
      exact hv₁

/-- What is heard after failures is heard at once where they are not felt. -/
theorem recovers (h : r.Calms send R) {request : VendorRequest} {failures : Nat}
    {backoff : Duration} {body : Json} (hv : R w v)
    (hrecovers : policy.Recovers r.clock (r.backend.send r.client request) failures backoff w body
      w') :
    ∃ v', (send r.client request).perform v = (.ok body, v') ∧ R w' v' := by
  induction hrecovers with
  | succeeds hsend => exact h.send_ok _ _ _ _ _ hv hsend
  | fails hsend hretry hdelay hsleep _ _ ih =>
    have hfailed := h.send_error _ _ _ _ _ hv hsend hretry
    exact ih (h.sleep _ _ _ _ (h.delayAfter hfailed hdelay) hsleep)

/-- The backend is asked the same with the same answer. -/
theorem ask (h : r.Calms send R) (policy : RetryPolicy) {p : Progress} {heard : Except Failure (Json × Reply)}
    (hv : R w v) (hhears : r.Hears options p w)
    (hask : (r.ask (p.turnOptions options) p.pending).perform w = (heard, w')) :
    ∃ v', ((r.sending send policy).ask (p.turnOptions options) p.pending).perform v = (heard, v') ∧
      R w' v' := by
  rcases hformat :
      (r.backend.formatRequest r.client p.pending r.tools (p.turnOptions options)).perform w with
    ⟨f | request, w₁⟩
  · obtain ⟨v₁, hformat', hv₁⟩ := h.formatRequest _ _ hv hformat
    rw [Runner.ask, Act.perform_bind, hformat] at hask
    obtain ⟨rfl, rfl⟩ := Prod.mk.inj hask
    refine ⟨v₁, ?_, hv₁⟩
    rw [Runner.ask]
    exact Act.perform_bind_eq_error_iff.mpr (Or.inl hformat')
  · obtain ⟨v₁, hformat', hv₁⟩ := h.formatRequest _ _ hv hformat
    obtain ⟨failures, hlt, body, w₂, hrecovers⟩ := hhears request w₁ hformat
    obtain ⟨v₂, hsend, hv₂⟩ := h.recovers hv₁ hrecovers
    rcases hparse : (r.backend.parseReply body).perform w₂ with ⟨read, w₃⟩
    obtain ⟨v₃, hparse', hv₃⟩ := h.parseReply body hv₂ hparse
    -- the body was sent for several times here, and once there
    rw [perform_ask hformat hlt hrecovers, hparse] at hask
    have hask' := perform_ask (r := r.sending send policy) hformat' (Nat.le_max_right ..)
      (.succeeds hsend)
    obtain ⟨rfl, rfl⟩ := Prod.mk.inj hask
    refine ⟨v₃, hask'.trans ?_, hv₃⟩
    exact congrArg (fun x => (x.1.map fun reply => (body, reply), x.2)) hparse'

/-- The same calls are executed, with the same outcomes. -/
theorem executes (h : r.Calms send R) (policy : RetryPolicy) {items : List ReplyItem}
    {xs : List Execution} {result : Except Failure (List Message)} (hv : R w v)
    (hx : r.Executes items w xs result w') :
    ∃ v', (r.sending send policy).Executes items v xs result v' ∧ R w' v' := by
  induction hx generalizing v with
  | nil => exact ⟨v, .nil v, hv⟩
  | message _ ih =>
    obtain ⟨v', hrest, hv'⟩ := ih hv
    exact ⟨v', .message hrest, hv'⟩
  | call hanswers houtcome _ ih =>
    obtain ⟨v₁, houtcome', hv₁⟩ := (h.answer _ _ _ hanswers).attempt hv houtcome
    obtain ⟨v', hrest, hv'⟩ := ih hv₁
    exact ⟨v', .call hanswers houtcome' hrest, hv'⟩
  | faulted hanswers hfault =>
    obtain ⟨v', hfault', hv'⟩ := (h.answer _ _ _ hanswers).attempt hv hfault
    exact ⟨v', .faulted hanswers hfault', hv'⟩
  | ignored hignores => exact ⟨v, .ignored hignores, hv⟩

/-- Turns that are all heard are the same where no failure is felt. -/
theorem exists_courses (h : r.Calms send R) (policy : RetryPolicy) {left : Nat} {p : Progress}
    (hv : R w v) (hendures : r.Endures messages options left p w) :
    ∃ turns requests replies executions result w' v',
      r.Course messages options left p w turns requests replies executions result w' ∧
      (r.sending send policy).Course messages options left p v turns requests replies executions
        result v' ∧
      R w' v' := by
  induction left generalizing p w v with
  | zero => exact ⟨_, _, _, _, _, w, v, .exhausted p w, .exhausted p v, hv⟩
  | succ left ih =>
    obtain ⟨hhears, hendures⟩ := hendures
    rcases hask : (r.ask (p.turnOptions options) p.pending).perform w with ⟨f | ⟨body, reply⟩, w₁⟩
    · obtain ⟨v₁, hask', hv₁⟩ := h.ask policy hv hhears hask
      exact ⟨_, _, _, _, _, w₁, v₁, .refused hask, .refused hask', hv₁⟩
    · obtain ⟨v₁, hask', hv₁⟩ := h.ask policy hv hhears hask
      obtain ⟨xs, hx⟩ := r.exists_executes reply.items w₁
      rcases houtputs : (r.outputs reply.items).perform w₁ with ⟨f | output, w₂⟩
      · rw [houtputs] at hx
        obtain ⟨v₂, hx', hv₂⟩ := h.executes policy hv₁ hx
        exact ⟨_, _, _, _, _, w₂, v₂, .stopped hask hx, .stopped hask' hx', hv₂⟩
      · rw [houtputs] at hx
        obtain ⟨v₂, hx', hv₂⟩ := h.executes policy hv₁ hx
        by_cases hne : output = []
        · subst hne
          exact ⟨_, _, _, _, _, w₂, v₂, .silent hask hx, .silent hask' hx', hv₂⟩
        · have ht := Course.takesBy hask hx hne
          have ht' := Course.takesBy hask' hx' hne
          cases hawaits : awaitsReply output with
          | false =>
            exact ⟨_, _, _, _, _, w₂, v₂, .finished ht hawaits, .finished ht' hawaits, hv₂⟩
          | true =>
            obtain ⟨_, _, _, _, _, w', v', hrest, hrest', hv'⟩ :=
              ih hv₂ (hendures _ w₂ ht.toTakes hawaits)
            exact ⟨_, _, _, _, _, w', v', .continued ht hawaits hrest,
              .continued ht' hawaits hrest', hv'⟩

end Calms

/-- Retries make no difference but to the waits. If every turn is heard before its attempts are used
up, the run takes the same turns, with one request for each, reads the same replies, executes the
same calls with the same outcomes, and ends in the same completion or error as where all that is
heard is heard at once, whatever retries are made there. -/
theorem run_endures (r : Runner σ) (send : Client → VendorRequest → Act σ Json)
    (R : World σ → World σ → Prop) (hcalms : r.Calms send R) (messages : List Message)
    (options : RunOptions) (w v : World σ) (hv : R w v)
    (hendures : r.Endures messages options r.turnLimit
      (.start r.backend.isStateful messages options) w) (policy : RetryPolicy) :
    ∃ turns requests replies executions result w' v',
      r.Runs messages options w turns requests result w' ∧
      (r.sending send policy).Runs messages options v turns requests result v' ∧
      r.Account messages options r.turnLimit (.start r.backend.isStateful messages options) w turns
        replies executions result w' ∧
      (r.sending send policy).Account messages options r.turnLimit
        (.start r.backend.isStateful messages options) v turns replies executions result v' ∧
      requests.take turns.length = turns.map Turn.request ∧
      requests.length ≤ turns.length + 1 ∧
      (∀ c, result = .ok c → requests.length = turns.length ∧ c.turns = turns.length) ∧
      R w' v' := by
  obtain ⟨turns, requests, replies, executions, result, w', v', hcourse, hcourse', hv'⟩ :=
    hcalms.exists_courses policy hv hendures
  refine ⟨turns, requests, replies, executions, result, w', v', hcourse.history.runs,
    hcourse'.history.runs, hcourse.account, hcourse'.account, hcourse.history.take_requests,
    hcourse.history.length_requests_le_turns, ?_, hv'⟩
  rintro c rfl
  have hcompletes := hcourse.history.completes
  refine ⟨hcompletes.length_requests, hcompletes.turns_eq.trans ?_⟩
  exact Nat.zero_add _

end Runner

-- ---------------------------------------------------------------------------
-- A rehearsed run with failures
-- ---------------------------------------------------------------------------

namespace Stage

/-- A reply that is no failure worth another attempt. -/
def lasts : ScriptedReply → Bool
  | .sendError e => !e.isRetryable
  | _ => true

/-- The world without failures still to come and without waits. -/
def calm (w : World Stage) : World Stage :=
  { w with
    outer := { w.outer with replies := w.outer.replies.filter lasts, waits := [] } }

/-- Nothing varies the wait after a timeout. -/
theorem perform_delayAfter {backoff wait : Duration}
    (h : backoff.scale (RetryPolicy.jitterFactor middle) = .ok wait) (ms : Nat) (w : World Stage) :
    (RetryPolicy.delayAfter clock (.timeout ms) backoff).perform w = (.ok wait, w) := by
  have hrandom : clock.random.perform w = (.ok middle, w) := rfl
  show (clock.random >>= fun n =>
    Act.ofFailable (backoff.scale (RetryPolicy.jitterFactor n))).perform w = _
  rw [Act.perform_bind, hrandom]
  dsimp only
  rw [h]
  rfl

theorem calms_scribe (policy : RetryPolicy) :
    ({ scribe with retry := policy } : Runner Stage).Calms scribe.backend.send
      fun w v => v = calm w where
  formatRequest := by
    rintro messages options w _ w' result rfl h
    obtain ⟨rfl, rfl⟩ := Prod.mk.inj h
    exact ⟨_, rfl, rfl⟩
  parseReply := by
    rintro body ⟨invented, log, jobs, databases, replies, latest?, sent, waits⟩ _ w' result rfl h
    rcases latest? with _ | _ | reply
    all_goals
      obtain ⟨rfl, rfl⟩ := Prod.mk.inj h
      exact ⟨_, rfl, rfl⟩
  answer := by
    rintro call args act hanswers w _ w' result rfl h
    cases hanswers with
    | executor htool =>
      obtain rfl := List.mem_singleton.mp (List.mem_of_find?_eq_some htool)
      obtain ⟨rfl, rfl⟩ := Prod.mk.inj h
      exact ⟨_, rfl, rfl⟩
    | fallback _ hrun => exact absurd hrun nofun
  send_error := by
    rintro request e ⟨invented, log, jobs, databases, replies, latest?, sent, waits⟩ w' _ rfl h
      hretry
    rcases replies with _ | ⟨e' | e' | reply, rest⟩
    · obtain ⟨-, rfl⟩ := Prod.mk.inj h
      rfl
    · obtain ⟨he, rfl⟩ := Prod.mk.inj h
      obtain rfl : e' = e := by simpa using he
      have hlasts : lasts (.sendError e') = false := by
        rw [lasts, hretry]
        rfl
      simp [calm, hlasts]
    · exact absurd (congrArg Prod.fst h) nofun
    · exact absurd (congrArg Prod.fst h) nofun
  send_ok := by
    rintro request body ⟨invented, log, jobs, databases, replies, latest?, sent, waits⟩ w' _ rfl h
    rcases replies with _ | ⟨e | e | reply, rest⟩
    · exact absurd (congrArg Prod.fst h) nofun
    · exact absurd (congrArg Prod.fst h) nofun
    all_goals
      obtain ⟨hbody, rfl⟩ := Prod.mk.inj h
      obtain rfl := Except.ok.inj hbody
      exact ⟨_, rfl, rfl⟩
  sleep := by
    rintro wait w w' _ rfl h
    obtain ⟨-, rfl⟩ := Prod.mk.inj h
    rfl
  random := by
    rintro n w w' _ rfl h
    obtain ⟨-, rfl⟩ := Prod.mk.inj h
    rfl

end Stage

namespace Runner

/-- Two turns, of which the first is heard after two failures and the second after one. As in the
run without them, the same requests are made and the tool is called once. -/
theorem run_endures_failures :
    let r : Runner Stage := { Stage.scribe with retry := .withAttempts 3 }
    let call : ReplyItem := .call ⟨"c1", "echo", .obj [("text", .str "hi")]⟩
    let w : World Stage :=
      { invented := 0
        outer :=
          { replies :=
              [.sendError (.timeout 5), .sendError (.rateLimited (some 7)),
                .reply { items := [call] }, .sendError (.timeout 9),
                .reply { items := [.text "done"] }] } }
    r.Calms r.backend.send (fun w v => v = Stage.calm w) ∧
      r.Endures [.user "echo"] {} r.turnLimit
        (.start r.backend.isStateful [.user "echo"] {}) w ∧
      (Stage.calm w).outer.replies =
        [.reply { items := [call] }, .reply { items := [.text "done"] }] ∧
      ∃ turns requests c w' v',
        r.Runs [.user "echo"] {} w turns requests (.ok c) w' ∧
        (r.sending r.backend.send {}).Runs [.user "echo"] {} (Stage.calm w) turns requests (.ok c)
          v' ∧
        requests.length = 2 ∧
        w'.outer.waits = [.ofMillis 500, .ofMillis 7, .ofMillis 500] ∧ v'.outer.waits = [] ∧
        Stage.logIn w' = [Stage.callEntry "echo" ⟨[("text", .str "hi")]⟩] ∧
        Stage.logIn v' = Stage.logIn w' := by
  intro r call w
  have hcalms : r.Calms r.backend.send fun w v => v = Stage.calm w :=
    Stage.calms_scribe (.withAttempts 3)
  have hscale : (Duration.ofMillis 500).scale (RetryPolicy.jitterFactor Stage.middle) =
      .ok (.ofMillis 500) := by decide +kernel
  have hdelay := Stage.perform_delayAfter hscale
  have hnext : r.retry.nextBackoff (.ofMillis 500) = .ok (.ofSecs 1) := by decide +kernel
  have hlater : r.retry.nextBackoff (.ofSecs 1) = .ok (.ofSecs 2) := by decide +kernel
  have hfirst :
      r.retry.Recovers r.clock Stage.takeReply 2 (.ofMillis 500)
        ((r.backend.formatRequest r.client [.user "echo"] r.tools {}).perform w).2
        Stage.replyBody _ :=
    .fails rfl rfl (hdelay _ _) rfl hnext (.fails rfl rfl rfl rfl hlater (.succeeds rfl))
  have hsecond : ∀ w : World Stage,
      w.outer.replies = [.sendError (.timeout 9), .reply { items := [.text "done"] }] →
      r.retry.Recovers r.clock Stage.takeReply 1 (.ofMillis 500) w Stage.replyBody
        { w with
          outer :=
            { w.outer with
              replies := [], latest? := some (.ok { items := [.text "done"] })
              waits := w.outer.waits ++ [.ofMillis 500] } } := by
    rintro ⟨invented, log, jobs, databases, replies, latest?, sent, waits⟩ rfl
    exact .fails rfl rfl (hdelay _ _) rfl hnext (.succeeds rfl)
  have hhistory : r.History [.user "echo"] {} r.turnLimit
      (.start r.backend.isStateful [.user "echo"] {}) w [⟨_, _, _⟩, ⟨_, _, _⟩] _ _ _ :=
    .continued
      ⟨rfl, ⟨_, _, perform_ask rfl (by decide) hfirst, rfl⟩, List.cons_ne_nil _ _⟩ rfl
      (.finished
        ⟨rfl, ⟨_, _, perform_ask rfl (by decide) (hsecond _ rfl), rfl⟩, List.cons_ne_nil _ _⟩ rfl)
  obtain ⟨turns, requests, replies, executions, result, w', v', hruns, hruns', -, -, -, -, -,
      rfl⟩ :=
    r.run_endures _ _ hcalms [.user "echo"] {} w _ rfl hhistory.endures {}
  obtain ⟨rfl, rfl, rfl, rfl⟩ := hruns.unique hhistory.runs
  exact ⟨hcalms, hhistory.endures, rfl, _, _, _, _, _, hruns, hruns', rfl, rfl, rfl, rfl, rfl⟩

end Runner

end Colloquy
