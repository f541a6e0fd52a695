import Colloquy.Backend.Selection
import Colloquy.Proofs.Retry.Backoff
import Mathlib.Order.Bounds.Basic

/-!
# Colloquy — attempts and waits

An operation has an outcome for each time it is tried, without end (`Act.Plays`). Which of them come
about is told by the outcomes alone: one after another as long as they are errors that are worth
another attempt and attempts remain, with one wait after each but the last
(`RetryPolicy.Tries`). Trying again shows this course in what is recorded
(`RetryPolicy.exists_tries`).

For a request to a server the outcomes are what arrives, and only what is transient is worth another
attempt (`Arrival.IsTransient`, `settles_bodyOf_iff`).

* `RetryPolicy.execute_tries` — how often an operation, or a request, is tried, and with which
  waits and result.
-/

namespace Colloquy

-- ---------------------------------------------------------------------------
-- What is recorded
-- ---------------------------------------------------------------------------

/-- What is recorded of trying an operation. -/
inductive RetryEvent where
  | attempt
  | wait (d : Duration)
  deriving DecidableEq, Repr

variable {σ α : Type}

/-- The clock never fails and records the waits, and its random numbers are below `2 ^ 16`. -/
structure Clock.Records (clock : Clock σ) (log : World σ → List RetryEvent) : Prop where
  sleep : ∀ d w, ∃ w', (clock.sleep d).perform w = (.ok (), w') ∧ log w' = log w ++ [.wait d]
  random : ∀ w, ∃ n < 65536, ∃ w', clock.random.perform w = (.ok n, w') ∧ log w' = log w

/-- Each time it is tried, the operation records the attempt and has the outcome that is next. -/
def Act.Plays (operation : Act σ α) (outcomes : Nat → Except Error α)
    (log : World σ → List RetryEvent) : Prop :=
  ∀ w, ∃ w', operation.perform w =
      ((outcomes ((log w).count .attempt)).mapError Failure.error, w') ∧
    log w' = log w ++ [.attempt]

/-- Nothing is tried again after the outcome: it is a success, or an error that stays. -/
def Settles : Except Error α → Prop
  | .ok _ => True
  | .error e => e.isRetryable = false

-- ---------------------------------------------------------------------------
-- The course of attempts
-- ---------------------------------------------------------------------------

namespace RetryPolicy

variable {policy : RetryPolicy} {clock : Clock σ} {log : World σ → List RetryEvent}
  {outcomes : Nat → Except Error α}

/-- The wait after so many others and this outcome: as long as the error asks for, or else the
backoff, varied by a random number. -/
def Spaces (policy : RetryPolicy) (n : Nat) (outcome : Except Error α) (wait : Duration) : Prop :=
  match outcome with
  | .error (.rateLimited (some ms)) => wait = .ofMillis ms
  | _ => ∃ backoff, policy.backoffAfter n = .ok backoff ∧
      ∃ random < 65536, backoff.scale (jitterFactor random) = .ok wait

/-- After so many attempts, and with so many further ones, the outcomes lead to these waits. -/
inductive Tries (policy : RetryPolicy) (outcomes : Nat → Except Error α) :
    Nat → Nat → List Duration → Prop
  | exhausted (n : Nat) : Tries policy outcomes n 0 []
  | settled {n further : Nat} (h : Settles (outcomes n)) : Tries policy outcomes n further []
  | again {n further : Nat} {wait : Duration} {waits : List Duration}
      (h : ¬ Settles (outcomes n)) (hwait : policy.Spaces n (outcomes n) wait)
      (hrest : Tries policy outcomes (n + 1) further waits) :
      Tries policy outcomes n (further + 1) (wait :: waits)

/-- An attempt, and after each wait another. -/
def events (waits : List Duration) : List RetryEvent :=
  .attempt :: waits.flatMap fun d => [.wait d, .attempt]

theorem count_attempt_events (waits : List Duration) :
    (events waits).count .attempt = waits.length + 1 := by
  induction waits with
  | nil => rfl
  | cons d waits ih =>
    show (.attempt :: .wait d :: events waits : List RetryEvent).count .attempt = _
    rw [List.count_cons_self, List.count_cons_of_ne (by simp), ih]
    rfl

namespace Tries

variable {n further : Nat} {waits : List Duration}

theorem length_le (h : policy.Tries outcomes n further waits) : waits.length ≤ further := by
  induction h with
  | exhausted n => exact Nat.le_refl 0
  | settled _ => exact Nat.zero_le _
  | again _ _ _ ih => exact Nat.succ_le_succ ih

theorem not_settles (h : policy.Tries outcomes n further waits) :
    ∀ i < waits.length, ¬ Settles (outcomes (n + i)) := by
  induction h with
  | exhausted n => exact nofun
  | settled _ => exact nofun
  | again h _ _ ih =>
    intro i hi
    cases i with
    | zero => exact h
    | succ i =>
      rw [Nat.add_comm i, ← Nat.add_assoc]
      exact ih i (Nat.lt_of_succ_lt_succ hi)

theorem last (h : policy.Tries outcomes n further waits) :
    waits.length = further ∨ Settles (outcomes (n + waits.length)) := by
  induction h with
  | exhausted n => exact Or.inl rfl
  | settled h => exact Or.inr h
  | again _ _ _ ih =>
    rw [List.length_cons, Nat.add_comm _ 1, ← Nat.add_assoc]
    exact ih.imp (fun h => by omega) id

theorem spaces (h : policy.Tries outcomes n further waits) :
    ∀ i wait, waits[i]? = some wait → policy.Spaces (n + i) (outcomes (n + i)) wait := by
  induction h with
  | exhausted n => exact nofun
  | settled _ => exact nofun
  | again _ hwait _ ih =>
    intro i wait hi
    cases i with
    | zero =>
      obtain rfl := Option.some.inj hi
      exact hwait
    | succ i =>
      rw [Nat.add_comm i, ← Nat.add_assoc]
      exact ih i wait hi

/-- There are as many attempts as the policy has, or as it takes to the first outcome that
settles. -/
theorem isLeast (h : policy.Tries outcomes 0 (policy.attempts - 1) waits) :
    IsLeast {k | k = max policy.maxAttempts 1 ∨ ∃ i, Settles (outcomes i) ∧ k = i + 1}
      (waits.length + 1) := by
  have hattempts : policy.attempts = max policy.maxAttempts 1 := rfl
  have hle := h.length_le
  have hagain := h.not_settles
  have hlast := h.last
  simp only [Nat.zero_add] at hagain hlast
  constructor
  · rcases hlast with hlast | hsettles
    · exact Or.inl (by omega)
    · exact Or.inr ⟨_, hsettles, rfl⟩
  · rintro k (rfl | ⟨i, hsettles, rfl⟩)
    · omega
    · have hge : ¬ i < waits.length := fun hlt => hagain i hlt hsettles
      omega

/-- There is a wait after an outcome that does not settle, as long as attempts remain. -/
theorem lt_length_iff (h : policy.Tries outcomes 0 (policy.attempts - 1) waits) {i : Nat}
    (hi : i ≤ waits.length) :
    i < waits.length ↔ i + 1 < max policy.maxAttempts 1 ∧ ¬ Settles (outcomes i) := by
  have hattempts : policy.attempts = max policy.maxAttempts 1 := rfl
  have hle := h.length_le
  have hagain := h.not_settles i
  have hlast := h.last
  rw [Nat.zero_add] at hagain hlast
  constructor
  · intro hlt
    exact ⟨by omega, hagain hlt⟩
  · rintro ⟨hleft, hsettles⟩
    rcases hi.lt_or_eq with hlt | rfl
    · exact hlt
    · rcases hlast with hall | hsettles'
      · omega
      · exact absurd hsettles' hsettles

end Tries

-- ---------------------------------------------------------------------------
-- Trying again
-- ---------------------------------------------------------------------------

/-- The wait after an error is one that the outcome and the backoff lead to. -/
theorem exists_delayAfter (hclock : clock.Records log) {n : Nat} {e : Error} {backoff : Duration}
    (hbackoff : policy.backoffAfter n = .ok backoff)
    (hvaries : ∀ random < 65536, ∃ wait, backoff.scale (jitterFactor random) = .ok wait)
    (w : World σ) :
    ∃ wait w', (delayAfter clock e backoff).perform w = (.ok wait, w') ∧ log w' = log w ∧
      policy.Spaces n (.error e : Except Error α) wait := by
  have hrandom : ∃ wait w', (do
        Act.ofFailable (backoff.scale (jitterFactor (← clock.random))) : Act σ Duration).perform w =
          (.ok wait, w') ∧ log w' = log w ∧
      ∃ backoff, policy.backoffAfter n = .ok backoff ∧
        ∃ random < 65536, backoff.scale (jitterFactor random) = .ok wait := by
    obtain ⟨random, hlt, w', hperform, hlog⟩ := hclock.random w
    obtain ⟨wait, hwait⟩ := hvaries random hlt
    refine ⟨wait, w', ?_, hlog, backoff, hbackoff, random, hlt, hwait⟩
    rw [Act.perform_bind, hperform]
    dsimp only
    rw [hwait]
    rfl
  unfold delayAfter Spaces
  split
  · next ms => exact ⟨.ofMillis ms, w, rfl, rfl, rfl⟩
  · next hne =>
    obtain ⟨wait, w', hperform, hlog, hspaces⟩ := hrandom
    refine ⟨wait, w', hperform, hlog, ?_⟩
    split
    · next ms heq => exact absurd (Except.error.inj heq) (hne ms)
    · exact hspaces

/-- After an outcome that settles there is nothing more. -/
theorem perform_tryAgain_of_settles {operation : Act σ α} {outcome : Except Error α}
    {w w₁ : World σ} (hoperation : operation.perform w = (outcome.mapError .error, w₁))
    (hsettles : Settles outcome) (further : Nat) (backoff : Duration) :
    (policy.tryAgain clock operation further backoff).perform w =
      (outcome.mapError .error, w₁) := by
  cases further with
  | zero => exact hoperation
  | succ further =>
    rw [tryAgain, Act.perform_bind, Act.perform_attempt, hoperation]
    cases outcome with
    | ok value => rfl
    | error e =>
      have hstays : ¬ e.isRetryable = true := Bool.eq_false_iff.mp hsettles
      dsimp only [Except.mapError]
      rw [if_neg hstays]
      rfl

/-- After an outcome that does not settle there is a wait, and then all begins again with one
attempt less. -/
theorem exists_tryAgain_step (hclock : clock.Records log) (hfree : policy.FaultFree)
    {operation : Act σ α} {outcome : Except Error α} {n : Nat} {backoff : Duration}
    {w w₁ : World σ} (hoperation : operation.perform w = (outcome.mapError .error, w₁))
    (hsettles : ¬ Settles outcome) (hleft : n + 1 < max policy.maxAttempts 1)
    (hbackoff : policy.backoffAfter n = .ok backoff) (further : Nat) :
    ∃ wait next w₂, policy.Spaces n outcome wait ∧ policy.backoffAfter (n + 1) = .ok next ∧
      log w₂ = log w₁ ++ [.wait wait] ∧
      (policy.tryAgain clock operation (further + 1) backoff).perform w =
        (policy.tryAgain clock operation further next).perform w₂ := by
  cases outcome with
  | ok value => exact absurd trivial hsettles
  | error e =>
    have hretry : e.isRetryable = true := Bool.eq_true_of_not_eq_false hsettles
    obtain ⟨_, next, hbackoff', hvaries, hnext⟩ := hfree n hleft
    obtain rfl := Except.ok.inj (hbackoff.symm.trans hbackoff')
    obtain ⟨wait, w', hdelay, hlog', hspaces⟩ :=
      exists_delayAfter (α := α) hclock (e := e) hbackoff hvaries w₁
    obtain ⟨w₂, hsleep, hlog₂⟩ := hclock.sleep wait w'
    refine ⟨wait, next, w₂, hspaces, backoffAfter_succ hbackoff hnext, hlog' ▸ hlog₂, ?_⟩
    rw [tryAgain, Act.perform_bind, Act.perform_attempt, hoperation]
    dsimp only [Except.mapError]
    rw [if_pos hretry, Act.perform_bind, hdelay]
    dsimp only
    rw [Act.perform_bind, hsleep]
    dsimp only
    rw [hnext]
    rfl

/-- One attempt after another is made as the outcomes tell, the last outcome is the result, and all
this is recorded. -/
theorem exists_tries (hclock : clock.Records log) (hfree : policy.FaultFree) {operation : Act σ α}
    (hplays : operation.Plays outcomes log) {further n : Nat} {backoff : Duration} {w : World σ}
    (hfurther : n + further + 1 = max policy.maxAttempts 1)
    (hbackoff : policy.backoffAfter n = .ok backoff) (hcount : (log w).count .attempt = n) :
    ∃ waits w',
      (policy.tryAgain clock operation further backoff).perform w =
        ((outcomes (n + waits.length)).mapError .error, w') ∧
      log w' = log w ++ events waits ∧ policy.Tries outcomes n further waits := by
  induction further generalizing n backoff w with
  | zero =>
    obtain ⟨w₁, hoperation, hlog₁⟩ := hplays w
    rw [hcount] at hoperation
    exact ⟨[], w₁, hoperation, hlog₁, .exhausted n⟩
  | succ further ih =>
    obtain ⟨w₁, hoperation, hlog₁⟩ := hplays w
    rw [hcount] at hoperation
    by_cases hsettles : Settles (outcomes n)
    · exact ⟨[], w₁, perform_tryAgain_of_settles hoperation hsettles .., hlog₁, .settled hsettles⟩
    · obtain ⟨wait, next, w₂, hspaces, hnext, hlog₂, hstep⟩ :=
        exists_tryAgain_step hclock hfree hoperation hsettles (by omega) hbackoff further
      have hlog : log w₂ = log w ++ [.attempt, .wait wait] := by
        rw [hlog₂, hlog₁, List.append_assoc]
        rfl
      have hcount₂ : (log w₂).count .attempt = n + 1 := by
        rw [hlog, List.count_append, hcount]
        rfl
      obtain ⟨waits, w', hperform, hlog', htries⟩ := ih (by omega) hnext hcount₂
      refine ⟨wait :: waits, w', ?_, ?_, .again hsettles hspaces htries⟩
      · rw [hstep, List.length_cons, Nat.add_comm _ 1, ← Nat.add_assoc]
        exact hperform
      · rw [hlog', hlog, List.append_assoc]
        rfl

/-- The course of all attempts of a policy, where nothing was recorded before. -/
theorem exists_execute_tries (hclock : clock.Records log) (hfree : policy.FaultFree)
    {operation : Act σ α} (hplays : operation.Plays outcomes log) {w : World σ}
    (hw : log w = []) :
    ∃ waits w', (policy.execute clock operation).perform w =
        ((outcomes waits.length).mapError .error, w') ∧
      log w' = events waits ∧ policy.Tries outcomes 0 (policy.attempts - 1) waits := by
  have hattempts : 0 + (policy.attempts - 1) + 1 = max policy.maxAttempts 1 := by
    have hpos : 0 < policy.attempts := Nat.le_max_right ..
    rw [Nat.zero_add, Nat.sub_add_cancel hpos]
    rfl
  obtain ⟨waits, w', hperform, hlog, htries⟩ :=
    exists_tries hclock hfree hplays hattempts rfl (w := w) (by rw [hw]; rfl)
  rw [Nat.zero_add] at hperform
  exact ⟨waits, w', hperform, by rw [hlog, hw]; rfl, htries⟩

end RetryPolicy

-- ---------------------------------------------------------------------------
-- Requests to a server
-- ---------------------------------------------------------------------------

/-- What arrives may be otherwise the next time: the server allows no more requests for now or fails
by itself, a reply of success is no JSON, or no reply came. -/
inductive Arrival.IsTransient : Arrival → Prop
  | rateLimited (text : String) : IsTransient (.answer 429 text)
  | serverError {status : Nat} (text : String) (h : 500 ≤ status ∧ status ≤ 599) :
      IsTransient (.answer status text)
  | notJson {status : Nat} {text : String} (hstatus : 200 ≤ status ∧ status < 300)
      (htext : Json.parse? text = none) : IsTransient (.answer status text)
  | timedOut : IsTransient .timedOut
  | broken (cause : Cause) : IsTransient (.broken cause)

theorem isRetryable_statusError_iff {status : Nat} {text : String} :
    (statusError status text).isRetryable = true ↔
      status = 429 ∨ (500 ≤ status ∧ status ≤ 599) := by
  unfold statusError
  split
  · next h =>
    have hne : ¬ (status = 429 ∨ (500 ≤ status ∧ status ≤ 599)) := by omega
    exact iff_of_false (by simp [Error.isRetryable, Error.category]) hne
  · next hauth =>
    split
    · next h => exact iff_of_true rfl (Or.inl h)
    · next hlimit =>
      have hcategory : Error.statusCategory status =
          if 500 ≤ status ∧ status ≤ 599 then .server else .api := by
        rw [Error.statusCategory, if_neg hauth, if_neg hlimit]
      unfold Error.isRetryable Error.category
      dsimp only
      by_cases h : 500 ≤ status ∧ status ≤ 599
      · rw [hcategory, if_pos h]
        exact iff_of_true rfl (Or.inr h)
      · rw [hcategory, if_neg h]
        exact iff_of_false nofun (not_or_intro hlimit h)

/-- A body settles, whether it is accepted or holds an error. -/
theorem settles_acceptBody (backend : String) (body : Json) :
    Settles (acceptBody backend body) := by
  unfold acceptBody
  split
  · trivial
  · trivial
  · rfl

/-- Nothing is sent again after a body, an error that a body holds, or a status that stays, and only
then. -/
theorem settles_bodyOf_iff {backend : String} {wait : Duration} {arrival : Arrival} :
    Settles (bodyOf backend wait arrival) ↔ ¬ arrival.IsTransient := by
  cases arrival with
  | timedOut => exact iff_of_false nofun (not_not_intro .timedOut)
  | broken cause => exact iff_of_false nofun (not_not_intro (.broken cause))
  | answer status text =>
    unfold bodyOf
    dsimp only
    split
    · next hsuccess =>
      obtain ⟨hlow, hhigh⟩ : 200 ≤ status ∧ status < 300 := by simpa [isSuccess] using hsuccess
      cases hparse : Json.parse? text with
      | none => exact iff_of_false nofun (not_not_intro (.notJson ⟨hlow, hhigh⟩ hparse))
      | some body =>
        refine iff_of_true (settles_acceptBody backend body) fun h => ?_
        cases h with
        | rateLimited => omega
        | serverError _ h => omega
        | notJson _ htext => exact absurd (htext.symm.trans hparse) nofun
    · next hsuccess =>
      have hiff : (¬ (statusError status text).isRetryable = true) ↔
          ¬ (status = 429 ∨ (500 ≤ status ∧ status ≤ 599)) :=
        not_congr isRetryable_statusError_iff
      rw [Bool.not_eq_true] at hiff
      refine hiff.trans (not_congr ⟨?_, fun h => ?_⟩)
      · rintro (rfl | h)
        · exact .rateLimited text
        · exact .serverError text h
      · cases h with
        | rateLimited => exact Or.inl rfl
        | serverError _ h => exact Or.inr h
        | notJson hstatus _ => exact absurd (by simpa [isSuccess] using hstatus) hsuccess

/-- Sending a request has the outcomes that arrive. -/
theorem plays_exchange {transport : Transport σ} {client : Client} {request : VendorRequest}
    {arrivals : Nat → Arrival} {log : World σ → List RetryEvent} (backend : String)
    (hplays : (transport.post (client.endpoint request.path) client.headers client.timeout
      request.body).Plays (fun i => .ok (arrivals i)) log) :
    (exchange transport backend client request).Plays
      (fun i => bodyOf backend client.timeout (arrivals i)) log := by
  intro w
  obtain ⟨w', hpost, hlog⟩ := hplays w
  refine ⟨w', ?_, hlog⟩
  rw [exchange, Act.perform_bind, hpost]
  dsimp only [Except.mapError]
  cases bodyOf backend client.timeout (arrivals ((log w).count .attempt)) <;> rfl

namespace RetryPolicy

/-- An operation is tried until an outcome settles or its attempts are used up, whichever comes
first; the last outcome is the result; there is one wait between two attempts, as long as the error
asks for if it is a rate limit that does, and none after the last. So while attempts remain, a
request to a server is sent again after what is transient, and after nothing else. -/
theorem execute_tries (policy : RetryPolicy) (hfree : policy.FaultFree) (clock : Clock σ)
    (log : World σ → List RetryEvent) (hclock : clock.Records log) :
    (∀ {α : Type} (operation : Act σ α) (outcomes : Nat → Except Error α),
      operation.Plays outcomes log → ∀ w, log w = [] →
      ∃ (k : Nat) (waits : List Duration) (w' : World σ),
        (policy.execute clock operation).perform w =
          ((outcomes (k - 1)).mapError Failure.error, w') ∧
        IsLeast {k | k = max policy.maxAttempts 1 ∨ ∃ i, Settles (outcomes i) ∧ k = i + 1} k ∧
        waits.length + 1 = k ∧
        log w' = .attempt :: waits.flatMap (fun d => [.wait d, .attempt]) ∧
        ∀ i ms wait, outcomes i = .error (.rateLimited (some ms)) → waits[i]? = some wait →
          wait = .ofMillis ms) ∧
    (∀ (kind : BackendKind) (files : FileTree) (transport : Transport σ) (client : Client)
      (request : VendorRequest) (arrivals : Nat → Arrival),
      (transport.post (client.endpoint request.path) client.headers client.timeout
        request.body).Plays (fun i => .ok (arrivals i)) log → ∀ w, log w = [] →
      ∃ (k : Nat) (w' : World σ),
        (policy.execute clock ((kind.backend files transport).send client request)).perform w =
          ((bodyOf kind.name client.timeout (arrivals (k - 1))).mapError Failure.error, w') ∧
        (log w').count .attempt = k ∧ 0 < k ∧
        ∀ i < k, i + 1 < k ↔ i + 1 < max policy.maxAttempts 1 ∧ (arrivals i).IsTransient) := by
  refine ⟨fun operation outcomes hplays w hw => ?_,
    fun kind files transport client request arrivals hplays w hw => ?_⟩
  · obtain ⟨waits, w', hperform, hlog, htries⟩ := exists_execute_tries hclock hfree hplays hw
    refine ⟨waits.length + 1, waits, w', hperform, htries.isLeast, rfl, hlog, ?_⟩
    intro i ms wait houtcome hwait
    have hspaces := htries.spaces i wait hwait
    rw [Nat.zero_add, houtcome] at hspaces
    exact hspaces
  · obtain ⟨waits, w', hperform, hlog, htries⟩ :=
      exists_execute_tries hclock hfree (plays_exchange kind.name hplays) hw
    refine ⟨waits.length + 1, w', hperform, by rw [hlog, count_attempt_events], Nat.succ_pos _, ?_⟩
    intro i hi
    have hagain := htries.lt_length_iff (Nat.le_of_lt_succ hi)
    rw [settles_bodyOf_iff, not_not] at hagain
    rw [← hagain]
    exact Nat.succ_lt_succ_iff

end RetryPolicy

-- ---------------------------------------------------------------------------
-- Attempts on a tape
-- ---------------------------------------------------------------------------

/-- A clock that only records. -/
def Clock.tape : Clock (List RetryEvent) where
  sleep := fun d => Act.modifyOuter (· ++ [.wait d])
  random := pure 32768

theorem Clock.records_tape : tape.Records World.outer where
  sleep := fun _ _ => ⟨_, rfl, rfl⟩
  random := fun w => ⟨32768, by decide, w, rfl, rfl⟩

/-- An operation that has given outcomes, one after another. -/
def Act.tape (outcomes : Nat → Except Error α) : Act (List RetryEvent) α := do
  let events ← Act.outer
  Act.modifyOuter (· ++ [.attempt])
  Act.ofExcept (outcomes (events.count .attempt))

/-- Any outcomes can come about. -/
theorem Act.plays_tape (outcomes : Nat → Except Error α) :
    (tape outcomes).Plays outcomes World.outer := by
  intro w
  refine ⟨{ w with outer := w.outer ++ [.attempt] }, ?_, rfl⟩
  show (Act.ofExcept (outcomes (w.outer.count .attempt)) : Act _ α).perform _ = _
  cases outcomes (w.outer.count .attempt) <;> rfl

namespace RetryPolicy

/-- Of three attempts the first two fail and the third succeeds. -/
theorem execute_tries_third :
    let policy := (withAttempts 3).withBackoff (.ofSecs 1) (.ofSecs 4)
    let outcomes : Nat → Except Error Nat := fun i =>
      if i = 0 then .error (.timeout 5) else if i = 1 then .error (.rateLimited (some 7)) else .ok 5
    let arrivals : Nat → Arrival := fun i =>
      if i = 0 then .answer 503 "busy" else if i = 1 then .answer 200 "[" else .answer 200 "{}"
    let transport : Transport (List RetryEvent) :=
      ⟨fun _ _ _ _ => Act.tape fun i => .ok (arrivals i)⟩
    let client : Client := { url := "http://localhost", model := "m" }
    let request : VendorRequest := ⟨"/api/chat", .null⟩
    policy.FaultFree ∧ Clock.tape.Records World.outer ∧
      (∃ first w', (policy.execute Clock.tape (Act.tape outcomes)).perform (.start []) = (.ok 5, w') ∧
        w'.outer = [.attempt, .wait first, .attempt, .wait (.ofMillis 7), .attempt]) ∧
      ∃ w', (policy.execute Clock.tape
          ((BackendKind.ollama.backend .empty transport).send client request)).perform
            (.start []) = (.ok (.obj []), w') ∧
        w'.outer.count .attempt = 3 := by
  intro policy outcomes arrivals transport client request
  have hfree : policy.FaultFree := faultFree_withBackoff 3 (by decide) (by decide)
  have hclock : Clock.tape.Records World.outer := Clock.records_tape
  obtain ⟨hoperations, hrequests⟩ :=
    policy.execute_tries hfree Clock.tape World.outer hclock
  refine ⟨hfree, hclock, ?_, ?_⟩
  · obtain ⟨k, waits, w', hperform, hleast, hlength, hlog, hasked⟩ :=
      hoperations (Act.tape outcomes) outcomes (Act.plays_tape outcomes) (.start []) rfl
    have hle : k ≤ 3 := hleast.2 (Or.inl rfl)
    have hge : 3 ≤ k := by
      rcases hleast.1 with hall | ⟨i, hsettles, rfl⟩
      · exact hall.ge
      · match i, hsettles with
        | 0, hsettles => exact absurd hsettles nofun
        | 1, hsettles => exact absurd hsettles nofun
        | i + 2, _ => omega
    obtain rfl : k = 3 := by omega
    obtain ⟨first, second, rfl⟩ : ∃ first second, waits = [first, second] :=
      List.length_eq_two.mp (by omega)
    obtain rfl : second = .ofMillis 7 := hasked 1 7 second rfl rfl
    exact ⟨first, w', hperform, hlog⟩
  · obtain ⟨k, w', hperform, hcount, hpos, hrepeated⟩ :=
      hrequests .ollama .empty transport client request arrivals
        (Act.plays_tape fun i => .ok (arrivals i)) (.start []) rfl
    have hfirst : 1 < k := (hrepeated 0 hpos).mpr ⟨by decide, .serverError _ (by decide)⟩
    have hsecond : 2 < k := (hrepeated 1 hfirst).mpr ⟨by decide, .notJson (by decide) rfl⟩
    have hthird : ¬ 3 < k := fun h => absurd ((hrepeated 2 hsecond).mp h).1 (by decide)
    obtain rfl : k = 3 := by omega
    exact ⟨w', hperform, hcount⟩

end RetryPolicy

end Colloquy
