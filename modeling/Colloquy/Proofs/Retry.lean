import Colloquy.Proofs.Act
import Colloquy.Retry

/-!
# Colloquy — laws of retrying

Retrying changes a view of the world in no other way than the operation does: a view that
the operation, waiting and random numbers leave as it is stays as it is, however often the
operation is tried (`RetryPolicy.keeps_execute`). Retrying gives what the operation gives in
the end if it fails less often than it is tried, and each time with an error that is worth
another attempt (`RetryPolicy.Recovers`, `RetryPolicy.perform_execute_eq_ok_iff`).
-/

namespace Colloquy.RetryPolicy

variable {σ α ν : Type} {view : World σ → ν} {clock : Clock σ}

theorem keeps_delayAfter (hrandom : Act.Keeps view clock.random) (e : Error)
    (backoff : Duration) : Act.Keeps view (delayAfter clock e backoff) := by
  unfold delayAfter
  split
  · exact Act.keeps_pure _
  · exact hrandom.bind fun _ => Act.keeps_ofFailable _

theorem keeps_tryAgain (policy : RetryPolicy) (hsleep : ∀ wait, Act.Keeps view (clock.sleep wait))
    (hrandom : Act.Keeps view clock.random) {operation : Act σ α}
    (hoperation : Act.Keeps view operation) (further : Nat) (backoff : Duration) :
    Act.Keeps view (policy.tryAgain clock operation further backoff) := by
  induction further generalizing backoff with
  | zero => exact hoperation
  | succ further ih =>
    rw [tryAgain]
    refine hoperation.attempt.bind fun outcome => ?_
    cases outcome with
    | ok value => exact Act.keeps_pure value
    | error e =>
      dsimp only
      split
      · refine (keeps_delayAfter hrandom e backoff).bind fun wait => ?_
        refine (hsleep wait).bind fun _ => ?_
        exact (Act.keeps_ofFailable _).bind fun next => ih next
      · exact Act.keeps_throw _

theorem keeps_execute (policy : RetryPolicy) (hsleep : ∀ wait, Act.Keeps view (clock.sleep wait))
    (hrandom : Act.Keeps view clock.random) {operation : Act σ α}
    (hoperation : Act.Keeps view operation) : Act.Keeps view (policy.execute clock operation) :=
  policy.keeps_tryAgain hsleep hrandom hoperation _ _

-- ---------------------------------------------------------------------------
-- Success after failures
-- ---------------------------------------------------------------------------

/-- The operation fails so many times with an error that is worth another attempt, each time it is
waited as long as the error or the backoff asks for, and then the operation succeeds. -/
inductive Recovers (policy : RetryPolicy) (clock : Clock σ) (operation : Act σ α) :
    Nat → Duration → World σ → α → World σ → Prop
  | succeeds {backoff : Duration} {w w' : World σ} {a : α}
      (h : operation.perform w = (.ok a, w')) :
      Recovers policy clock operation 0 backoff w a w'
  | fails {failures : Nat} {backoff wait next : Duration} {w w₁ w₂ w₃ w' : World σ} {a : α}
      {e : Error} (h : operation.perform w = (.error (.error e), w₁))
      (hretry : e.isRetryable = true)
      (hdelay : (delayAfter clock e backoff).perform w₁ = (.ok wait, w₂))
      (hsleep : (clock.sleep wait).perform w₂ = (.ok (), w₃))
      (hnext : policy.nextBackoff backoff = .ok next)
      (hrest : Recovers policy clock operation failures next w₃ a w') :
      Recovers policy clock operation (failures + 1) backoff w a w'

theorem Recovers.perform_tryAgain {policy : RetryPolicy} {operation : Act σ α} {failures : Nat}
    {backoff : Duration} {w w' : World σ} {a : α}
    (h : policy.Recovers clock operation failures backoff w a w') {further : Nat}
    (hle : failures ≤ further) :
    (policy.tryAgain clock operation further backoff).perform w = (.ok a, w') := by
  induction h generalizing further with
  | succeeds h =>
    cases further with
    | zero => exact h
    | succ further =>
      rw [tryAgain, Act.perform_bind, Act.perform_attempt, h]
      rfl
  | fails h hretry hdelay hsleep hnext _ ih =>
    obtain ⟨further, rfl⟩ : ∃ k, further = k + 1 := ⟨further - 1, by omega⟩
    rw [tryAgain, Act.perform_bind, Act.perform_attempt, h]
    dsimp only
    rw [if_pos hretry, Act.perform_bind, hdelay]
    dsimp only
    rw [Act.perform_bind, hsleep]
    dsimp only
    rw [hnext]
    exact ih (by omega)

theorem exists_recovers {policy : RetryPolicy} {operation : Act σ α} {further : Nat}
    {backoff : Duration} {w w' : World σ} {a : α}
    (h : (policy.tryAgain clock operation further backoff).perform w = (.ok a, w')) :
    ∃ failures ≤ further, policy.Recovers clock operation failures backoff w a w' := by
  induction further generalizing backoff w with
  | zero => exact ⟨0, Nat.le_refl 0, .succeeds h⟩
  | succ further ih =>
    rw [tryAgain, Act.perform_bind_eq_ok_iff] at h
    obtain ⟨outcome, w₁, hattempt, h⟩ := h
    rw [Act.perform_attempt] at hattempt
    rcases hoperation : operation.perform w with ⟨(e | _) | value, w₂⟩
    · rw [hoperation] at hattempt
      obtain ⟨rfl, rfl⟩ : .error e = outcome ∧ w₂ = w₁ := by simpa using hattempt
      dsimp only at h
      split at h
      · next hretry =>
        rw [Act.perform_bind_eq_ok_iff] at h
        obtain ⟨wait, w₃, hdelay, h⟩ := h
        rw [Act.perform_bind_eq_ok_iff] at h
        obtain ⟨⟨⟩, w₄, hsleep, h⟩ := h
        cases hnext : policy.nextBackoff backoff with
        | error f =>
          rw [hnext] at h
          exact absurd (congrArg Prod.fst h) nofun
        | ok next =>
          rw [hnext] at h
          obtain ⟨failures, hle, hrest⟩ := ih h
          exact ⟨failures + 1, by omega, .fails hoperation hretry hdelay hsleep hnext hrest⟩
      · exact absurd (congrArg Prod.fst h) nofun
    · rw [hoperation] at hattempt
      exact absurd (congrArg Prod.fst hattempt) nofun
    · rw [hoperation] at hattempt
      obtain ⟨rfl, rfl⟩ : .ok value = outcome ∧ w₂ = w₁ := by simpa using hattempt
      obtain ⟨rfl, rfl⟩ : value = a ∧ w₂ = w' := by simpa using h
      exact ⟨0, Nat.zero_le _, .succeeds hoperation⟩

/-- Trying again succeeds if the operation does after fewer failures than there are attempts. -/
theorem perform_execute_eq_ok_iff {policy : RetryPolicy} {operation : Act σ α} {w w' : World σ}
    {a : α} :
    (policy.execute clock operation).perform w = (.ok a, w') ↔
      ∃ failures < policy.attempts,
        policy.Recovers clock operation failures policy.initialBackoff w a w' := by
  have hattempts : 0 < policy.attempts := Nat.le_max_right ..
  constructor
  · intro h
    obtain ⟨failures, hle, hrecovers⟩ := exists_recovers h
    exact ⟨failures, by omega, hrecovers⟩
  · rintro ⟨failures, hlt, hrecovers⟩
    exact hrecovers.perform_tryAgain (by omega)

end Colloquy.RetryPolicy
