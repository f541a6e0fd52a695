import Colloquy.Proofs.Backend.Connection
import Colloquy.Proofs.Number.Bounds
import Colloquy.Retry

/-!
# Colloquy — backoffs that can be counted

A backoff is varied before it is waited, and made to grow for the next time. Both are arithmetic
with lengths of time, which is a fault beyond 64 bits of seconds. A policy is free of faults if it
comes to no such length before its attempts are used up (`RetryPolicy.FaultFree`). This is so
wherever backoffs are held below `2 ^ 61` seconds and are at most doubled
(`RetryPolicy.faultFree_of_le`).
-/

namespace Colloquy

-- ---------------------------------------------------------------------------
-- Lengths of time times a factor
-- ---------------------------------------------------------------------------

namespace Duration

theorem atMost_toSeconds {d : Duration} {k : Nat}
    (hd : d.totalNanos ≤ (ofSecs (2 ^ k)).totalNanos) (hk : 1 ≤ k) (hk' : k ≤ 1023) :
    d.toSeconds.AtMost (k + 1) := by
  have hsecs : (Binary64.ofNat d.secs).AtMost k := Binary64.atMost_ofNat (by
    exact Nat.div_le_of_le_mul (by rwa [Nat.mul_comm]))
  have hnanos : (Binary64.ofNat d.nanos).AtMost 30 := Binary64.atMost_ofNat (by
    have hlt : d.nanos < nanosPerSecond := Nat.mod_lt _ (by decide)
    unfold nanosPerSecond at hlt
    omega)
  -- a nanosecond is taken for less than two parts in `2 ^ 30`
  have hpart : ((Binary64.ofNat d.nanos).div (Binary64.ofNat nanosPerSecond)).AtMost 1 :=
    Binary64.AtMost.div (j := 29) hnanos (by decide) (by decide +kernel) rfl (by decide +kernel)
      (by decide +kernel)
  exact hsecs.add (hpart.mono hk) hk'

/-- A length of at most `2 ^ 61` seconds can be doubled, and so multiplied by all that is less. -/
theorem exists_scale_eq_ok {d : Duration} {factor : Binary64}
    (hd : d.totalNanos ≤ (ofSecs (2 ^ 61)).totalNanos) (hfactor : factor.AtMost 1) :
    ∃ d', d.scale factor = .ok d' := by
  have hproduct : (factor.mul d.toSeconds).AtMost 63 :=
    hfactor.mul (atMost_toSeconds hd (by decide) (by decide)) (by decide) (by decide)
  have hlength : (factor.mul d.toSeconds).IsLengthOfTime := by
    refine ⟨hproduct.isFinite (by decide), fun h => ?_, ?_⟩
    · exact absurd h (by rw [hproduct.notNegative]; decide)
    · have hle := hproduct.ratio_le
      generalize factor.mul d.toSeconds = x at hle
      have hle' : x.ratio.1 ≤ x.ratio.2 * 2 ^ 63 := by exact_mod_cast hle
      have hpos := x.ratio_snd_pos
      rw [show secondsLimit = 2 ^ 64 from rfl]
      omega
  have hne : ofSeconds? (factor.mul d.toSeconds) ≠ none := fun h =>
    ofSeconds?_eq_none_iff.mp h hlength
  obtain ⟨d', hd'⟩ := Option.ne_none_iff_exists'.mp hne
  exact ⟨d', by rw [scale, ofSeconds, hd']⟩

theorem shorter_le (a b : Duration) : (a.shorter b).totalNanos ≤ b.totalNanos := by
  unfold shorter
  split
  · assumption
  · exact Nat.le_refl _

end Duration

-- ---------------------------------------------------------------------------
-- Backoffs of a policy
-- ---------------------------------------------------------------------------

namespace RetryPolicy

variable {policy : RetryPolicy}

/-- Random numbers below `2 ^ 16` stand for factors of at most two. -/
theorem atMost_jitterFactor {random : Nat} (h : random < 65536) :
    (jitterFactor random).AtMost 1 := by
  have hrandom : (Binary64.ofNat random).AtMost 16 := Binary64.atMost_ofNat (by omega)
  have hshare : ((Binary64.ofNat random).div (Binary64.ofNat 65536)).AtMost 0 :=
    Binary64.AtMost.div (j := 16) hrandom (by decide) (by decide +kernel) rfl (by decide +kernel)
      (by decide +kernel)
  have hhalf : (Binary64.nearest false 1 2).AtMost 0 := Binary64.atMost_nearest (by norm_num)
  have hquarters : (Binary64.nearest false 3 4).AtMost 0 := Binary64.atMost_nearest (by norm_num)
  exact hquarters.add (hshare.mul hhalf (by decide) (by decide)) (by decide)

/-- The backoff after so many waits. -/
def backoffAfter (policy : RetryPolicy) : Nat → Except Failure Duration
  | 0 => .ok policy.initialBackoff
  | n + 1 => do policy.nextBackoff (← policy.backoffAfter n)

theorem backoffAfter_succ {n : Nat} {backoff next : Duration}
    (hbackoff : policy.backoffAfter n = .ok backoff)
    (hnext : policy.nextBackoff backoff = .ok next) :
    policy.backoffAfter (n + 1) = .ok next := by
  rw [backoffAfter, hbackoff]
  exact hnext

/-- Each backoff that comes before the last attempt can be varied and made to grow. -/
def FaultFree (policy : RetryPolicy) : Prop :=
  ∀ n, n + 1 < max policy.maxAttempts 1 → ∃ backoff next,
    policy.backoffAfter n = .ok backoff ∧
    (∀ random < 65536, ∃ wait, backoff.scale (jitterFactor random) = .ok wait) ∧
    policy.nextBackoff backoff = .ok next

/-- Backoffs that are held below `2 ^ 61` seconds and at most doubled lead to no fault. -/
theorem faultFree_of_le (hmultiplier : policy.multiplier.AtMost 1)
    (hinitial : policy.initialBackoff.totalNanos ≤ (Duration.ofSecs (2 ^ 61)).totalNanos)
    (hmost : policy.maxBackoff.totalNanos ≤ (Duration.ofSecs (2 ^ 61)).totalNanos) :
    policy.FaultFree := by
  have hgrows {backoff : Duration}
      (hle : backoff.totalNanos ≤ (Duration.ofSecs (2 ^ 61)).totalNanos) :
      ∃ next, policy.nextBackoff backoff = .ok next ∧
        next.totalNanos ≤ (Duration.ofSecs (2 ^ 61)).totalNanos := by
    obtain ⟨grown, hgrown⟩ := Duration.exists_scale_eq_ok hle hmultiplier
    refine ⟨grown.shorter policy.maxBackoff, ?_, (Duration.shorter_le ..).trans hmost⟩
    rw [nextBackoff, hgrown]
    rfl
  have hbackoff (n : Nat) : ∃ backoff, policy.backoffAfter n = .ok backoff ∧
      backoff.totalNanos ≤ (Duration.ofSecs (2 ^ 61)).totalNanos := by
    induction n with
    | zero => exact ⟨policy.initialBackoff, rfl, hinitial⟩
    | succ n ih =>
      obtain ⟨backoff, hbackoff, hle⟩ := ih
      obtain ⟨next, hnext, hle'⟩ := hgrows hle
      exact ⟨next, backoffAfter_succ hbackoff hnext, hle'⟩
  intro n _
  obtain ⟨backoff, hbackoff, hle⟩ := hbackoff n
  obtain ⟨next, hnext, -⟩ := hgrows hle
  refine ⟨backoff, next, hbackoff, fun random hrandom => ?_, hnext⟩
  exact Duration.exists_scale_eq_ok hle (atMost_jitterFactor hrandom)

theorem faultFree_withBackoff (n : Nat) {initial most : Duration}
    (hinitial : initial.totalNanos ≤ (Duration.ofSecs (2 ^ 61)).totalNanos)
    (hmost : most.totalNanos ≤ (Duration.ofSecs (2 ^ 61)).totalNanos) :
    ((withAttempts n).withBackoff initial most).FaultFree :=
  faultFree_of_le (Binary64.atMost_ofNat (by decide)) hinitial hmost

end RetryPolicy

end Colloquy
