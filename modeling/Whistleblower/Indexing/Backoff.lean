import Whistleblower.Lib.Time
import Whistleblower.Indexing.Retry

namespace document_indexing

theorem Duration.as_nanos_le_max (duration : time.Duration) : duration.as_nanos ≤ MAX :=
  duration.as_nanos_le_max

namespace RetryPolicy

variable (self : RetryPolicy)

/-- The power and the product saturate monotonically. -/
theorem backoff_for_mono (hmultiplier : 0 < self.backoff_multiplier.toNat) {first second : Nat}
    (hle : first ≤ second) : self.backoff_for first ≤ self.backoff_for second := by
  have hpow : self.backoff_multiplier.toNat ^ (first - 1) ≤ self.backoff_multiplier.toNat ^ (second - 1) :=
    Nat.pow_le_pow_right hmultiplier (by omega)
  have hexp : min (self.backoff_multiplier.toNat ^ (first - 1)) (2 ^ 32 - 1) ≤
      min (self.backoff_multiplier.toNat ^ (second - 1)) (2 ^ 32 - 1) := by omega
  have hraw := Nat.mul_le_mul_left self.initial_backoff hexp
  exact min_le_min_right _ (min_le_min_right _ hraw)

/-- Where the power saturates the cap is reached already, and so it is where the
    product does. -/
theorem backoff_for_exact (hmax : self.max_backoff ≤ Duration.MAX)
    (hcap : self.max_backoff ≤ self.initial_backoff * (2 ^ 32 - 1)) (attempt : Nat) :
    self.backoff_for attempt =
      min (self.initial_backoff * self.backoff_multiplier.toNat ^ (attempt - 1)) self.max_backoff := by
  unfold backoff_for
  dsimp only
  by_cases hfits : self.backoff_multiplier.toNat ^ (attempt - 1) ≤ 2 ^ 32 - 1
  · rw [Nat.min_eq_left hfits, Nat.min_assoc, Nat.min_eq_right hmax]
  · have hlarge : 2 ^ 32 - 1 ≤ self.backoff_multiplier.toNat ^ (attempt - 1) := by omega
    have hraw := Nat.mul_le_mul_left self.initial_backoff hlarge
    have hcapped : self.max_backoff ≤ self.initial_backoff * self.backoff_multiplier.toNat ^ (attempt - 1) :=
      hcap.trans hraw
    rw [Nat.min_eq_right hlarge, Nat.min_eq_right hcapped, Nat.min_eq_right (Nat.le_min.mpr ⟨hcap, hmax⟩)]

end RetryPolicy

namespace retry

/-- A policy with its durations as the standard library keeps them. -/
structure RetryPolicy where
  max_attempts : UInt32
  initial_backoff : time.Duration
  backoff_multiplier : UInt32
  max_backoff : time.Duration
  deriving DecidableEq

namespace RetryPolicy

def default : RetryPolicy where
  max_attempts := 5
  initial_backoff := { secs := 0, nanos := 200000000, nanos_lt := by decide }
  backoff_multiplier := 2
  max_backoff := { secs := 10, nanos := 0, nanos_lt := by decide }

/-- The wait after an attempt. A step that panicked would end it with a message. -/
def backoff_for (self : RetryPolicy) (attempt : UInt32) : Except String time.Duration := do
  let exp := u32.saturating_pow self.backoff_multiplier (u32.saturating_sub attempt 1)
  let raw ← self.initial_backoff.saturating_mul exp
  pure (raw.min self.max_backoff)

/-- The policy with its durations as numbers of nanoseconds. -/
def in_nanos (self : RetryPolicy) : document_indexing.RetryPolicy where
  max_attempts := self.max_attempts
  initial_backoff := self.initial_backoff.as_nanos
  backoff_multiplier := self.backoff_multiplier
  max_backoff := self.max_backoff.as_nanos

example : default.in_nanos = .default := by decide

/-- Nothing panics, and the machine's wait is that of exact durations. -/
theorem backoff_for_eq (self : RetryPolicy) (attempt : UInt32) :
    ∃ backoff, self.backoff_for attempt = .ok backoff ∧
      backoff.as_nanos = self.in_nanos.backoff_for attempt.toNat := by
  obtain ⟨raw, hraw, hvalue⟩ := self.initial_backoff.saturating_mul_eq
    (u32.saturating_pow self.backoff_multiplier (u32.saturating_sub attempt 1))
  refine ⟨raw.min self.max_backoff, ?_, ?_⟩
  · rw [backoff_for, hraw]
    rfl
  · rw [time.Duration.as_nanos_min, hvalue, u32.toNat_saturating_pow, u32.toNat_saturating_sub]
    rfl

/-- The wait never panics, stays below the cap and never decreases. It is the exact
    value under the cap wherever the saturated power would reach the cap. -/
theorem backoff_safe (self : RetryPolicy) (hmultiplier : 1 ≤ self.backoff_multiplier) :
    (∀ attempt, ∃ backoff, self.backoff_for attempt = .ok backoff ∧
      backoff.as_nanos ≤ self.max_backoff.as_nanos) ∧
    (∀ first second, first ≤ second → ∃ earlier later, self.backoff_for first = .ok earlier ∧
      self.backoff_for second = .ok later ∧ earlier.as_nanos ≤ later.as_nanos) ∧
    (self.max_backoff.as_nanos ≤ self.initial_backoff.as_nanos * (2 ^ 32 - 1) → ∀ attempt, 1 ≤ attempt →
      ∃ backoff, self.backoff_for attempt = .ok backoff ∧
        backoff.as_nanos = min (self.initial_backoff.as_nanos *
          self.backoff_multiplier.toNat ^ (attempt.toNat - 1)) self.max_backoff.as_nanos) := by
  refine ⟨?capped, ?mono, ?exact⟩
  case capped =>
    intro attempt
    obtain ⟨backoff, hbackoff, hvalue⟩ := self.backoff_for_eq attempt
    refine ⟨backoff, hbackoff, ?_⟩
    rw [hvalue]
    exact self.in_nanos.backoff_for_le_max attempt.toNat
  case mono =>
    intro first second hle
    obtain ⟨earlier, hearlier, hearlier_value⟩ := self.backoff_for_eq first
    obtain ⟨later, hlater, hlater_value⟩ := self.backoff_for_eq second
    refine ⟨earlier, later, hearlier, hlater, ?_⟩
    rw [hearlier_value, hlater_value]
    exact self.in_nanos.backoff_for_mono (UInt32.le_iff_toNat_le.mp hmultiplier) (UInt32.le_iff_toNat_le.mp hle)
  case exact =>
    intro hcap attempt _
    obtain ⟨backoff, hbackoff, hvalue⟩ := self.backoff_for_eq attempt
    refine ⟨backoff, hbackoff, ?_⟩
    rw [hvalue]
    exact self.in_nanos.backoff_for_exact (Duration.as_nanos_le_max self.max_backoff) hcap attempt.toNat

/-- The third wait of the default policy. -/
theorem backoff_safe_default :
    ∃ backoff, default.backoff_for 3 = .ok backoff ∧ backoff.as_nanos = 800000000 := by
  obtain ⟨_, _, hexact⟩ := backoff_safe default (by decide)
  obtain ⟨backoff, hbackoff, hvalue⟩ := hexact (by decide +kernel) 3 (by decide)
  exact ⟨backoff, hbackoff, hvalue.trans (by decide +kernel)⟩

end RetryPolicy

end retry

end document_indexing
