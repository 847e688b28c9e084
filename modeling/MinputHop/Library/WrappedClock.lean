/-!
# Deadlines on a clock that wraps

A clock shows the time modulo a period, and a deadline is the time of an event
plus a timeout, taken modulo the period too.  Comparing the two as plain
numbers tells whether the timeout has passed only in some phases of the period.
-/

namespace WrappedClock

/-- Whether a comparison of the wrapped values finds the deadline passed. -/
def Expired (period timeout event now : Nat) : Prop := (event + timeout) % period < now % period

/-- Deadline and clock are in one period, or the clock is in a later one and
already past the deadline's place in it. -/
def Comparable (period timeout event now : Nat) : Prop :=
  (event + timeout) / period = now / period ∨
    (event + timeout) / period < now / period ∧ (event + timeout) % period < now % period
  deriving Decidable

variable {period timeout event now : Nat}

theorem lt_of_div_lt {m n : Nat} (earlier : m / period < n / period) : m < n :=
  Nat.lt_of_not_le fun le => Nat.not_le_of_lt earlier (Nat.div_le_div_right le)

/-- In one period the remainders compare as the numbers do. -/
theorem mod_lt_mod_iff {m n : Nat} (same : m / period = n / period) :
    m % period < n % period ↔ m < n := by
  have splitM := Nat.div_add_mod m period
  have splitN := Nat.div_add_mod n period
  rw [same] at splitM
  omega

/-- A deadline in the next period is always taken for passed. -/
theorem expired_of_next (short : timeout < period) (past : event ≤ now)
    (later : now / period < (event + timeout) / period) : Expired period timeout event now := by
  have splitNow := Nat.div_add_mod now period
  have splitDeadline := Nat.div_add_mod (event + timeout) period
  have apart : period * (now / period) + period ≤ period * ((event + timeout) / period) := by
    rw [← Nat.mul_succ]
    exact Nat.mul_le_mul_left period later
  rw [Expired]
  omega

/-- The comparison tells whether the timeout has passed exactly when deadline and
clock are comparable. -/
theorem expired_iff_iff (short : timeout < period) (past : event ≤ now) :
    (Expired period timeout event now ↔ timeout < now - event) ↔
      Comparable period timeout event now := by
  rcases Nat.lt_trichotomy ((event + timeout) / period) (now / period) with earlier | same | later
  · have passed := lt_of_div_lt earlier
    constructor
    · intro exact'
      exact .inr ⟨earlier, exact'.mpr (by omega)⟩
    · rintro (same | ⟨_, expired⟩)
      · exact absurd same (Nat.ne_of_lt earlier)
      · exact iff_of_true expired (by omega)
  · refine iff_of_true ?_ (.inl same)
    rw [Expired, mod_lt_mod_iff same]
    omega
  · have expired := expired_of_next short past later
    have left := lt_of_div_lt later
    refine iff_of_false (fun exact' => ?_) ?_
    · have passed := exact'.mp expired
      omega
    · rintro (same | ⟨earlier, _⟩)
      · exact absurd same.symm (Nat.ne_of_lt later)
      · exact Nat.lt_asymm earlier later

end WrappedClock
