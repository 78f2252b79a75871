import Tuwunel.Core.Utils.Time.ExponentialBackoff

/-!
# Peer backoff

The federation service keeps, per server, the failure rows of fixed-width time buckets.  The
span between a server's oldest and newest failing bucket is its streak, capped at `n_max`
(`Service.streak`), and the delay before the next attempt grows as `window * streak²` up to
`MAX_BACKOFF`, with a grace tier for a lone transient failure (`Backoff.delaySecs`).  The cap is
`exponential_backoff_streak_cap(window, MAX_BACKOFF)`, built once from `sender_timeout`
(`Service.build`), and is meant to be a streak past which the curve is flat.

It is not always one.  The curve at the cap falls short of `MAX_BACKOFF` exactly when `86400 /
window` is a positive perfect square with a remainder (`cap_undershoots_iff`), and a cap of one
turns every streak into the grace tier.  Where neither happens the capped verdict is the uncapped
one (`capped_verdict_eq_uncapped`).
-/

namespace Tuwunel
namespace Federation

open Utils

/-- `MAX_BACKOFF.as_secs()`: a day. -/
def maxBackoff : Nat := 86400

/-- `Classification`. -/
inductive Classification
  | transient
  | permanent
  deriving DecidableEq, Repr

/-- `ShouldAttempt`; the retry instant is in seconds since the epoch, `none` where the source falls
back to `SystemTime::now()` because the instant overflows. -/
inductive ShouldAttempt
  | yes
  | no (earliestRetry : Option Nat)
  | deprioritize
  deriving DecidableEq, Repr

/-- `Backoff`: the latest-failure state the verdict is computed from. -/
structure Backoff where
  «class» : Classification
  anchorSecs : Nat
  streak : Nat
  now : Nat
  windowSecs : Nat
  graceSecs : Nat
  deriving DecidableEq, Repr

/-- `Streak`: a server's failure rows folded. -/
structure Streak where
  «class» : Classification
  anchorSecs : Nat
  oldestBucket : Nat
  latestBucket : Nat
  deriving DecidableEq, Repr

/-- The configuration the service is built from. -/
structure Config where
  senderTimeout : Nat
  senderRetryGrace : Nat
  deriving DecidableEq, Repr

/-- The service's fixed parameters. -/
structure Service where
  windowSecs : Nat
  nMax : Nat
  grace : Nat
  deriving DecidableEq, Repr

/-- `Service::build`. -/
def Service.build (config : Config) : Service :=
  let windowSecs := max config.senderTimeout 1
  { windowSecs
    nMax := exponentialBackoffStreakCap windowSecs maxBackoff
    grace := config.senderRetryGrace }

/-- `Service::streak`: the number of buckets from the oldest to the latest, capped at `n_max`. -/
def Service.streak (service : Service) (latestBucket oldestBucket : Nat) : Nat :=
  let span := saturatingAdd (latestBucket - oldestBucket) 1
  min (min span u32Max) service.nMax

/-- `Service::backoff`, at the clock reading `now`. -/
def Service.backoff (service : Service) (run : Streak) (now : Nat) : Backoff where
  «class» := run.class
  anchorSecs := run.anchorSecs
  streak := service.streak run.latestBucket run.oldestBucket
  now := now
  windowSecs := service.windowSecs
  graceSecs := service.grace

/-- `Backoff::delay_secs`. -/
def Backoff.delaySecs (backoff : Backoff) : Nat :=
  match backoff.class with
  | .permanent => maxBackoff
  | .transient =>
      if backoff.streak ≤ 1 ∧ backoff.graceSecs ≠ 0 then min backoff.graceSecs maxBackoff
      else min (saturatingMul (saturatingMul backoff.windowSecs backoff.streak) backoff.streak)
        maxBackoff

/-- `attempt_verdict`. -/
def attemptVerdict (backoff : Backoff) : ShouldAttempt :=
  let earliestSecs := saturatingAdd backoff.anchorSecs backoff.delaySecs
  if earliestSecs ≤ backoff.now then .yes
  else .no (if earliestSecs ≤ i64Max then some earliestSecs else none)

/-- The span of a run of buckets, before the cap. -/
def spanOf (run : Streak) : Nat := min (saturatingAdd (run.latestBucket - run.oldestBucket) 1) u32Max

theorem Service.streak_eq (service : Service) (run : Streak) :
    service.streak run.latestBucket run.oldestBucket = min (spanOf run) service.nMax := rfl

theorem Service.windowSecs_pos (config : Config) : 0 < (Service.build config).windowSecs :=
  lt_max_of_lt_right Nat.one_pos

/-! ## Where the cap falls short -/

/-- The curve at the cap falls short of a day exactly when a day divided by the window is a
positive perfect square and leaves a remainder. -/
theorem cap_undershoots_iff (config : Config) :
    let service := Service.build config
    service.windowSecs * service.nMax ^ 2 < maxBackoff ↔
      0 < maxBackoff / service.windowSecs ∧
        (maxBackoff / service.windowSecs).sqrt * (maxBackoff / service.windowSecs).sqrt =
          maxBackoff / service.windowSecs ∧
        maxBackoff % service.windowSecs ≠ 0 :=
  mul_streakCap_sq_lt_iff (Service.windowSecs_pos config) (by unfold maxBackoff; norm_num)

/-- A saturating quadratic at or above a day is capped at a day. -/
theorem min_curve_eq_maxBackoff {window streak : Nat} (reaches : maxBackoff ≤ window * streak ^ 2) :
    min (saturatingMul (saturatingMul window streak) streak) maxBackoff = maxBackoff := by
  have square : window * streak * streak = window * streak ^ 2 := by rw [sq, Nat.mul_assoc]
  have positive : 1 ≤ streak := by
    rcases Nat.eq_zero_or_pos streak with rfl | positive
    · simp [maxBackoff] at reaches
    · exact positive
  unfold saturatingMul
  apply min_eq_right
  unfold u64Max maxBackoff at *
  rcases le_total (window * streak) (2 ^ 64 - 1) with fits | saturates
  · rw [min_eq_left fits]
    omega
  · rw [min_eq_right saturates]
    have : 2 ^ 64 - 1 ≤ (2 ^ 64 - 1) * streak := Nat.le_mul_of_pos_right _ positive
    omega

/-- Once the curve reaches a day outside the grace tier, a longer streak gives the same delay. -/
theorem delaySecs_flat {backoff : Backoff} {streak : Nat} (longer : backoff.streak ≤ streak)
    (notLone : ¬(backoff.streak ≤ 1 ∧ backoff.graceSecs ≠ 0))
    (reaches : maxBackoff ≤ backoff.windowSecs * backoff.streak ^ 2) :
    ({ backoff with streak := streak } : Backoff).delaySecs = backoff.delaySecs := by
  obtain ⟨cls, anchorSecs, current, now, windowSecs, graceSecs⟩ := backoff
  have longCurve : maxBackoff ≤ windowSecs * streak ^ 2 :=
    reaches.trans (Nat.mul_le_mul_left _ (Nat.pow_le_pow_left longer 2))
  have longNotLone : ¬(streak ≤ 1 ∧ graceSecs ≠ 0) := fun lone =>
    notLone ⟨longer.trans lone.1, lone.2⟩
  cases cls with
  | permanent => rfl
  | transient =>
      simp only [Backoff.delaySecs]
      rw [if_neg notLone, if_neg longNotLone, min_curve_eq_maxBackoff reaches,
        min_curve_eq_maxBackoff longCurve]

/-- Where the curve at the cap reaches a day, and the cap is at least two or there is no grace,
capping the streak never changes the delay, so never the verdict. -/
theorem capped_verdict_eq_uncapped (config : Config) (run : Streak) (now : Nat)
    (reaches : maxBackoff ≤ (Service.build config).windowSecs * (Service.build config).nMax ^ 2)
    (noGrace : 2 ≤ (Service.build config).nMax ∨ config.senderRetryGrace = 0) :
    attemptVerdict ((Service.build config).backoff run now) =
      attemptVerdict { (Service.build config).backoff run now with streak := spanOf run } := by
  set service := Service.build config
  have capped : (service.backoff run now).streak = min (spanOf run) service.nMax := rfl
  rcases le_total (spanOf run) service.nMax with within | beyond
  · -- below the cap the streak is the span itself
    have same : ({ service.backoff run now with streak := spanOf run } : Backoff) =
        service.backoff run now := by
      rw [← min_eq_left within, ← capped]
    rw [same]
  · -- past it the capped streak is the cap, where the curve is already flat
    have atCap : (service.backoff run now).streak = service.nMax := by
      rw [capped, min_eq_right beyond]
    have notLone : ¬((service.backoff run now).streak ≤ 1 ∧
        (service.backoff run now).graceSecs ≠ 0) := by
      rw [atCap]
      rintro ⟨lone, graced⟩
      rcases noGrace with twice | none
      · omega
      · exact graced none
    have flat : ({ service.backoff run now with streak := spanOf run } : Backoff).delaySecs =
        (service.backoff run now).delaySecs :=
      delaySecs_flat (atCap ▸ beyond) notLone (atCap ▸ reaches)
    unfold attemptVerdict
    rw [flat]

theorem build_180 : Service.build ⟨180, 15⟩ = ⟨180, 22, 15⟩ := by
  have quotient : maxBackoff / 180 = 480 := by unfold maxBackoff; norm_num
  have root : (maxBackoff / 180).sqrt = 21 := by
    rw [quotient]
    symm
    exact Nat.eq_sqrt.mpr ⟨by norm_num, by norm_num⟩
  have rounded : (maxBackoff / 180).sqrt * (maxBackoff / 180).sqrt < maxBackoff / 180 := by
    rw [root, quotient]
    norm_num
  have cap : exponentialBackoffStreakCap 180 maxBackoff = 22 := by
    rw [(streakCap_spec (by norm_num) (by unfold maxBackoff; norm_num)).1 rounded, root]
  have window : max 180 1 = 180 := rfl
  simp only [Service.build, window, cap]

/-- The default `sender_timeout` of 180 seconds: the cap is 22, and `180 * 22²` passes a day. -/
theorem capped_verdict_eq_uncapped_default :
    (maxBackoff ≤ (Service.build ⟨180, 15⟩).windowSecs * (Service.build ⟨180, 15⟩).nMax ^ 2 ∧
      (2 ≤ (Service.build ⟨180, 15⟩).nMax ∨ (15 : Nat) = 0)) ∧
    attemptVerdict ((Service.build ⟨180, 15⟩).backoff ⟨.transient, 0, 0, 99⟩ 50000) =
      attemptVerdict { (Service.build ⟨180, 15⟩).backoff ⟨.transient, 0, 0, 99⟩ 50000 with
        streak := spanOf ⟨.transient, 0, 0, 99⟩ } := by
  have reaches : maxBackoff ≤
      (Service.build ⟨180, 15⟩).windowSecs * (Service.build ⟨180, 15⟩).nMax ^ 2 := by
    rw [build_180]
    decide
  have twice : 2 ≤ (Service.build ⟨180, 15⟩).nMax ∨ (15 : Nat) = 0 := by
    rw [build_180]
    decide
  exact ⟨⟨reaches, twice⟩, capped_verdict_eq_uncapped ⟨180, 15⟩ _ _ reaches twice⟩

/-! ## Two windows where the cap changes the verdict -/

theorem build_239 : Service.build ⟨239, 15⟩ = ⟨239, 19, 15⟩ := by
  have quotient : maxBackoff / 239 = 19 ^ 2 := by unfold maxBackoff; norm_num
  have exact : (maxBackoff / 239).sqrt * (maxBackoff / 239).sqrt = maxBackoff / 239 := by
    rw [quotient, Nat.sqrt_eq', sq]
  have cap : exponentialBackoffStreakCap 239 maxBackoff = 19 := by
    rw [(streakCap_spec (by norm_num) (by unfold maxBackoff; norm_num)).2 exact, quotient,
      Nat.sqrt_eq']
    rfl
  have window : max 239 1 = 239 := rfl
  simp only [Service.build, window, cap]

theorem build_100000 : Service.build ⟨100000, 60⟩ = ⟨100000, 1, 60⟩ := by
  have quotient : maxBackoff / 100000 = 0 := by unfold maxBackoff; norm_num
  have exact : (maxBackoff / 100000).sqrt * (maxBackoff / 100000).sqrt = maxBackoff / 100000 := by
    rw [quotient, Nat.sqrt_zero]
  have cap : exponentialBackoffStreakCap 100000 maxBackoff = 1 := by
    rw [(streakCap_spec (by norm_num) (by unfold maxBackoff; norm_num)).2 exact, quotient,
      Nat.sqrt_zero]
    rfl
  have window : max 100000 1 = 100000 := rfl
  simp only [Service.build, window, cap]

/-- With `sender_timeout = 239` a day is `361 = 19²` windows and 121 seconds, so the cap is 19 and
the curve there stops at 86279 seconds: a streak of 20 buckets is retried 121 seconds before the
uncapped streak would be.  With `sender_timeout = 100000` the cap is one, so a streak of two
buckets falls into the grace tier: retried after the 60 seconds of grace instead of a day. -/
theorem streak_cap_changes_verdict :
    (Service.build ⟨239, 15⟩).windowSecs * (Service.build ⟨239, 15⟩).nMax ^ 2 < maxBackoff ∧
      attemptVerdict ((Service.build ⟨239, 15⟩).backoff ⟨.transient, 0, 0, 19⟩ 86279) = .yes ∧
      attemptVerdict { (Service.build ⟨239, 15⟩).backoff ⟨.transient, 0, 0, 19⟩ 86279 with
        streak := spanOf ⟨.transient, 0, 0, 19⟩ } = .no (some 86400) ∧
      maxBackoff ≤ (Service.build ⟨100000, 60⟩).windowSecs * (Service.build ⟨100000, 60⟩).nMax ^ 2 ∧
      attemptVerdict ((Service.build ⟨100000, 60⟩).backoff ⟨.transient, 0, 0, 1⟩ 60) = .yes ∧
      attemptVerdict { (Service.build ⟨100000, 60⟩).backoff ⟨.transient, 0, 0, 1⟩ 60 with
        streak := spanOf ⟨.transient, 0, 0, 1⟩ } = .no (some 86400) := by
  rw [build_239, build_100000]
  decide

end Federation
end Tuwunel
