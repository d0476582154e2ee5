import MycSigner.Delivery.Evidence
import MycSigner.Lib.Machine
import MycSigner.Outbox.Loop
import MycSigner.Recovery

/-!
# Backoff in machine words

The delay before a retry is bounded in three places: where the worker draws its jitter, where
recovery draws its own, and where the next attempt time is computed.  Each writes the same
expression over machine words.  Under an admitted policy none of its operations leaves the
range, so all three compute the bound of the model, and what either generator draws is accepted
by the third.
-/

namespace MycSigner

open Machine

/-! ## The expressions of the source -/

/-- A job with the retry policy of the configuration, which its creation copies. -/
def JobRow.under (job : JobRow) (policy : DeliveryPolicies) : JobRow :=
  { job with
    maxAttempts := policy.maxAttempts
    initialBackoffMs := policy.initialBackoffMs
    maximumBackoffMs := policy.maximumBackoffMs }

/-- The expression that bounds the delay, as all three functions have it. -/
def JobRow.maximumDelay (job : JobRow) (attemptNumber : UInt32) : UInt64 :=
  let exponent := min (saturatingSub attemptNumber 1) 31
  let factor := (checkedShl 1 exponent).getD Machine.u64Max
  min (saturatingMul (.ofNat job.initialBackoffMs) factor) (.ofNat job.maximumBackoffMs)

/-- `next_attempt_time` over words. -/
def nextAttemptTimeWord (job : JobRow) (attemptNumber : UInt32) (jitter observedAt : UInt64) :
    Option UInt64 := do
  guard (jitter ≤ job.maximumDelay attemptNumber)
  let value ← Machine.checkedAdd observedAt jitter
  guard (0 < value.toNat ∧ value.toNat ≤ i64Max)
  return value

/-- A remainder by the bound plus one, with the check of `MycDeliveryRetryJitter::new`; an
addition that overflows has no result. -/
def drawJitter (raw maximumDelay : UInt64) : Option UInt64 := do
  let modulus ← Machine.checkedAdd maximumDelay 1
  let jitter := raw % modulus
  guard (jitter.toNat ≤ 300000)
  return jitter

/-- `delivery_retry_jitter` over words. -/
def deliveryRetryJitterWord (job : JobRow) (attemptNumber : UInt32) (outcome : AttemptOutcome)
    (entropy : UInt64) : Option UInt64 :=
  if outcome = .delivered ∨ job.maxAttempts ≤ attemptNumber.toNat then some 0
  else drawJitter entropy (job.maximumDelay attemptNumber)

/-- `recovery_jitter` over words. -/
def recoveryJitterWord (job : JobRow) (attemptId : Id32) (attemptNumber : UInt32) (entropy : Id32) :
    Option UInt64 :=
  drawJitter (.ofNat (leadingU64 (Sha256.digest
    (domain "radroots.myc.delivery_recovery_jitter.v1" ++ entropy.bytes ++ attemptId.bytes))))
    (job.maximumDelay attemptNumber)

/-! ## What they compute -/

theorem DeliveryPolicies.bounds (policy : DeliveryPolicies) :
    policy.initialBackoffMs ≤ policy.maximumBackoffMs ∧ policy.maximumBackoffMs ≤ 300000 ∧
      policy.maxAttempts ≤ 32 := by
  have hvalid := policy.valid
  simp only [deliveryPolicyValid, Bool.and_eq_true, decide_eq_true_eq] at hvalid
  omega

section Words

variable {policy : DeliveryPolicies} {job : JobRow} {attemptNumber : UInt32}

theorem backoffBound_under (h : attemptNumber.toNat ≤ policy.maxAttempts) :
    backoffBound (job.under policy) attemptNumber.toNat =
      min (policy.initialBackoffMs * 2 ^ (attemptNumber.toNat - 1)) policy.maximumBackoffMs := by
  have hbounds := policy.bounds
  have hexponent : min (attemptNumber.toNat - 1) 31 = attemptNumber.toNat - 1 := by omega
  simp only [backoffBound, JobRow.under, hexponent]

theorem backoffBound_under_le (policy : DeliveryPolicies) (job : JobRow) (attemptNumber : ℕ) :
    backoffBound (job.under policy) attemptNumber ≤ 300000 :=
  (Nat.min_le_right _ _).trans policy.bounds.2.1

/-- No operation of the expression leaves the range of a word. -/
theorem maximumDelay_under :
    ((job.under policy).maximumDelay attemptNumber).toNat =
      backoffBound (job.under policy) attemptNumber.toNat := by
  have hbounds := policy.bounds
  have hexponent : (min (saturatingSub attemptNumber 1) 31).toNat =
      min (attemptNumber.toNat - 1) 31 := by
    rw [toNat_min_u32, saturatingSub_toNat]
    rfl
  obtain ⟨factor, hfactor, hvalue⟩ :=
    checkedShl_one (min (saturatingSub attemptNumber 1) 31) (by omega)
  rw [hexponent] at hvalue
  have hpower : 2 ^ min (attemptNumber.toNat - 1) 31 ≤ 2 ^ 31 :=
    Nat.pow_le_pow_right (by decide) (Nat.min_le_right _ _)
  have hproduct : policy.initialBackoffMs * 2 ^ min (attemptNumber.toNat - 1) 31 ≤ 300000 * 2 ^ 31 :=
    Nat.mul_le_mul (by omega) hpower
  unfold JobRow.maximumDelay
  dsimp only
  rw [toNat_min_u64, saturatingMul_toNat, hfactor, Option.getD_some, hvalue]
  simp only [JobRow.under, backoffBound, UInt64.toNat_ofNat']
  rw [Nat.mod_eq_of_lt (show policy.initialBackoffMs < 2 ^ 64 by omega),
    Nat.mod_eq_of_lt (show policy.maximumBackoffMs < 2 ^ 64 by omega)]
  omega

theorem drawJitter_eq {raw maximumDelay : UInt64} (h : maximumDelay.toNat ≤ 300000) :
    (drawJitter raw maximumDelay).map UInt64.toNat =
      some (raw.toNat % (maximumDelay.toNat + 1)) := by
  obtain ⟨modulus, hmodulus, hvalue⟩ := checkedAdd_of_lt (a := maximumDelay) (b := 1)
    (by simp; omega)
  have hjitter : (raw % modulus).toNat = raw.toNat % (maximumDelay.toNat + 1) := by
    rw [UInt64.toNat_mod, hvalue]
    rfl
  have hlt : raw.toNat % (maximumDelay.toNat + 1) < maximumDelay.toNat + 1 :=
    Nat.mod_lt _ (by omega)
  unfold drawJitter
  rw [hmodulus]
  simp only [Option.bind_eq_bind, Option.bind_some, guard]
  rw [hjitter, if_pos (by omega)]
  simp [hjitter]

theorem drawJitter_under (raw : UInt64) :
    ∃ jitter, drawJitter raw ((job.under policy).maximumDelay attemptNumber) = some jitter ∧
      jitter.toNat ≤ backoffBound (job.under policy) attemptNumber.toNat := by
  have hbound := backoffBound_under_le policy job attemptNumber.toNat
  have hdrawn : (drawJitter raw ((job.under policy).maximumDelay attemptNumber)).map UInt64.toNat =
      _ := drawJitter_eq (by rw [maximumDelay_under]; exact hbound)
  obtain ⟨jitter, hsome, hvalue⟩ := Option.map_eq_some_iff.mp hdrawn
  refine ⟨jitter, hsome, ?_⟩
  rw [hvalue, maximumDelay_under]
  exact Nat.le_of_lt_succ (Nat.mod_lt _ (by omega))

/-- The worker's jitter of the model is the one that the words compute. -/
theorem deliveryRetryJitter_eq_word (policy : DeliveryPolicies) (job : JobRow)
    (attemptNumber : UInt32) (outcome : AttemptOutcome) (entropy : UInt64) :
    (deliveryRetryJitter (job.under policy) attemptNumber.toNat outcome entropy.toNat).map
        RetryJitter.get =
      (deliveryRetryJitterWord (job.under policy) attemptNumber outcome entropy).map
        UInt64.toNat := by
  have hbound := backoffBound_under_le policy job attemptNumber.toNat
  unfold deliveryRetryJitter deliveryRetryJitterWord
  split
  next => rfl
  next =>
    rw [drawJitter_eq (by rw [maximumDelay_under]; exact hbound), maximumDelay_under]
    have hlt := Nat.mod_lt entropy.toNat
      (show 0 < backoffBound (job.under policy) attemptNumber.toNat + 1 by omega)
    rw [RetryJitter.new, dif_pos (by omega)]
    rfl

/-- The jitter of recovery in the model is the one that the words compute. -/
theorem recoveryJitter_eq_word (policy : DeliveryPolicies) (job : JobRow) (attemptNumber : UInt32)
    (attemptId entropy : Id32) :
    ((recoveryJitter (job.under policy) attemptId attemptNumber.toNat entropy).toOption).map
        RetryJitter.get =
      (recoveryJitterWord (job.under policy) attemptId attemptNumber entropy).map UInt64.toNat := by
  have hbound := backoffBound_under_le policy job attemptNumber.toNat
  unfold recoveryJitter recoveryJitterWord
  generalize Sha256.digest _ = digest
  have hraw : leadingU64 digest < 2 ^ 64 := by
    have hdigest := digest.isLt
    unfold leadingU64
    exact Nat.div_lt_of_lt_mul (by simpa [← pow_add] using hdigest)
  rw [drawJitter_eq (by rw [maximumDelay_under]; exact hbound), maximumDelay_under,
    UInt64.toNat_ofNat', Nat.mod_eq_of_lt hraw]
  have hlt := Nat.mod_lt (leadingU64 digest)
    (show 0 < backoffBound (job.under policy) attemptNumber.toNat + 1 by omega)
  rw [RetryJitter.new, dif_pos (by omega)]
  rfl

theorem nextAttemptTime_eq_some {jitter : RetryJitter} {observedAt : TimeUnixMs} {number next : ℕ} :
    ((nextAttemptTime job number jitter observedAt).toOption).map TimeUnixMs.get = some next ↔
      jitter.get ≤ backoffBound job number ∧ next = observedAt.get + jitter.get ∧
        next ≤ i64Max := by
  have hpos := observedAt.pos
  unfold nextAttemptTime
  by_cases hle : jitter.get ≤ backoffBound job number
  · rw [Except.require, if_pos hle]
    by_cases hfits : observedAt.get + jitter.get ≤ i64Max
    · rw [TimeUnixMs.new, dif_pos ⟨by omega, hfits⟩]
      constructor
      · intro h
        obtain rfl := Option.some.inj h
        exact ⟨hle, rfl, hfits⟩
      · rintro ⟨-, rfl, -⟩
        rfl
    · rw [TimeUnixMs.new, dif_neg fun h => hfits h.2]
      constructor
      · intro h
        cases h
      · rintro ⟨-, rfl, hnext⟩
        exact absurd hnext hfits
  · rw [Except.require, if_neg hle]
    constructor
    · intro h
      cases h
    · exact fun h => absurd h.1 hle

/-- The next attempt time of the model is the one that the words compute. -/
theorem nextAttemptTime_eq_word (jitter : RetryJitter) (observedAt : TimeUnixMs) :
    ((nextAttemptTime (job.under policy) attemptNumber.toNat jitter observedAt).toOption).map
        TimeUnixMs.get =
      (nextAttemptTimeWord (job.under policy) attemptNumber (.ofNat jitter.get)
        (.ofNat observedAt.get)).map UInt64.toNat := by
  have hbound := backoffBound_under_le policy job attemptNumber.toNat
  have hjitter : (UInt64.ofNat jitter.get).toNat = jitter.get := by
    have hbounded := jitter.bounded
    rw [UInt64.toNat_ofNat']
    exact Nat.mod_eq_of_lt (by omega)
  have hobserved : (UInt64.ofNat observedAt.get).toNat = observedAt.get := by
    have hsqlite := observedAt.sqlite
    unfold i64Max at hsqlite
    rw [UInt64.toNat_ofNat']
    exact Nat.mod_eq_of_lt (by omega)
  have hle : UInt64.ofNat jitter.get ≤ (job.under policy).maximumDelay attemptNumber ↔
      jitter.get ≤ backoffBound (job.under policy) attemptNumber.toNat := by
    rw [UInt64.le_iff_toNat_le, hjitter, maximumDelay_under]
  obtain ⟨value, hadd, hvalue⟩ := checkedAdd_of_lt (a := UInt64.ofNat observedAt.get)
    (b := UInt64.ofNat jitter.get) (by
      have hsqlite := observedAt.sqlite
      have hbounded := jitter.bounded
      unfold i64Max at hsqlite
      omega)
  rw [hobserved, hjitter] at hvalue
  unfold nextAttemptTime nextAttemptTimeWord
  rw [hadd]
  by_cases hfits : jitter.get ≤ backoffBound (job.under policy) attemptNumber.toNat
  · rw [guard, if_pos (hle.mpr hfits), Except.require, if_pos hfits]
    by_cases htime : 0 < value.toNat ∧ value.toNat ≤ i64Max
    · simp [guard, htime, TimeUnixMs.new, ← hvalue, Except.ofOption, Except.toOption, bind, Except.bind]
    · simp [guard, htime, TimeUnixMs.new, ← hvalue, Except.ofOption, Except.toOption, bind, Except.bind]
  · rw [guard, if_neg (mt hle.mp hfits), Except.require, if_neg hfits]
    rfl

/-! ## Drawn jitter is accepted -/

/-- A jitter that the worker or recovery draws for an attempt. -/
def JitterDrawn (job : JobRow) (attemptNumber : UInt32) (jitter : RetryJitter) : Prop :=
  (∃ outcome, ∃ entropy : UInt64,
      deliveryRetryJitter job attemptNumber.toNat outcome entropy.toNat = some jitter) ∨
    ∃ attemptId entropy, recoveryJitter job attemptId attemptNumber.toNat entropy = .ok jitter

theorem deliveryRetryJitterWord_drawn (policy : DeliveryPolicies) (job : JobRow)
    (attemptNumber : UInt32) (outcome : AttemptOutcome) (entropy : UInt64) :
    ∃ jitter, deliveryRetryJitterWord (job.under policy) attemptNumber outcome entropy =
        some jitter ∧
      jitter.toNat ≤ backoffBound (job.under policy) attemptNumber.toNat := by
  unfold deliveryRetryJitterWord
  split
  next => exact ⟨0, rfl, Nat.zero_le _⟩
  next => exact drawJitter_under entropy

theorem recoveryJitterWord_drawn (policy : DeliveryPolicies) (job : JobRow)
    (attemptNumber : UInt32) (attemptId entropy : Id32) :
    ∃ jitter, recoveryJitterWord (job.under policy) attemptId attemptNumber entropy = some jitter ∧
      jitter.toNat ≤ backoffBound (job.under policy) attemptNumber.toNat :=
  drawJitter_under _

theorem JitterDrawn.le {jitter : RetryJitter}
    (h : JitterDrawn (job.under policy) attemptNumber jitter) :
    jitter.get ≤ backoffBound (job.under policy) attemptNumber.toNat := by
  rcases h with ⟨outcome, entropy, hdrawn⟩ | ⟨attemptId, entropy, hdrawn⟩
  · have hword := deliveryRetryJitter_eq_word policy job attemptNumber outcome entropy
    obtain ⟨word, hsome, hle⟩ :=
      deliveryRetryJitterWord_drawn policy job attemptNumber outcome entropy
    rw [hdrawn, hsome] at hword
    exact (Option.some.inj hword).trans_le hle
  · have hword := recoveryJitter_eq_word policy job attemptNumber attemptId entropy
    obtain ⟨word, hsome, hle⟩ :=
      recoveryJitterWord_drawn policy job attemptNumber attemptId entropy
    rw [hdrawn, hsome] at hword
    exact (Option.some.inj hword).trans_le hle

/-- A jitter within the bound schedules the next attempt, where its time is representable. -/
theorem resolvedTarget_of_le {target : TargetRow} {number : ℕ} {terminal : AttemptStatus}
    {jitter : RetryJitter} {observedAt : TimeUnixMs} (hle : jitter.get ≤ backoffBound job number)
    (hremaining : target.attemptCount < job.maxAttempts)
    (hterminal : terminal = .failed ∨ terminal = .unknown)
    (hfits : observedAt.get + jitter.get ≤ i64Max) :
    ∃ status next, resolvedTarget job target number terminal jitter observedAt =
        .ok (status, some next) ∧ next.get = observedAt.get + jitter.get := by
  have hpos := observedAt.pos
  have hnext : nextAttemptTime job number jitter observedAt =
      .ok ⟨observedAt.get + jitter.get, by omega, hfits⟩ := by
    unfold nextAttemptTime
    rw [Except.require, if_pos hle, TimeUnixMs.new, dif_pos ⟨by omega, hfits⟩]
    rfl
  rcases hterminal with rfl | rfl
  · refine ⟨.retryable, ⟨observedAt.get + jitter.get, by omega, hfits⟩, ?_, rfl⟩
    simp only [resolvedTarget, hremaining, if_true, hnext]
    rfl
  · refine ⟨.unknown, ⟨observedAt.get + jitter.get, by omega, hfits⟩, ?_, rfl⟩
    simp only [resolvedTarget, hremaining, if_true, hnext]
    rfl

end Words

end MycSigner
