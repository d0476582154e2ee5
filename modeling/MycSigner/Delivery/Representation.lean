import MycSigner.Delivery.Runs
import MycSigner.Recovery

/-!
# What the delivery tables represent

The invariant in the terms of the readers: every job can be read, the validation of restart
recovery accepts its attempt histories, and each target says exactly what its last attempt
says.  Finalization is a call of its own here; between transactions it never has anything
left to do.
-/

namespace MycSigner

open Transaction

/-- A call of a delivery operation, or of finalization alone. -/
inductive DeliveryCall where
  | operation (event : DeliveryEvent)
  | finalize (jobId : Id32) (observedAt : TimeUnixMs)

def DeliveryCall.perform (s : Store) : DeliveryCall → Store
  | .operation event => event.perform s
  | .finalize jobId observedAt => ((finalizeJobIfTerminal jobId observedAt).atomically s).2

/-- A target and the attempts that were made for it. -/
structure Represents (job : JobRow) (target : TargetRow) (attempts : List AttemptRow) : Prop where
  count : target.attemptCount = attempts.length
  numbered : attempts.map AttemptRow.attemptNumber = List.range' 1 attempts.length
  bounded : attempts.length ≤ job.maxAttempts
  settled : ∀ attempt ∈ attempts.dropLast, attempt.status.isLive = false
  live : ∀ attempt, attempts.getLast? = some attempt →
    (attempt.status.isLive = true ↔
      target.status.isActive = true ∧ target.activeAttemptId = some attempt.attemptId)
  active : target.status.isActive = true → ∃ attempt, attempts.getLast? = some attempt ∧
    attempt.status.asTarget = some target.status ∧ target.activeAttemptId = some attempt.attemptId
  scheduled : target.status = .retryable ∨
      (target.status = .unknown ∧ target.attemptCount < job.maxAttempts) →
    target.nextAttemptAt.isSome = true

/-! ## One target -/

variable {job : JobRow} {target : TargetRow} {attempts : List AttemptRow}

/-- An active target names its last attempt. -/
theorem LastOk.of_active {last : Option AttemptRow} (h : LastOk job target last)
    (hactive : target.status.isActive = true) :
    ∃ attempt, last = some attempt ∧ attempt.status.asTarget = some target.status ∧
      target.activeAttemptId = some attempt.attemptId := by
  unfold LastOk at h
  cases hstatus : target.status with
  | leased | submitted =>
      rw [hstatus] at h
      obtain ⟨attempt, hlast, hattempt, hid, -⟩ := h
      exact ⟨attempt, hlast, by rw [hattempt]; rfl, hid⟩
  | pending | delivered | retryable | unknown | exhausted =>
      rw [hstatus] at hactive
      cases hactive

theorem LastOk.scheduled {last : Option AttemptRow} (h : LastOk job target last)
    (hwaits : target.status = .retryable ∨
      (target.status = .unknown ∧ target.attemptCount < job.maxAttempts)) :
    target.nextAttemptAt.isSome = true := by
  unfold LastOk at h
  rcases hwaits with hstatus | ⟨hstatus, hleft⟩
  · rw [hstatus] at h
    obtain ⟨attempt, -, -, -, hnext, -⟩ := h
    exact hnext
  · rw [hstatus] at h
    obtain ⟨attempt, -, -, -, hnext⟩ := h
    exact hnext.mpr hleft

theorem AttemptStatus.isLive_of_asTarget {status : AttemptStatus} {target : TargetStatus}
    (h : status.asTarget = some target) : status.isLive = true := by
  cases status with
  | leased | submitted => rfl
  | delivered | failed | unknown => cases h

theorem TargetOk.represents (h : TargetOk job target attempts) :
    Represents job target attempts where
  count := h.count.symm
  numbered := h.numbers
  bounded := h.count ▸ h.bounded
  settled := h.settled
  live := by
    intro attempt hlast
    have hok := hlast ▸ h.last
    constructor
    · intro hlive
      obtain ⟨hstatus, hid⟩ := hok.status_of_live hlive
      refine ⟨?_, hid⟩
      cases hattempt : attempt.status with
      | leased | submitted =>
          rw [hattempt] at hstatus
          obtain hstatus := Option.some.inj hstatus
          rw [← hstatus]
          rfl
      | delivered | failed | unknown =>
          rw [hattempt] at hlive
          cases hlive
    · rintro ⟨hactive, -⟩
      obtain ⟨other, heq, hstatus, -⟩ := hok.of_active hactive
      obtain rfl := Option.some.inj heq
      exact AttemptStatus.isLive_of_asTarget hstatus
  active := fun hactive => h.last.of_active hactive
  scheduled := fun hwaits => h.last.scheduled hwaits

/-- Recovery accepts the history of a target that represents its attempts. -/
theorem Represents.historyValid (h : Represents job target attempts) :
    historyValid target attempts = true := by
  have hnumbers : attempts.map AttemptRow.attemptNumber =
      (List.range attempts.length).map (· + 1) := by
    rw [h.numbered, List.range'_eq_map_range]
    exact List.map_congr_left fun n _ => Nat.add_comm 1 n
  unfold MycSigner.historyValid
  rw [h.count, beq_self_eq_true, decide_eq_true hnumbers, Bool.and_self, Bool.true_and]
  split
  next hactive =>
    obtain ⟨attempt, hlast, hstatus, hid⟩ := h.active hactive
    simp [hlast, hstatus, hid]
  next hidle =>
    cases hlast : attempts.getLast? with
    | none => rfl
    | some attempt =>
        have hsettled : attempt.status.isLive = false := by
          by_contra hlive
          exact hidle ((h.live attempt hlast).mp (by simpa using hlive)).1
        simp [hsettled]

/-! ## Whole jobs -/

variable {s : Store}

theorem DeliveryWf.represents (wf : DeliveryWf s) (hjob : job ∈ s.jobs)
    (htarget : target ∈ targetsOf s job.jobId) :
    Represents job target (attemptsOf s job.jobId target.targetIndex) :=
  (wf.histories job hjob target htarget).represents

theorem DeliveryWf.validateAttemptHistories_eq_ok (wf : DeliveryWf s) (hjob : job ∈ s.jobs) :
    validateAttemptHistories s { job with targets := targetsOf s job.jobId } = .ok () := by
  refine Except.forM_eq_ok.mpr fun target htarget => ?_
  refine Except.bind_eq_ok_iff.mpr ⟨_, wf.readAttempts_eq hjob htarget, ?_⟩
  exact Except.require_eq_ok.mpr (wf.represents hjob htarget).historyValid

/-- Reading a job never fails. -/
theorem DeliveryWf.readJob_ok (wf : DeliveryWf s) (jobId : Id32) :
    ∃ record, readJob s jobId = .ok record := by
  rcases DeliveryWf.readJob_cases s jobId with ⟨job, hjob, rfl⟩ | hnone
  · exact ⟨_, wf.readJob_eq_some hjob⟩
  · exact ⟨none, hnone⟩

/-! ## Finalization alone -/

/-- Between transactions finalization changes nothing. -/
theorem DeliveryInv.finalize_eq (inv : DeliveryInv s) (jobId : Id32) (observedAt : TimeUnixMs) :
    ((finalizeJobIfTerminal jobId observedAt).atomically s).2 = s := by
  rcases atomically_state_cases (finalizeJobIfTerminal jobId observedAt) s with heq | ⟨record, hrun⟩
  · exact heq
  · have wf := inv.toDeliveryWf
    rcases DeliveryWf.readJob_cases s jobId with ⟨job, hjob, rfl⟩ | hnone
    · obtain ⟨-, hstate, -⟩ := (run_finalizeJobIfTerminal wf hjob).mp hrun
      have hverdict : s.verdict job = none := by
        unfold Store.verdict
        split
        next hopen => exact inv.undecided job hjob hopen
        next => rfl
      rw [hstate, Store.finalized, hverdict]
    · have hfail : (finalizeJobIfTerminal jobId observedAt).run s = .error .binding := by
        have hread : (query (readJob · jobId)).run s = .ok (none, s) := run_query_of_ok hnone
        unfold finalizeJobIfTerminal
        rw [run_bind_of_ok hread]
        rfl
      rw [hfail] at hrun
      cases hrun

theorem DeliveryInv.call (inv : DeliveryInv s) (call : DeliveryCall) :
    DeliveryInv (call.perform s) := by
  cases call with
  | operation event => exact inv.perform event
  | finalize jobId observedAt =>
      change DeliveryInv ((finalizeJobIfTerminal jobId observedAt).atomically s).2
      rw [inv.finalize_eq]
      exact inv

/-- In every state that delivery calls reach every job can be read, recovery accepts its
attempt histories, and its targets represent the attempts that were made. -/
theorem delivery_tables_represent (metadata : PersistedMetadata) (appliedAtUnixS : ℕ)
    (calls : List DeliveryCall) :
    let s := Run.after DeliveryCall.perform (Store.initial metadata appliedAtUnixS) calls
    (∀ jobId, ∃ record, readJob s jobId = .ok record) ∧
      (∀ attempt ∈ s.attempts, ∃ job ∈ s.jobs, ∃ target ∈ targetsOf s job.jobId,
        attempt ∈ attemptsOf s job.jobId target.targetIndex) ∧
      ∀ job ∈ s.jobs, ∃ record, readJob s job.jobId = .ok (some record) ∧ record.toJobRow = job ∧
        record.targets = targetsOf s job.jobId ∧ validateAttemptHistories s record = .ok () ∧
        ∀ target ∈ record.targets,
          Represents job target (attemptsOf s job.jobId target.targetIndex) := by
  intro s
  have inv : DeliveryInv s := Run.invariant_always (fun _ call inv => inv.call call) calls
    (NoDelivery.inv ⟨rfl, rfl, rfl⟩)
  have wf := inv.toDeliveryWf
  refine ⟨wf.readJob_ok, ?_, ?_⟩
  · intro attempt hattempt
    obtain ⟨target, htarget, hjobId, hindex⟩ := wf.attempt_has_target attempt hattempt
    obtain ⟨job, hjob, hid⟩ := wf.target_has_job target htarget
    exact ⟨job, hjob, target, mem_targetsOf.mpr ⟨htarget, hid.symm⟩,
      mem_attemptsOf.mpr ⟨hattempt, hjobId.symm.trans hid.symm, hindex.symm⟩⟩
  · intro job hjob
    exact ⟨_, wf.readJob_eq_some hjob, rfl, rfl, wf.validateAttemptHistories_eq_ok hjob,
      fun target htarget => wf.represents hjob htarget⟩

end MycSigner
