import Mathlib.Data.List.Induction
import MycSigner.Admin.Invariant
import MycSigner.Lib.History

/-!
# Runs of the journal

A run is any sequence of calls of the journal with any tokens and times, between other
transactions of the service.  A crash only loses the tokens of the requests that were in
progress, so that it needs no event of its own: the run goes on without their completions.
-/

namespace MycSigner.Admin

open Transaction

variable {models : ResponseModels}

/-! ## Calls -/

/-- One call of the journal under the configuration of its caller, or another transaction. -/
inductive Call (models : ResponseModels) where
  | execute (config : Configuration) (request : RequestDocument) (completedAt : OperationTime)
      (policy : JournalPolicy) (operation : Effect models)
  | prepare (config : Configuration) (request : RequestDocument) (observedAt : OperationTime)
  | complete (config : Configuration) (token : PreparedOperation)
      (response : ResponseDocument models) (completedAt : OperationTime) (policy : JournalPolicy)
  | completePrepared (config : Configuration) (token : PreparedOperation)
      (completedAt : OperationTime) (policy : JournalPolicy) (operation : Effect models)
  | elsewhere (other : Store)

namespace Call

/-- The store after a call; a call that fails is rolled back. -/
def perform (s : AdminStore) : Call models → AdminStore
  | .execute config request completedAt policy operation =>
      ((executeDatabaseAdminOperation config request completedAt policy operation).atomically s).2
  | .prepare config request observedAt =>
      ((prepareAdminOperation models config request observedAt).atomically s).2
  | .complete config token response completedAt policy =>
      ((completeAdminOperation config token response completedAt policy).atomically s).2
  | .completePrepared config token completedAt policy operation =>
      ((completePreparedDatabaseAdminOperation config token completedAt policy
        operation).atomically s).2
  | .elsewhere other => { s with store := other }

/-- The operation whose effect the call commits: an executed operation that was not replayed, or
a completion. -/
def committed (s : AdminStore) : Call models → Option OperationId
  | .execute config request completedAt policy operation =>
      match RequestBinding.fromDocument request,
        (executeDatabaseAdminOperation config request completedAt policy operation).run s with
      | .ok binding, .ok _ =>
          match (prepareOperation models binding completedAt).run s with
          | .ok (.prepared _, _) => some binding.operationId
          | _ => none
      | _, _ => none
  | .prepare .. => none
  | .complete config token response completedAt policy =>
      match (completeAdminOperation config token response completedAt policy).run s with
      | .ok (.completed, _) => some token.operationId
      | _ => none
  | .completePrepared config token completedAt policy operation =>
      match (completePreparedDatabaseAdminOperation config token completedAt policy operation).run
        s with
      | .ok _ => some token.operationId
      | .error _ => none
  | .elsewhere _ => none

/-- The time at which a call prunes, when its transaction commits. -/
def prunesAt (s : AdminStore) : Call models → Option OperationTime
  | .execute config request completedAt policy operation =>
      if (executeDatabaseAdminOperation config request completedAt policy operation).run s |>.isOk
      then some completedAt else none
  | .prepare config request observedAt =>
      if (prepareAdminOperation models config request observedAt).run s |>.isOk
      then some observedAt else none
  | _ => none

/-- The time of a call that prunes. -/
def time? : Call models → Option OperationTime
  | .execute _ _ completedAt .. => some completedAt
  | .prepare _ _ observedAt => some observedAt
  | _ => none

/-- The call deletes the operation from the journal. -/
def Prunes (s : AdminStore) (call : Call models) (operationId : OperationId) : Prop :=
  ∃ observedAt, call.prunesAt s = some observedAt ∧
    ∃ row ∈ s.operations, row.operationId = operationId ∧ row.expiredBy observedAt = true

/-- The request of a call. -/
def request? : Call models → Option RequestDocument
  | .execute _ request .. | .prepare _ request _ => some request
  | _ => none

/-- The requests of a run. -/
def requests (calls : List (Call models)) : List RequestDocument := calls.filterMap request?

/-- The journal after a run that begins with an empty one. -/
def after (store : Store) (calls : List (Call models)) : AdminStore :=
  Run.after perform ⟨store, []⟩ calls

end Call

/-! ## What a committed call has done -/

/-- The completed row of a request that was executed at once. -/
def RequestBinding.executedRow (binding : RequestBinding) (completion : Completion) :
    OperationRow :=
  ⟨binding.operationId, binding.route, binding.requestSha256, completion.completedAt,
    some completion⟩

/-- A row can be replayed with its response. -/
structure Recorded (models : ResponseModels) (row : OperationRow) (completion : Completion) :
    Prop where
  fits : Fits row completion
  digest : completion.responseSha256 = Sha256.digest completion.responseModel
  admitted : responseAdmitted models row.route completion.responseModel = true

/-- One step of the journal, with the operation whose effect it commits. -/
inductive Step (s : AdminStore) : Call models → Option OperationId → AdminStore → Prop
  | elsewhere (other : Store) : Step s (.elsewhere other) none { s with store := other }
  | prepared {config : Configuration} {request : RequestDocument} {observedAt : OperationTime}
      {binding : RequestBinding} (document : RequestBinding.fromDocument request = .ok binding)
      (admits : Admits (s.pruned observedAt) binding.operationId) :
      Step s (.prepare config request observedAt) none
        ((s.pruned observedAt).with (binding.preparedRow observedAt))
  | answered {config : Configuration} {request : RequestDocument} {observedAt : OperationTime} :
      Step s (.prepare config request observedAt) none (s.pruned observedAt)
  | executed {config : Configuration} {request : RequestDocument} {policy : JournalPolicy}
      {operation : Effect models} {binding : RequestBinding} {completion : Completion}
      {store : Store} (document : RequestBinding.fromDocument request = .ok binding)
      (admits : Admits (s.pruned completion.completedAt) binding.operationId)
      (recorded : Recorded models (binding.preparedRow completion.completedAt) completion) :
      Step s (.execute config request completion.completedAt policy operation)
        (some binding.operationId)
        { (s.pruned completion.completedAt).with (binding.executedRow completion) with store }
  | replayed {config : Configuration} {request : RequestDocument} {completedAt : OperationTime}
      {policy : JournalPolicy} {operation : Effect models} :
      Step s (.execute config request completedAt policy operation) none (s.pruned completedAt)
  | completed {config : Configuration} {token : PreparedOperation}
      {response : ResponseDocument models} {completedAt : OperationTime} {policy : JournalPolicy}
      {row : OperationRow} {completion : Completion} (mem : row ∈ s.operations)
      (names : token.Names row) (recorded : Recorded models row completion) :
      Step s (.complete config token response completedAt policy) (some token.operationId)
        (s.completing row completion)
  | repeated {config : Configuration} {token : PreparedOperation}
      {response : ResponseDocument models} {completedAt : OperationTime} {policy : JournalPolicy}
      {row : OperationRow} (mem : row ∈ s.operations)
      (operationId : row.operationId = token.operationId) (completed : row.isCompleted = true) :
      Step s (.complete config token response completedAt policy) none s
  | effected {config : Configuration} {token : PreparedOperation} {completedAt : OperationTime}
      {policy : JournalPolicy} {operation : Effect models} {row : OperationRow}
      {completion : Completion} {store : Store} (mem : row ∈ s.operations)
      (names : token.Names row) (recorded : Recorded models row completion) :
      Step s (.completePrepared config token completedAt policy operation)
        (some token.operationId) { s.completing row completion with store }
  | effectedAgain {config : Configuration} {token : PreparedOperation}
      {completedAt : OperationTime} {policy : JournalPolicy} {operation : Effect models}
      {row : OperationRow} {store : Store} (mem : row ∈ s.operations)
      (operationId : row.operationId = token.operationId) (completed : row.isCompleted = true) :
      Step s (.completePrepared config token completedAt policy operation)
        (some token.operationId) { s with store }

theorem JournalInv.of_operations {s s' : AdminStore} (inv : JournalInv models s)
    (h : s'.operations = s.operations) : JournalInv models s' where
  unique := h ▸ inv.unique
  sound := h ▸ inv.sound
  prepared_few := by
    have hfew := inv.prepared_few
    unfold AdminStore.preparedCount at *
    rwa [h]
  few := h ▸ inv.few

theorem fromDocument_eq_ok {request : RequestDocument} {binding : RequestBinding}
    (h : RequestBinding.fromDocument request = .ok binding) :
    binding.route.isMutation = true ∧ binding.route = request.route ∧
      binding.requestSha256 = requestDigest request ∧
      request.operationId = some binding.operationId.bytes := by
  unfold RequestBinding.fromDocument at h
  obtain ⟨_, hroute, h⟩ := Except.bind_eq_ok_iff.mp h
  obtain ⟨value, hvalue, h⟩ := Except.bind_eq_ok_iff.mp h
  obtain ⟨operationId, hid, h⟩ := Except.bind_eq_ok_iff.mp h
  obtain rfl := Except.ok.inj h
  rw [Except.ofOption_eq_ok] at hvalue hid
  unfold OperationId.new at hid
  split at hid
  next hvalid =>
    cases hid
    exact ⟨Except.require_eq_ok.mp hroute, rfl, rfl, hvalue⟩
  next => cases hid

/-- Every step keeps the invariant. -/
theorem JournalInv.step {s s' : AdminStore} {call : Call models} {effect : Option OperationId}
    (inv : JournalInv models s) (h : Step s call effect s') : JournalInv models s' := by
  cases h with
  | elsewhere other => exact inv.of_operations rfl
  | prepared document admits =>
      exact (inv.pruned _).with admits
        (preparedRow_sound models (fromDocument_eq_ok document).1 _)
  | answered => exact inv.pruned _
  | @executed _ _ _ _ binding completion _ document admits recorded =>
      have hsound : RowSound models (binding.executedRow completion) := by
        refine ⟨(fromDocument_eq_ok document).1, recorded.fits, ?_⟩
        rintro _ ⟨rfl⟩
        exact ⟨recorded.digest, recorded.admitted⟩
      exact ((inv.pruned completion.completedAt).with admits hsound).of_operations rfl
  | replayed => exact inv.pruned _
  | completed mem names recorded =>
      exact inv.completing mem names.prepared recorded.fits recorded.digest recorded.admitted
  | repeated => exact inv
  | effected mem names recorded =>
      exact (inv.completing mem names.prepared recorded.fits recorded.digest
        recorded.admitted).of_operations rfl
  | effectedAgain mem operationId completed => exact inv.of_operations rfl

/-! ## Every committed call is a step -/

theorem run_onStore_eq_ok {α : Type} {body : Transaction Store JournalError α} {s s' : AdminStore}
    {a : α} :
    (onStore body).run s = .ok (a, s') ↔
      ∃ store, body.run s.store = .ok (a, store) ∧ s' = { s with store } := by
  change onStore body s = _ ↔ _
  unfold onStore
  cases body.run s.store with
  | error e => simp
  | ok result =>
      obtain ⟨b, store⟩ := result
      simp only [Except.ok.injEq, Prod.mk.injEq]
      constructor
      · rintro ⟨rfl, rfl⟩
        exact ⟨store, ⟨rfl, rfl⟩, rfl⟩
      · rintro ⟨_, ⟨rfl, rfl⟩, rfl⟩
        exact ⟨rfl, rfl⟩

theorem run_requireExpected_eq_ok {config : Configuration} {s s' : AdminStore} {u : Unit}
    (h : (requireExpected config).run s = .ok (u, s')) : s' = s := by
  obtain ⟨store, hbody, rfl⟩ := run_onStore_eq_ok.mp h
  unfold Transaction.run at hbody
  dsimp only at hbody
  split at hbody
  next =>
    cases hbody
    rfl
  next => cases hbody

theorem run_requireExpected_bind_eq_ok {α : Type} {config : Configuration}
    {next : Unit → JournalTx α} {s s' : AdminStore} {a : α}
    (h : (requireExpected config >>= next).run s = .ok (a, s')) :
    (next ()).run s = .ok (a, s') := by
  obtain ⟨_, s₁, hexpected, hnext⟩ := run_bind_eq_ok.mp h
  rwa [run_requireExpected_eq_ok hexpected] at hnext

theorem responseFits_iff {route : Route} {response : ResponseDocument models} :
    responseFits route response = true ↔ response.route = route ∧ response.canonicalBytes ≠ [] ∧
      response.canonicalBytes.length ≤ responseModelMaxBytes := by
  simp [responseFits, and_assoc]

/-- The answer of a stored operation is a replay. -/
theorem answerStored_eq_ok {binding : RequestBinding} {existing : OperationRow}
    {admission : Admission models} (h : answerStored models binding existing = .ok admission) :
    ∃ response, admission = .exactReplay response := by
  unfold answerStored at h
  obtain ⟨_, -, h⟩ := Except.bind_eq_ok_iff.mp h
  split at h
  next => cases h
  next =>
    obtain ⟨_, -, h⟩ := Except.bind_eq_ok_iff.mp h
    obtain ⟨response, -, h⟩ := Except.bind_eq_ok_iff.mp h
    exact ⟨response, (Except.ok.inj h).symm⟩

section

variable {s s' : AdminStore} {binding : RequestBinding} {observedAt : OperationTime}

/-- A committed preparation reserves a slot or replays. -/
theorem JournalInv.prepare_cases (inv : JournalInv models s)
    (hroute : binding.route.isMutation = true) {admission : Admission models}
    (h : (prepareOperation models binding observedAt).run s = .ok (admission, s')) :
    (admission = .prepared (binding.token observedAt) ∧
        Admits (s.pruned observedAt) binding.operationId ∧
        s' = (s.pruned observedAt).with (binding.preparedRow observedAt)) ∨
      (∃ existing response, (s.pruned observedAt).lookup binding.operationId = some existing ∧
        answerStored models binding existing = .ok (.exactReplay response) ∧
        admission = .exactReplay response ∧ s' = s.pruned observedAt) := by
  cases hlookup : (s.pruned observedAt).lookup binding.operationId with
  | some existing =>
      rw [inv.prepare_known hlookup] at h
      cases hanswer : answerStored models binding existing with
      | error e =>
          rw [hanswer] at h
          cases h
      | ok answer =>
          rw [hanswer] at h
          cases h
          obtain ⟨response, rfl⟩ := answerStored_eq_ok hanswer
          exact .inr ⟨existing, response, rfl, hanswer, rfl, rfl⟩
  | none =>
      by_cases hfree : (s.pruned observedAt).operations.length < completedLimit ∧
          s.preparedCount < preparedLimit
      · have hadmits : Admits (s.pruned observedAt) binding.operationId :=
          ⟨hlookup, hfree.1, (preparedCount_pruned s observedAt).symm ▸ hfree.2⟩
        rw [inv.prepare_reserves hroute hadmits] at h
        cases h
        exact .inl ⟨rfl, hadmits, rfl⟩
      · rw [inv.prepare_exhausted hlookup hfree] at h
        cases h

/-- What a completion in a transaction has recorded. -/
theorem JournalInv.complete_recorded (inv : JournalInv models s) {token : PreparedOperation}
    {response : ResponseDocument models} {completedAt expiresAt : OperationTime}
    {outcome : CompletionOutcome} (hfits : responseFits token.route response = true)
    (h : (completeOperation token response.canonicalBytes completedAt expiresAt).run s =
      .ok (outcome, s')) :
    (outcome = .completed ∧ ∃ row ∈ s.operations, token.Names row ∧
        Recorded models row (.of response.canonicalBytes completedAt expiresAt) ∧
        s' = s.completing row (.of response.canonicalBytes completedAt expiresAt)) ∨
      (outcome = .exactReplay ∧ s' = s ∧ ∃ row ∈ s.operations,
        row.operationId = token.operationId ∧ row.isCompleted = true) := by
  cases inv.complete_cases h with
  | now mem names fits =>
      refine .inl ⟨rfl, _, mem, names, ⟨fits, rfl, ?_⟩, rfl⟩
      rw [names.route, ← (responseFits_iff.mp hfits).1]
      exact response.admitted
  | before mem operationId route request completed response =>
      exact .inr ⟨rfl, rfl, _, mem, operationId, by simp [OperationRow.isCompleted, completed]⟩

theorem JournalInv.prepareAdmin_cases {config : Configuration} {request : RequestDocument}
    {admission : Admission models} (inv : JournalInv models s)
    (h : (prepareAdminOperation models config request observedAt).run s = .ok (admission, s')) :
    (∃ binding, RequestBinding.fromDocument request = .ok binding ∧
        admission = .prepared (binding.token observedAt) ∧
        Admits (s.pruned observedAt) binding.operationId ∧
        s' = (s.pruned observedAt).with (binding.preparedRow observedAt)) ∨
      ∃ response, admission = .exactReplay response ∧ s' = s.pruned observedAt := by
  unfold prepareAdminOperation at h
  obtain ⟨binding, hdocument, h⟩ := run_query_bind_eq_ok.mp h
  have h := run_requireExpected_bind_eq_ok h
  rcases inv.prepare_cases (fromDocument_eq_ok hdocument).1 h with
    ⟨rfl, hadmits, rfl⟩ | ⟨_, response, -, -, rfl, rfl⟩
  · exact .inl ⟨binding, hdocument, rfl, hadmits, rfl⟩
  · exact .inr ⟨response, rfl, rfl⟩

theorem JournalInv.prepare_step {config : Configuration} {request : RequestDocument}
    {admission : Admission models} (inv : JournalInv models s)
    (h : (prepareAdminOperation models config request observedAt).run s = .ok (admission, s')) :
    Step s (.prepare config request observedAt : Call models) none s' := by
  rcases inv.prepareAdmin_cases h with ⟨binding, hdocument, -, hadmits, rfl⟩ | ⟨_, -, rfl⟩
  · exact .prepared hdocument hadmits
  · exact .answered

theorem JournalInv.complete_step {config : Configuration} {token : PreparedOperation}
    {response : ResponseDocument models} {completedAt : OperationTime} {policy : JournalPolicy}
    {outcome : CompletionOutcome} (inv : JournalInv models s)
    (h : (completeAdminOperation config token response completedAt policy).run s =
      .ok (outcome, s')) :
    Step s (.complete config token response completedAt policy)
      ((Call.complete config token response completedAt policy).committed s) s' := by
  simp only [Call.committed, h]
  unfold completeAdminOperation at h
  obtain ⟨hfits, h⟩ := run_require_bind_eq_ok.mp h
  obtain ⟨expiresAt, -, h⟩ := run_query_bind_eq_ok.mp h
  have h := run_requireExpected_bind_eq_ok h
  rcases inv.complete_recorded hfits.1 h with
    ⟨rfl, row, hrow, hnames, hrecorded, rfl⟩ | ⟨rfl, rfl, row, hrow, hid, hcompleted⟩
  · exact .completed hrow hnames hrecorded
  · exact .repeated hrow hid hcompleted

theorem JournalInv.completePrepared_step {config : Configuration} {token : PreparedOperation}
    {completedAt : OperationTime} {policy : JournalPolicy} {operation : Effect models}
    {response : ResponseDocument models} (inv : JournalInv models s)
    (h : (completePreparedDatabaseAdminOperation config token completedAt policy operation).run s =
      .ok (response, s')) :
    Step s (.completePrepared config token completedAt policy operation)
      (some token.operationId) s' := by
  unfold completePreparedDatabaseAdminOperation at h
  obtain ⟨-, h⟩ := run_require_bind_eq_ok.mp h
  obtain ⟨expiresAt, -, h⟩ := run_query_bind_eq_ok.mp h
  have h := run_requireExpected_bind_eq_ok h
  obtain ⟨_, s₁, heffect, h⟩ := run_bind_eq_ok.mp h
  obtain ⟨store, -, rfl⟩ := run_onStore_eq_ok.mp heffect
  obtain ⟨hfits, h⟩ := run_require_bind_eq_ok.mp h
  obtain ⟨_, _, hcomplete, h⟩ := run_bind_eq_ok.mp h
  obtain ⟨rfl, rfl⟩ := run_pure_eq_ok.mp h
  have inv₁ : JournalInv models { s with store } := inv.of_operations rfl
  rcases inv₁.complete_recorded hfits hcomplete with
    ⟨-, row, hrow, hnames, hrecorded, rfl⟩ | ⟨-, rfl, row, hrow, hid, hcompleted⟩
  · exact .effected hrow hnames hrecorded
  · exact .effectedAgain hrow hid hcompleted

/-- A new row completed in the transaction that inserted it. -/
theorem completing_with {row : OperationRow} (hunknown : s.lookup row.operationId = none)
    (completion : Completion) (store : Store) :
    ({ s.with row with store } : AdminStore).completing row completion =
      { s.with (row.complete completion) with store } := by
  have hfresh : row ∉ s.operations := fun hmem => lookup_eq_none.mp hunknown row hmem rfl
  simp only [AdminStore.completing, AdminStore.with, Table.replace_concat hfresh]

theorem JournalInv.execute_step {config : Configuration} {request : RequestDocument}
    {completedAt : OperationTime} {policy : JournalPolicy} {operation : Effect models}
    {response : ResponseDocument models} (inv : JournalInv models s)
    (h : (executeDatabaseAdminOperation config request completedAt policy operation).run s =
      .ok (response, s')) :
    Step s (.execute config request completedAt policy operation)
      ((Call.execute config request completedAt policy operation).committed s) s' := by
  have hrun := h
  unfold executeDatabaseAdminOperation at h
  obtain ⟨binding, hdocument, h⟩ := run_query_bind_eq_ok.mp h
  obtain ⟨expiresAt, -, h⟩ := run_query_bind_eq_ok.mp h
  have h := run_requireExpected_bind_eq_ok h
  have hroute := (fromDocument_eq_ok hdocument).1
  obtain ⟨admission, s₁, hprepare, h⟩ := run_bind_eq_ok.mp h
  simp only [Call.committed, hdocument, hrun, hprepare]
  rcases inv.prepare_cases hroute hprepare with
    ⟨rfl, hadmits, rfl⟩ | ⟨_, _, -, -, rfl, rfl⟩
  · obtain ⟨answer, s₂, heffect, h⟩ := run_bind_eq_ok.mp h
    obtain ⟨store, -, rfl⟩ := run_onStore_eq_ok.mp heffect
    obtain ⟨hfits, h⟩ := run_require_bind_eq_ok.mp h
    obtain ⟨outcome, s₃, hcomplete, h⟩ := run_bind_eq_ok.mp h
    obtain ⟨rfl, rfl⟩ := run_pure_eq_ok.mp h
    have inv₁ : JournalInv models
        ((s.pruned completedAt).with (binding.preparedRow completedAt)) :=
      (inv.pruned completedAt).with hadmits (preparedRow_sound models hroute completedAt)
    have inv₂ : JournalInv models
        { (s.pruned completedAt).with (binding.preparedRow completedAt) with store } :=
      inv₁.of_operations rfl
    -- the only row under this ID is the one that was just prepared
    have honly : ∀ row ∈ ((s.pruned completedAt).with
        (binding.preparedRow completedAt)).operations,
        row.operationId = binding.operationId → row = binding.preparedRow completedAt :=
      fun row hrow hid => inv₁.unique.eq_of_key_eq hrow
        (List.mem_append_right _ (List.mem_singleton_self _)) hid
    rcases inv₂.complete_recorded hfits hcomplete with
      ⟨-, row, hrow, hnames, hrecorded, rfl⟩ | ⟨-, -, row, hrow, hid, hcompleted⟩
    · obtain rfl := honly row hrow hnames.operationId
      rw [completing_with hadmits.unknown]
      change Step s (.execute config request
        (Completion.of answer.canonicalBytes completedAt expiresAt).completedAt policy operation)
        _ _
      exact .executed hdocument hadmits hrecorded
    · rw [honly row hrow hid] at hcompleted
      cases hcompleted
  · obtain ⟨rfl, rfl⟩ := run_pure_eq_ok.mp h
    exact .replayed

/-- A call leaves the store as it was or makes a step. -/
theorem JournalInv.perform_cases (inv : JournalInv models s) (call : Call models) :
    (call.perform s = s ∧ call.committed s = none ∧ call.prunesAt s = none) ∨
      (Step s call (call.committed s) (call.perform s) ∧ call.prunesAt s = call.time?) := by
  cases call with
  | execute config request completedAt policy operation =>
      cases hrun : (executeDatabaseAdminOperation config request completedAt policy
          operation).run s with
      | error e =>
          refine .inl ⟨?_, ?_, ?_⟩
          · simp only [Call.perform, atomically_of_error hrun]
          · simp only [Call.committed, hrun]
            cases RequestBinding.fromDocument request <;> rfl
          · simp only [Call.prunesAt, hrun]
            rfl
      | ok result =>
          refine .inr ⟨?_, ?_⟩
          · simp only [Call.perform, atomically_of_ok hrun]
            exact inv.execute_step hrun
          · simp only [Call.prunesAt, hrun]
            rfl
  | prepare config request observedAt =>
      cases hrun : (prepareAdminOperation models config request observedAt).run s with
      | error e =>
          refine .inl ⟨?_, rfl, ?_⟩
          · simp only [Call.perform, atomically_of_error hrun]
          · simp only [Call.prunesAt, hrun]
            rfl
      | ok result =>
          refine .inr ⟨?_, ?_⟩
          · simp only [Call.perform, atomically_of_ok hrun]
            exact inv.prepare_step hrun
          · simp only [Call.prunesAt, hrun]
            rfl
  | complete config token response completedAt policy =>
      cases hrun : (completeAdminOperation config token response completedAt policy).run s with
      | error e =>
          refine .inl ⟨?_, ?_, rfl⟩
          · simp only [Call.perform, atomically_of_error hrun]
          · simp only [Call.committed, hrun]
      | ok result =>
          refine .inr ⟨?_, rfl⟩
          simp only [Call.perform, atomically_of_ok hrun]
          exact inv.complete_step hrun
  | completePrepared config token completedAt policy operation =>
      cases hrun : (completePreparedDatabaseAdminOperation config token completedAt policy
          operation).run s with
      | error e =>
          refine .inl ⟨?_, ?_, rfl⟩
          · simp only [Call.perform, atomically_of_error hrun]
          · simp only [Call.committed, hrun]
      | ok result =>
          refine .inr ⟨?_, rfl⟩
          simp only [Call.perform, Call.committed, hrun, atomically_of_ok hrun]
          exact inv.completePrepared_step hrun
  | elsewhere other => exact .inr ⟨.elsewhere other, rfl⟩

theorem JournalInv.perform (inv : JournalInv models s) (call : Call models) :
    JournalInv models (call.perform s) := by
  rcases inv.perform_cases call with ⟨hsame, -⟩ | ⟨hstep, -⟩
  · rw [hsame]
    exact inv
  · exact inv.step hstep

theorem JournalInv.empty (models : ResponseModels) (store : Store) :
    JournalInv models ⟨store, []⟩ where
  unique := .nil
  sound := nofun
  prepared_few := Nat.zero_le _
  few := Nat.zero_le _

/-- The invariant holds after every run. -/
theorem journalInv_after (store : Store) (calls : List (Call models)) :
    JournalInv models (Call.after store calls) :=
  Run.invariant_always (fun _ call inv => inv.perform call) calls (.empty models store)

/-! ## Effects are committed once -/

/-- The call does not complete an operation a second time with an effect of its own. -/
def Call.CompletesOnce (s : AdminStore) : Call models → Prop
  | .completePrepared _ token .. =>
      ∀ row ∈ s.operations, row.operationId = token.operationId → row.completion = none
  | _ => True

/-- The effect of a step is recorded. -/
theorem Step.recorded {call : Call models} {id : OperationId} (h : Step s call (some id) s') :
    ∃ row ∈ s'.operations, row.operationId = id ∧ row.isCompleted = true := by
  cases h with
  | executed => exact ⟨_, List.mem_append_right _ (List.mem_singleton_self _), rfl, rfl⟩
  | completed mem names =>
      exact ⟨_, Table.mem_replace.mpr (.inr ⟨mem, rfl⟩), names.operationId, rfl⟩
  | effected mem names =>
      exact ⟨_, Table.mem_replace.mpr (.inr ⟨mem, rfl⟩), names.operationId, rfl⟩
  | effectedAgain mem operationId completed => exact ⟨_, mem, operationId, completed⟩

theorem mem_pruned {row : OperationRow} :
    row ∈ (s.pruned observedAt).operations ↔
      row ∈ s.operations ∧ row.expiredBy observedAt = false := by
  simp [AdminStore.pruned, List.mem_filter]

/-- A completed operation stays as it is until it is pruned. -/
theorem Step.keeps {call : Call models} {effect : Option OperationId} {row : OperationRow}
    (h : Step s call effect s') (hrow : row ∈ s.operations) (hcompleted : row.isCompleted = true)
    (hkept : ∀ observedAt, call.time? = some observedAt → row.expiredBy observedAt = false) :
    row ∈ s'.operations := by
  cases h with
  | elsewhere => exact hrow
  | prepared => exact List.mem_append_left _ (mem_pruned.mpr ⟨hrow, hkept _ rfl⟩)
  | answered => exact mem_pruned.mpr ⟨hrow, hkept _ rfl⟩
  | executed => exact List.mem_append_left _ (mem_pruned.mpr ⟨hrow, hkept _ rfl⟩)
  | replayed => exact mem_pruned.mpr ⟨hrow, hkept _ rfl⟩
  | completed mem names =>
      refine Table.mem_replace.mpr (.inl ⟨hrow, fun heq => ?_⟩)
      rw [heq, OperationRow.isCompleted, names.prepared] at hcompleted
      cases hcompleted
  | repeated => exact hrow
  | effected mem names =>
      refine Table.mem_replace.mpr (.inl ⟨hrow, fun heq => ?_⟩)
      rw [heq, OperationRow.isCompleted, names.prepared] at hcompleted
      cases hcompleted
  | effectedAgain => exact hrow

/-- A completed operation is not executed again before it is pruned. -/
theorem Step.not_again {call : Call models} {row : OperationRow} (inv : JournalInv models s)
    (h : Step s call (some row.operationId) s') (honce : call.CompletesOnce s)
    (hrow : row ∈ s.operations) (hcompleted : row.isCompleted = true) :
    ∃ observedAt, call.time? = some observedAt ∧ row.expiredBy observedAt = true := by
  have hnot : ∀ other ∈ s.operations, other.operationId = row.operationId →
      other.completion ≠ none := by
    intro other hother hid hnone
    rw [inv.unique.eq_of_key_eq hother hrow hid] at hnone
    rw [OperationRow.isCompleted, hnone] at hcompleted
    cases hcompleted
  generalize hid : row.operationId = id at h
  cases h with
  | executed document admits =>
      refine ⟨_, rfl, ?_⟩
      by_contra hkept
      have hmem := mem_pruned.mpr ⟨hrow, Bool.not_eq_true _ ▸ hkept⟩
      exact lookup_eq_none.mp admits.unknown row hmem hid
  | completed mem names => exact absurd names.prepared (hnot _ mem (names.operationId.trans hid.symm))
  | effected mem names => exact absurd names.prepared (hnot _ mem (names.operationId.trans hid.symm))
  | effectedAgain mem operationId => exact absurd (honce row hrow hid) (hnot row hrow rfl)

/-- A completed operation stays in the journal until a call prunes it. -/
theorem JournalInv.kept {row : OperationRow} {calls : List (Call models)}
    (inv : JournalInv models s) (hrow : row ∈ s.operations) (hcompleted : row.isCompleted = true)
    (hkept : Run.EveryStep Call.perform (fun s call => ¬ call.Prunes s row.operationId) s calls) :
    row ∈ (Run.after Call.perform s calls).operations := by
  induction calls generalizing s with
  | nil => exact hrow
  | cons call calls ih =>
      refine ih (inv.perform call) ?_ hkept.2
      rcases inv.perform_cases call with ⟨hsame, -⟩ | ⟨hstep, htime⟩
      · rw [hsame]
        exact hrow
      · refine hstep.keeps hrow hcompleted fun observedAt hcall => ?_
        rw [← Bool.not_eq_true]
        exact fun hexpired => hkept.1 ⟨observedAt, htime.trans hcall, row, hrow, rfl, hexpired⟩

/-- Between two commits of one operation's effect the operation is pruned. -/
theorem JournalInv.pruned_between {first later : Call models} {between : List (Call models)}
    {id : OperationId} (inv : JournalInv models s) (hfirst : first.committed s = some id)
    (hlater : later.committed (Run.after Call.perform (first.perform s) between) = some id)
    (honce : later.CompletesOnce (Run.after Call.perform (first.perform s) between)) :
    ¬ Run.EveryStep Call.perform (fun s call => ¬ call.Prunes s id) (first.perform s)
      (between ++ [later]) := by
  intro hkept
  obtain ⟨row, hrow, rfl, hcompleted⟩ : ∃ row ∈ (first.perform s).operations,
      row.operationId = id ∧ row.isCompleted = true := by
    rcases inv.perform_cases first with ⟨-, hnone, -⟩ | ⟨hstep, -⟩
    · rw [hnone] at hfirst
      cases hfirst
    · rw [hfirst] at hstep
      exact hstep.recorded
  have inv₁ := inv.perform first
  have hmem := inv₁.kept hrow hcompleted hkept.of_append
  have inv₂ : JournalInv models (Run.after Call.perform (first.perform s) between) :=
    Run.invariant_always (fun _ call inv => inv.perform call) between inv₁
  rcases inv₂.perform_cases later with ⟨-, hnone, -⟩ | ⟨hstep, htime⟩
  · rw [hnone] at hlater
    cases hlater
  · rw [hlater] at hstep
    obtain ⟨observedAt, hcall, hexpired⟩ := hstep.not_again inv₂ honce hmem hcompleted
    exact hkept.at_step ⟨observedAt, htime.trans hcall, row, hmem, rfl, hexpired⟩

/-! ## The request behind a row -/

/-- The row was written for the request. -/
structure WrittenFor (row : OperationRow) (request : RequestDocument) : Prop where
  operationId : request.operationId = some row.operationId.bytes
  route : row.route = request.route
  digest : row.requestSha256 = requestDigest request

theorem WrittenFor.of_binding {request : RequestDocument}
    (h : RequestBinding.fromDocument request = .ok binding) {row : OperationRow}
    (hid : row.operationId = binding.operationId) (hroute : row.route = binding.route)
    (hdigest : row.requestSha256 = binding.requestSha256) : WrittenFor row request := by
  obtain ⟨-, hroute', hdigest', hid'⟩ := fromDocument_eq_ok h
  exact ⟨hid ▸ hid', hroute.trans hroute', hdigest.trans hdigest'⟩

/-- A row of a step was there before it, or was written for the request of its call. -/
theorem Step.written {call : Call models} {effect : Option OperationId} {row : OperationRow}
    (h : Step s call effect s') (hrow : row ∈ s'.operations) :
    (∃ old ∈ s.operations, old.operationId = row.operationId ∧ old.route = row.route ∧
        old.requestSha256 = row.requestSha256) ∨
      ∃ request, call.request? = some request ∧ WrittenFor row request := by
  have hpruned : ∀ {observedAt}, row ∈ (s.pruned observedAt).operations →
      ∃ old ∈ s.operations, old.operationId = row.operationId ∧ old.route = row.route ∧
        old.requestSha256 = row.requestSha256 :=
    fun hrow => ⟨row, (mem_pruned.mp hrow).1, rfl, rfl, rfl⟩
  cases h with
  | elsewhere => exact .inl ⟨row, hrow, rfl, rfl, rfl⟩
  | prepared document admits =>
      rcases List.mem_append.mp hrow with hold | hnew
      · exact .inl (hpruned hold)
      · rw [List.mem_singleton.mp hnew]
        exact .inr ⟨_, rfl, .of_binding document rfl rfl rfl⟩
  | answered => exact .inl (hpruned hrow)
  | executed document =>
      rcases List.mem_append.mp hrow with hold | hnew
      · exact .inl (hpruned hold)
      · rw [List.mem_singleton.mp hnew]
        exact .inr ⟨_, rfl, .of_binding document rfl rfl rfl⟩
  | replayed => exact .inl (hpruned hrow)
  | completed mem names =>
      rcases Table.mem_replace.mp hrow with ⟨hold, -⟩ | ⟨-, rfl⟩
      · exact .inl ⟨row, hold, rfl, rfl, rfl⟩
      · exact .inl ⟨_, mem, rfl, rfl, rfl⟩
  | repeated => exact .inl ⟨row, hrow, rfl, rfl, rfl⟩
  | effected mem names =>
      rcases Table.mem_replace.mp hrow with ⟨hold, -⟩ | ⟨-, rfl⟩
      · exact .inl ⟨row, hold, rfl, rfl, rfl⟩
      · exact .inl ⟨_, mem, rfl, rfl, rfl⟩
  | effectedAgain => exact .inl ⟨row, hrow, rfl, rfl, rfl⟩

/-- Every row of the journal was written for a request of the run. -/
theorem written_after (store : Store) (calls : List (Call models)) :
    ∀ row ∈ (Call.after store calls).operations, ∃ request ∈ Call.requests calls,
      WrittenFor row request := by
  induction calls using List.reverseRecOn with
  | nil => exact nofun
  | append_singleton calls call ih =>
      intro row hrow
      have inv := journalInv_after store calls
      have hafter : Call.after store (calls ++ [call]) = call.perform (Call.after store calls) :=
        Run.after_append ..
      have hold : ∀ old ∈ (Call.after store calls).operations,
          old.operationId = row.operationId → old.route = row.route →
          old.requestSha256 = row.requestSha256 →
          ∃ request ∈ Call.requests (calls ++ [call]), WrittenFor row request := by
        intro old hmem hid hroute hdigest
        obtain ⟨request, hrequest, hwritten⟩ := ih old hmem
        refine ⟨request, ?_, hid ▸ hwritten.operationId, hroute ▸ hwritten.route,
          hdigest ▸ hwritten.digest⟩
        rw [Call.requests, List.filterMap_append]
        exact List.mem_append_left _ hrequest
      rw [hafter] at hrow
      rcases inv.perform_cases call with ⟨hsame, -⟩ | ⟨hstep, -⟩
      · rw [hsame] at hrow
        exact hold row hrow rfl rfl rfl
      · rcases hstep.written hrow with ⟨old, hmem, hid, hroute, hdigest⟩ |
          ⟨request, hrequest, hwritten⟩
        · exact hold old hmem hid hroute hdigest
        · refine ⟨request, ?_, hwritten⟩
          rw [Call.requests, List.filterMap_append]
          exact List.mem_append_right _ (by simp [hrequest])

end

end MycSigner.Admin
