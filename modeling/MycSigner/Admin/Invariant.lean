import MycSigner.Admin.Journal

/-!
# What the calls of the journal do

Under the invariant of the journal every read succeeds and pruning deletes every expired
operation, so that each function is described by the operation that it finds.
-/

namespace MycSigner.Admin

open Transaction

variable {models : ResponseModels}

/-! ## The invariant -/

/-- A row that the readers accept and whose response can be replayed. -/
structure RowSound (models : ResponseModels) (row : OperationRow) : Prop where
  mutation : row.route.isMutation = true
  checked : rowCheck row = true
  replayable : ∀ completion, row.completion = some completion →
    completion.responseSha256 = Sha256.digest completion.responseModel ∧
      responseAdmitted models row.route completion.responseModel = true

/-- The number of prepared operations. -/
def AdminStore.preparedCount (s : AdminStore) : ℕ := s.operations.countP OperationRow.isPrepared

/-- One row for each operation ID, sound rows, and both bounds. -/
structure JournalInv (models : ResponseModels) (s : AdminStore) : Prop where
  unique : Table.Unique OperationRow.operationId s.operations
  sound : ∀ row ∈ s.operations, RowSound models row
  prepared_few : s.preparedCount ≤ preparedLimit
  few : s.operations.length ≤ completedLimit

theorem isCompleted_eq_not (row : OperationRow) : row.isCompleted = !row.isPrepared := by
  cases h : row.completion <;> simp [OperationRow.isCompleted, OperationRow.isPrepared, h]

/-- Every operation is prepared or completed. -/
theorem completed_add_prepared (s : AdminStore) :
    (readCounts s).1 + (readCounts s).2 = s.operations.length := by
  simp only [readCounts]
  induction s.operations with
  | nil => rfl
  | cons row rows ih =>
      simp only [List.countP_cons, List.length_cons, isCompleted_eq_not] at ih ⊢
      cases row.isPrepared <;> simp <;> omega

/-! ## Pruning -/

/-- The store without the operations that are expired at a time. -/
def AdminStore.pruned (s : AdminStore) (observedAt : OperationTime) : AdminStore :=
  { s with operations := s.operations.filter fun row => !row.expiredBy observedAt }

theorem mem_prunedIds (observedAt : OperationTime) {rows : List OperationRow} {row : OperationRow}
    (hunique : Table.Unique OperationRow.operationId rows) (hfew : rows.length ≤ pruneLimit)
    (hrow : row ∈ rows) :
    row.operationId ∈ prunedIds observedAt rows ↔ row.expiredBy observedAt = true := by
  have hlength : (rows.filter (OperationRow.expiredBy observedAt)).length ≤ pruneLimit :=
    Nat.le_trans (List.length_filter_le _ _) hfew
  simp only [prunedIds]
  rw [List.take_of_length_le]
  · simp only [List.mem_map, (Table.ordered_perm _ _).mem_iff, List.mem_filter]
    constructor
    · rintro ⟨other, ⟨hother, hexpired⟩, heq⟩
      rwa [hunique.eq_of_key_eq hother hrow heq] at hexpired
    · intro hexpired
      exact ⟨row, ⟨hrow, hexpired⟩, rfl⟩
  · rw [(Table.ordered_perm _ _).length_eq]
    exact hlength

theorem JournalInv.run_pruneExpired {s : AdminStore} (inv : JournalInv models s)
    (observedAt : OperationTime) :
    (pruneExpired observedAt).run s = .ok ((), s.pruned observedAt) := by
  have hfilter : (s.operations.filter fun row =>
      row.operationId ∉ prunedIds observedAt s.operations) =
      s.operations.filter fun row => !row.expiredBy observedAt := by
    refine List.filter_congr fun row hrow => ?_
    have hmem := mem_prunedIds observedAt inv.unique inv.few hrow
    by_cases hexpired : row.expiredBy observedAt = true
    · simp [hmem, hexpired]
    · simp [hmem, hexpired]
  rw [pruneExpired, run_modify, hfilter]
  rfl

theorem pruned_sublist (s : AdminStore) (observedAt : OperationTime) :
    (s.pruned observedAt).operations.Sublist s.operations := List.filter_sublist

/-- A prepared operation does not expire. -/
theorem expiredBy_of_prepared {row : OperationRow} (h : row.isPrepared = true)
    (observedAt : OperationTime) : row.expiredBy observedAt = false := by
  have hnone : row.completion = none := by simpa [OperationRow.isPrepared] using h
  simp [OperationRow.expiredBy, hnone]

theorem preparedCount_pruned (s : AdminStore) (observedAt : OperationTime) :
    (s.pruned observedAt).preparedCount = s.preparedCount := by
  unfold AdminStore.preparedCount AdminStore.pruned
  rw [List.countP_filter]
  refine List.countP_congr fun row _ => ?_
  cases hprepared : row.isPrepared with
  | false => simp
  | true => simp [expiredBy_of_prepared hprepared]

theorem JournalInv.pruned {s : AdminStore} (inv : JournalInv models s)
    (observedAt : OperationTime) : JournalInv models (s.pruned observedAt) where
  unique := ((pruned_sublist s observedAt).map _).nodup inv.unique
  sound := fun row hrow => inv.sound row ((pruned_sublist s observedAt).subset hrow)
  prepared_few := by
    rw [preparedCount_pruned]
    exact inv.prepared_few
  few := Nat.le_trans (pruned_sublist s observedAt).length_le inv.few

/-! ## Reading -/

/-- The operation under an ID. -/
def AdminStore.lookup (s : AdminStore) (operationId : OperationId) : Option OperationRow :=
  s.operations.find? fun row => row.operationId = operationId

theorem lookup_eq_none {s : AdminStore} {operationId : OperationId} :
    s.lookup operationId = none ↔ ∀ row ∈ s.operations, row.operationId ≠ operationId := by
  simp [AdminStore.lookup, List.find?_eq_none]

theorem JournalInv.lookup_eq_some {s : AdminStore} (inv : JournalInv models s)
    {operationId : OperationId} {row : OperationRow} :
    s.lookup operationId = some row ↔ row ∈ s.operations ∧ row.operationId = operationId := by
  constructor
  · intro h
    exact ⟨List.mem_of_find?_eq_some h, by simpa using List.find?_some h⟩
  · rintro ⟨hrow, rfl⟩
    exact inv.unique.find?_eq_some hrow

theorem RowSound.decode {row : OperationRow} (h : RowSound models row) :
    decodeOperation row = .ok row := by
  have hwidth : row.completion.all Completion.widthValid = true := by
    have hchecked := h.checked
    cases hcompletion : row.completion with
    | none => rfl
    | some completion =>
        simp only [rowCheck, hcompletion, Option.all_some, Bool.and_eq_true] at hchecked
        exact hchecked.1.1
  simp [decodeOperation, Except.require, h.mutation, hwidth, bind, Except.bind, pure, Except.pure]

theorem JournalInv.readOperation_eq {s : AdminStore} (inv : JournalInv models s)
    (operationId : OperationId) : readOperation s operationId = .ok (s.lookup operationId) := by
  unfold readOperation
  cases hlookup : s.lookup operationId with
  | none =>
      have hnil : (s.operations.filter fun row => row.operationId = operationId) = [] := by
        rw [List.filter_eq_nil_iff]
        intro row hrow
        simpa using lookup_eq_none.mp hlookup row hrow
      rw [hnil]
  | some row =>
      obtain ⟨hrow, rfl⟩ := inv.lookup_eq_some.mp hlookup
      rw [inv.unique.filter_eq_singleton hrow]
      simp only [(inv.sound row hrow).decode]
      rfl

/-- A read fails with a broken binding only. -/
theorem readOperation_not_exhausted {s : AdminStore} {operationId : OperationId} :
    readOperation s operationId ≠ .error .resourceExhausted := by
  intro h
  unfold readOperation at h
  split at h
  next => cases h
  next row _ =>
    cases hdecode : decodeOperation row with
    | ok decoded =>
        rw [hdecode] at h
        cases h
    | error e =>
        rw [hdecode] at h
        obtain rfl := Except.error.inj h
        rcases Except.bind_eq_error_iff.mp hdecode with h | ⟨_, -, h⟩
        · cases (Except.require_eq_error.mp h).2
        rcases Except.bind_eq_error_iff.mp h with h | ⟨_, -, h⟩
        · cases (Except.require_eq_error.mp h).2
        · cases h
  next => cases h

/-! ## Preparing -/

/-- The store with one operation more. -/
def AdminStore.with (s : AdminStore) (row : OperationRow) : AdminStore :=
  { s with operations := s.operations ++ [row] }

/-- An unknown operation and a free slot. -/
structure Admits (s : AdminStore) (operationId : OperationId) : Prop where
  unknown : s.lookup operationId = none
  few : s.operations.length < completedLimit
  prepared_few : s.preparedCount < preparedLimit

theorem JournalInv.with {s : AdminStore} (inv : JournalInv models s) {row : OperationRow}
    (hadmits : Admits s row.operationId) (hsound : RowSound models row) :
    JournalInv models (s.with row) where
  unique := inv.unique.append_row (lookup_eq_none.mp hadmits.unknown)
  sound := by
    intro other hother
    rcases List.mem_append.mp hother with hold | hnew
    · exact inv.sound other hold
    · rw [List.mem_singleton.mp hnew]
      exact hsound
  prepared_few := by
    have hfew := hadmits.prepared_few
    unfold AdminStore.preparedCount AdminStore.with at *
    rw [List.countP_append]
    cases h : row.isPrepared <;> simp [h] <;> omega
  few := by
    have hfew := hadmits.few
    simp only [AdminStore.with, List.length_append, List.length_singleton]
    omega

theorem lookup_with {s : AdminStore} {row : OperationRow}
    (h : s.lookup row.operationId = none) : (s.with row).lookup row.operationId = some row := by
  unfold AdminStore.lookup AdminStore.with at *
  rw [List.find?_append, h]
  simp

theorem preparedRow_sound (models : ResponseModels) {binding : RequestBinding}
    (hroute : binding.route.isMutation = true) (observedAt : OperationTime) :
    RowSound models (binding.preparedRow observedAt) where
  mutation := hroute
  checked := rfl
  replayable := nofun

/-- The token of a prepared operation. -/
def RequestBinding.token (binding : RequestBinding) (observedAt : OperationTime) :
    PreparedOperation :=
  ⟨binding.operationId, binding.route, binding.requestSha256, observedAt⟩

section Prepare

variable {s : AdminStore} {binding : RequestBinding} {observedAt : OperationTime}

/-- The part of `prepare_operation` after pruning. -/
theorem JournalInv.run_prepareOperation (inv : JournalInv models s) :
    (prepareOperation models binding observedAt).run s =
      (match (s.pruned observedAt).lookup binding.operationId with
      | some existing => query fun _ => answerStored models binding existing
      | none => do
          let (completed, prepared) ← query fun s => .ok (readCounts s)
          require (completed + prepared < completedLimit ∧ prepared < preparedLimit)
            .resourceExhausted
          insertPrepared (binding.preparedRow observedAt)
          let actual ← query (readOperation · binding.operationId)
          require (actual = some (binding.preparedRow observedAt)) .binding
          return .prepared (binding.token observedAt) : JournalTx _).run (s.pruned observedAt) := by
  have hread : (query (readOperation · binding.operationId)).run (s.pruned observedAt) =
      .ok ((s.pruned observedAt).lookup binding.operationId, s.pruned observedAt) :=
    run_query_of_ok ((inv.pruned observedAt).readOperation_eq binding.operationId)
  unfold prepareOperation
  rw [run_bind_of_ok (inv.run_pruneExpired observedAt), run_bind_of_ok hread]
  cases (s.pruned observedAt).lookup binding.operationId <;> rfl

/-- A known operation answers. -/
theorem JournalInv.prepare_known (inv : JournalInv models s) {existing : OperationRow}
    (h : (s.pruned observedAt).lookup binding.operationId = some existing) :
    (prepareOperation models binding observedAt).run s =
      (answerStored models binding existing).map fun answer => (answer, s.pruned observedAt) := by
  rw [inv.run_prepareOperation, h]
  cases hanswer : answerStored models binding existing with
  | error e => exact run_query_of_error hanswer
  | ok answer => exact run_query_of_ok hanswer

theorem JournalInv.prepare_reserves (inv : JournalInv models s)
    (hroute : binding.route.isMutation = true)
    (h : Admits (s.pruned observedAt) binding.operationId) :
    (prepareOperation models binding observedAt).run s = .ok (.prepared (binding.token observedAt),
      (s.pruned observedAt).with (binding.preparedRow observedAt)) := by
  have inv' := inv.pruned observedAt
  have inv'' : JournalInv models ((s.pruned observedAt).with (binding.preparedRow observedAt)) :=
    inv'.with h (preparedRow_sound models hroute _)
  have hfew : (readCounts (s.pruned observedAt)).1 + (readCounts (s.pruned observedAt)).2 <
      completedLimit := by
    rw [completed_add_prepared]
    exact h.few
  have hinsert : (insertPrepared (binding.preparedRow observedAt)).run (s.pruned observedAt) =
      .ok ((), (s.pruned observedAt).with (binding.preparedRow observedAt)) := by
    refine operationsTable.run_insert_eq_ok.mpr ⟨?_, rfl⟩
    have hfresh := lookup_eq_none.mp h.unknown
    simp only [Bool.and_eq_true, List.all_eq_true, bne_iff_ne]
    exact ⟨rfl, hfresh⟩
  have hread : (query (readOperation · binding.operationId)).run
      ((s.pruned observedAt).with (binding.preparedRow observedAt)) =
      .ok (some (binding.preparedRow observedAt),
        (s.pruned observedAt).with (binding.preparedRow observedAt)) := by
    refine run_query_of_ok ?_
    rw [inv''.readOperation_eq]
    exact congrArg _ (lookup_with h.unknown)
  rw [inv.run_prepareOperation, h.unknown]
  refine (run_bind_of_ok (run_query_of_ok rfl)).trans ?_
  refine (run_bind_of_ok (run_require_of ⟨hfew, h.prepared_few⟩ _)).trans ?_
  rw [run_bind_of_ok hinsert, run_bind_of_ok hread, run_bind_of_ok (run_require_of rfl _)]
  rfl

/-- A full journal refuses an unknown operation. -/
theorem JournalInv.prepare_exhausted (inv : JournalInv models s)
    (hunknown : (s.pruned observedAt).lookup binding.operationId = none)
    (h : ¬ ((s.pruned observedAt).operations.length < completedLimit ∧
      s.preparedCount < preparedLimit)) :
    (prepareOperation models binding observedAt).run s = .error .resourceExhausted := by
  have hcounts := completed_add_prepared (s.pruned observedAt)
  rw [inv.run_prepareOperation, hunknown]
  refine (run_bind_of_ok (run_query_of_ok rfl)).trans ?_
  refine run_bind_of_error (run_require_of_not ?_ _)
  rintro ⟨hfew, hprepared⟩
  refine h ⟨?_, preparedCount_pruned s observedAt ▸ hprepared⟩
  rw [← hcounts]
  exact hfew

end Prepare

/-! ## Completing -/

/-- The token of a call is the token of a prepared row. -/
structure PreparedOperation.Names (token : PreparedOperation) (row : OperationRow) : Prop where
  operationId : row.operationId = token.operationId
  route : row.route = token.route
  request : row.requestSha256 = token.requestSha256
  preparedAt : row.preparedAt = token.preparedAt
  prepared : row.completion = none

/-- The row with its completion. -/
def OperationRow.complete (row : OperationRow) (completion : Completion) : OperationRow :=
  { row with completion := some completion }

def AdminStore.completing (s : AdminStore) (row : OperationRow) (completion : Completion) :
    AdminStore :=
  { s with operations := Table.replace row (row.complete completion) s.operations }

/-- A completion that the table admits for a row. -/
def Fits (row : OperationRow) (completion : Completion) : Prop :=
  rowCheck (row.complete completion) = true

section Complete

variable {s : AdminStore} {token : PreparedOperation} {response : Bytes}
  {completedAt expiresAt : OperationTime} {row : OperationRow} {completion : Completion}

theorem isPrepared_iff : row.isPrepared = true ↔ row.completion = none := by
  simp [OperationRow.isPrepared]

/-- A completion gives up one prepared slot. -/
theorem preparedCount_completing (hnodup : s.operations.Nodup) (hrow : row ∈ s.operations)
    (hprepared : row.completion = none) :
    (s.completing row completion).preparedCount + 1 = s.preparedCount := by
  have hcount := Table.length_filter_replace OperationRow.isPrepared (row.complete completion)
    hnodup hrow
  have hold : row.isPrepared = true := isPrepared_iff.mpr hprepared
  have hnew : (row.complete completion).isPrepared = false := rfl
  rw [hold, hnew] at hcount
  unfold AdminStore.preparedCount AdminStore.completing
  rw [List.countP_eq_length_filter, List.countP_eq_length_filter]
  exact hcount

theorem JournalInv.completing (inv : JournalInv models s) (hrow : row ∈ s.operations)
    (hprepared : row.completion = none) (hfits : Fits row completion)
    (hdigest : completion.responseSha256 = Sha256.digest completion.responseModel)
    (hadmitted : responseAdmitted models row.route completion.responseModel = true) :
    JournalInv models (s.completing row completion) where
  unique := inv.unique.replace rfl
  sound := by
    intro other hother
    rcases Table.mem_replace.mp hother with ⟨hold, -⟩ | ⟨-, rfl⟩
    · exact inv.sound other hold
    · refine ⟨(inv.sound row hrow).mutation, hfits, ?_⟩
      rintro _ ⟨rfl⟩
      exact ⟨hdigest, hadmitted⟩
  prepared_few := by
    have hcount : (s.completing row completion).preparedCount + 1 = s.preparedCount :=
      preparedCount_completing inv.unique.nodup hrow hprepared
    have hfew := inv.prepared_few
    omega
  few := by
    simp only [AdminStore.completing, Table.length_replace]
    exact inv.few

/-- A prepared operation keeps a slot free for its completion. -/
theorem JournalInv.completed_lt (inv : JournalInv models s) (hrow : row ∈ s.operations)
    (hprepared : row.completion = none) : (readCounts s).1 < completedLimit := by
  have hcounts := completed_add_prepared s
  have hpos : 0 < (readCounts s).2 :=
    List.countP_pos_iff.mpr ⟨row, hrow, isPrepared_iff.mpr hprepared⟩
  have hfew := inv.few
  omega

/-- The row of a completing operation is the only prepared one under its ID. -/
theorem JournalInv.run_update (inv : JournalInv models s) (hnames : token.Names row)
    (hrow : row ∈ s.operations) {n : ℕ} {s' : AdminStore} :
    (operationsTable.update completionAllowed JournalError.storage
        (fun row => row.operationId = token.operationId ∧ row.isPrepared = true)
        (fun row => row.complete completion)).run s = .ok (n, s') ↔
      Fits row completion ∧ n = 1 ∧ s.completing row completion = s' := by
  have hprepared : row.isPrepared = true := isPrepared_iff.mpr hnames.prepared
  rw [operationsTable.run_update_only row inv.unique.nodup hrow]
  · have hallowed : completionAllowed row (row.complete completion) = true ↔
        Fits row completion := by
      simp [completionAllowed, hprepared, Fits, OperationRow.complete, OperationRow.isCompleted]
    rw [hallowed]
    rfl
  · simp [hnames.operationId, hprepared]
  · intro other hother hmatch
    simp only [decide_eq_true_eq] at hmatch
    exact inv.unique.eq_of_key_eq hother hrow (hmatch.1.trans hnames.operationId.symm)

/-- What a committed completion found. -/
inductive Completes (s : AdminStore) (token : PreparedOperation) (completion : Completion) :
    CompletionOutcome → AdminStore → Prop
  | now {row : OperationRow} (mem : row ∈ s.operations) (names : token.Names row)
      (fits : Fits row completion) :
      Completes s token completion .completed (s.completing row completion)
  | before {row : OperationRow} {earlier : Completion} (mem : row ∈ s.operations)
      (operationId : row.operationId = token.operationId) (route : row.route = token.route)
      (request : row.requestSha256 = token.requestSha256) (completed : row.completion = some earlier)
      (response : earlier.responseModel = completion.responseModel) :
      Completes s token completion .exactReplay s

theorem answerCompletion_none {existing : Option OperationRow} :
    answerCompletion token response existing = .ok none ↔ ∃ row, existing = some row ∧
      row.completion = none ∧ row.route = token.route ∧
      row.requestSha256 = token.requestSha256 ∧ row.preparedAt = token.preparedAt := by
  cases existing with
  | none => simp [answerCompletion]
  | some row =>
      cases hcompletion : row.completion with
      | none =>
          simp [answerCompletion, hcompletion, Except.bind_eq_ok_iff, pure, Except.pure]
      | some completion =>
          simp [answerCompletion, hcompletion, Except.bind_eq_ok_iff, pure, Except.pure]

theorem answerCompletion_some {existing : Option OperationRow} {outcome : CompletionOutcome}
    (h : answerCompletion token response existing = .ok (some outcome)) :
    outcome = .exactReplay ∧ ∃ row earlier, existing = some row ∧
      row.completion = some earlier ∧ row.route = token.route ∧
      row.requestSha256 = token.requestSha256 ∧ earlier.responseModel = response := by
  cases existing with
  | none => simp [answerCompletion] at h
  | some row =>
      cases hcompletion : row.completion with
      | none =>
          simp [answerCompletion, hcompletion, Except.bind_eq_ok_iff, pure, Except.pure] at h
      | some completion =>
          simp only [answerCompletion, hcompletion, Except.bind_eq_ok_iff, Except.require_eq_ok,
            pure, Except.pure, Except.ok.injEq, Option.some.injEq, exists_const] at h
          obtain ⟨⟨hroute, hrequest, hresponse, -⟩, rfl⟩ := h
          exact ⟨rfl, row, completion, rfl, hcompletion, hroute, hrequest, hresponse⟩

/-- A committed completion. -/
theorem JournalInv.complete_cases (inv : JournalInv models s) {outcome : CompletionOutcome}
    {s' : AdminStore}
    (h : (completeOperation token response completedAt expiresAt).run s = .ok (outcome, s')) :
    Completes s token (.of response completedAt expiresAt) outcome s' := by
  unfold completeOperation at h
  obtain ⟨existing, hread, h⟩ := run_query_bind_eq_ok.mp h
  rw [inv.readOperation_eq] at hread
  obtain rfl := Except.ok.inj hread
  obtain ⟨answer, hanswer, h⟩ := run_query_bind_eq_ok.mp h
  cases answer with
  | some answered =>
      obtain ⟨rfl, rfl⟩ := run_pure_eq_ok.mp h
      obtain ⟨rfl, row, earlier, hlookup, hcompletion, hroute, hrequest, hresponse⟩ :=
        answerCompletion_some hanswer
      obtain ⟨hrow, hid⟩ := inv.lookup_eq_some.mp hlookup
      exact .before hrow hid hroute hrequest hcompletion hresponse
  | none =>
      obtain ⟨row, hlookup, hcompletion, hroute, hrequest, hpreparedAt⟩ :=
        answerCompletion_none.mp hanswer
      obtain ⟨hrow, hid⟩ := inv.lookup_eq_some.mp hlookup
      have hnames : token.Names row := ⟨hid, hroute, hrequest, hpreparedAt, hcompletion⟩
      obtain ⟨_, -, h⟩ := run_query_bind_eq_ok.mp h
      obtain ⟨-, h⟩ := run_require_bind_eq_ok.mp h
      obtain ⟨_, _, hupdate, h⟩ := run_bind_eq_ok.mp h
      obtain ⟨hfits, -, rfl⟩ := (inv.run_update hnames hrow).mp hupdate
      obtain ⟨-, h⟩ := run_require_bind_eq_ok.mp h
      obtain ⟨_, -, h⟩ := run_query_bind_eq_ok.mp h
      obtain ⟨-, h⟩ := run_require_bind_eq_ok.mp h
      obtain ⟨rfl, rfl⟩ := run_pure_eq_ok.mp h
      exact .now hrow hnames hfits

theorem answerCompletion_not_exhausted {existing : Option OperationRow} :
    answerCompletion token response existing ≠ .error .resourceExhausted := by
  intro h
  cases existing with
  | none => cases h
  | some row =>
      unfold answerCompletion at h
      dsimp only at h
      split at h
      next =>
        rcases Except.bind_eq_error_iff.mp h with h | ⟨_, -, h⟩
        · cases (Except.require_eq_error.mp h).2
        · cases h
      next =>
        rcases Except.bind_eq_error_iff.mp h with h | ⟨_, -, h⟩
        · cases (Except.require_eq_error.mp h).2
        · cases h

/-- No completion finds the journal full. -/
theorem JournalInv.complete_not_exhausted (inv : JournalInv models s) :
    (completeOperation token response completedAt expiresAt).run s ≠ .error .resourceExhausted := by
  intro h
  have hread : (query (readOperation · token.operationId)).run s =
      .ok (s.lookup token.operationId, s) := run_query_of_ok (inv.readOperation_eq _)
  unfold completeOperation at h
  rw [run_bind_of_ok hread] at h
  rcases run_bind_eq_error.mp h with h | ⟨answer, s₁, hanswer, h⟩
  · rw [run_query_eq_error] at h
    exact answerCompletion_not_exhausted h
  obtain ⟨hfound, rfl⟩ := run_query_eq_ok.mp hanswer
  cases answer with
  | some outcome => cases h
  | none =>
      obtain ⟨row, hlookup, hcompletion, -⟩ := answerCompletion_none.mp hfound
      obtain ⟨hrow, -⟩ := inv.lookup_eq_some.mp hlookup
      rcases run_bind_eq_error.mp h with h | ⟨counts, _, hquery, h⟩
      · cases h
      obtain ⟨hcounts, rfl⟩ := run_query_eq_ok.mp hquery
      obtain rfl := Except.ok.inj hcounts
      rcases run_bind_eq_error.mp h with h | ⟨_, _, hfree, h⟩
      · exact (run_require_eq_error.mp h).1 (inv.completed_lt hrow hcompletion)
      rcases run_bind_eq_error.mp h with h | ⟨_, _, hupdate, h⟩
      · cases operationsTable.run_update_eq_error h
      rcases run_bind_eq_error.mp h with h | ⟨_, _, -, h⟩
      · cases (run_require_eq_error.mp h).2
      rcases run_bind_eq_error.mp h with h | ⟨_, _, -, h⟩
      · rw [run_query_eq_error] at h
        exact readOperation_not_exhausted h
      rcases run_bind_eq_error.mp h with h | ⟨_, _, -, h⟩
      · cases (run_require_eq_error.mp h).2
      · cases h

end Complete

end MycSigner.Admin
