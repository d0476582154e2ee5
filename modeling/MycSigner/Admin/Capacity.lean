import MycSigner.Admin.Idempotency

/-!
# The capacity of the journal

The handlers of backup and discovery prepare an operation, work outside the journal and then
complete it.  A handler that fails in between, or a crash, leaves the operation prepared, and a
prepared operation is never pruned: its outcome is unknown.  The slots that are taken when no
request is executing are exactly those of the operations that were left unresolved.
-/

namespace MycSigner.Admin

open Transaction

variable {models : ResponseModels}

/-! ## The handlers -/

/-- The journal with the tokens of the requests that are executing and of those that ended
without completing their operation. -/
structure Service where
  journal : AdminStore
  inFlight : List PreparedOperation
  unresolved : List PreparedOperation

/-- What the handlers of the admin requests do. -/
inductive Event (models : ResponseModels) where
  /-- A database request runs in one transaction. -/
  | database (config : Configuration) (request : RequestDocument) (completedAt : OperationTime)
      (policy : JournalPolicy) (operation : Effect models)
  /-- A backup or discovery request prepares its operation. -/
  | prepare (config : Configuration) (request : RequestDocument) (observedAt : OperationTime)
  /-- A backup, a render or a refresh completes its operation with its response. -/
  | complete (config : Configuration) (token : PreparedOperation)
      (response : ResponseDocument models) (completedAt : OperationTime) (policy : JournalPolicy)
  /-- A publication completes its operation with its effect. -/
  | publish (config : Configuration) (token : PreparedOperation) (completedAt : OperationTime)
      (policy : JournalPolicy) (operation : Effect models)
  /-- The handler returns an error between preparing and completing. -/
  | fail (token : PreparedOperation)
  /-- The process stops; the journal is what its transactions committed. -/
  | crash
  /-- Another transaction of the service. -/
  | elsewhere (other : Store)

namespace Service

/-- A request ends and leaves its operation as it is. -/
def abandon (service : Service) (token : PreparedOperation) : Service :=
  { service with
    inFlight := service.inFlight.erase token, unresolved := token :: service.unresolved }

/-- A request ends after a completion in its own transaction. -/
def settle {α : Type} (service : Service) (token : PreparedOperation) (body : JournalTx α) :
    Service :=
  match body.run service.journal with
  | .ok (_, journal) => { service with journal, inFlight := service.inFlight.erase token }
  | .error _ => service.abandon token

/-- The service after an event; only a request that is executing can complete or fail. -/
def perform (service : Service) : Event models → Service
  | .database config request completedAt policy operation =>
      { service with journal :=
        (Call.execute config request completedAt policy operation).perform service.journal }
  | .prepare config request observedAt =>
      match (prepareAdminOperation models config request observedAt).run service.journal with
      | .ok (.prepared token, journal) =>
          { service with journal, inFlight := token :: service.inFlight }
      | .ok (.exactReplay _, journal) => { service with journal }
      | .error _ => service
  | .complete config token response completedAt policy =>
      if token ∈ service.inFlight then
        service.settle token (completeAdminOperation config token response completedAt policy)
      else service
  | .publish config token completedAt policy operation =>
      if token ∈ service.inFlight then
        service.settle token
          (completePreparedDatabaseAdminOperation config token completedAt policy operation)
      else service
  | .fail token => if token ∈ service.inFlight then service.abandon token else service
  | .crash =>
      { service with inFlight := [], unresolved := service.inFlight ++ service.unresolved }
  | .elsewhere other => { service with journal := { service.journal with store := other } }

/-- A service with an empty journal. -/
def initial (store : Store) : Service := ⟨⟨store, []⟩, [], []⟩

/-- The service after a run. -/
def after (store : Store) (events : List (Event models)) : Service :=
  Run.after perform (initial store) events

end Service

/-! ## Prepared operations and their requests -/

/-- The tokens of the prepared operations. -/
def OperationRow.token (row : OperationRow) : PreparedOperation :=
  ⟨row.operationId, row.route, row.requestSha256, row.preparedAt⟩

def AdminStore.tokens (s : AdminStore) : List PreparedOperation :=
  (s.operations.filter OperationRow.isPrepared).map OperationRow.token

theorem length_tokens (s : AdminStore) : s.tokens.length = s.preparedCount := by
  rw [AdminStore.tokens, List.length_map, AdminStore.preparedCount, List.countP_eq_length_filter]

/-- The prepared operations are those of the executing and of the unresolved requests. -/
structure ServiceInv (models : ResponseModels) (service : Service) : Prop extends
    JournalInv models service.journal where
  tokens : service.journal.tokens.Perm (service.inFlight ++ service.unresolved)

theorem tokens_pruned (s : AdminStore) (observedAt : OperationTime) :
    (s.pruned observedAt).tokens = s.tokens := by
  unfold AdminStore.tokens AdminStore.pruned
  rw [List.filter_filter]
  congr 1
  refine List.filter_congr fun row _ => ?_
  cases hprepared : row.isPrepared with
  | false => simp
  | true => simp [expiredBy_of_prepared hprepared]

theorem tokens_with (s : AdminStore) (row : OperationRow) :
    (s.with row).tokens = s.tokens ++ if row.isPrepared then [row.token] else [] := by
  unfold AdminStore.tokens AdminStore.with
  rw [List.filter_append, List.map_append]
  cases h : row.isPrepared <;> simp [h]

theorem tokens_of_operations {s s' : AdminStore} (h : s'.operations = s.operations) :
    s'.tokens = s.tokens := by
  unfold AdminStore.tokens
  rw [h]

/-- A completion takes one token away. -/
theorem tokens_completing {s : AdminStore} {row : OperationRow} {completion : Completion}
    (hnodup : s.operations.Nodup) (hrow : row ∈ s.operations) (hprepared : row.completion = none) :
    s.tokens.Perm (row.token :: (s.completing row completion).tokens) := by
  obtain ⟨first, second, heq⟩ := List.append_of_mem hrow
  have hold : row.isPrepared = true := isPrepared_iff.mpr hprepared
  have hnew : (row.complete completion).isPrepared = false := rfl
  rw [heq] at hnodup
  unfold AdminStore.tokens AdminStore.completing
  rw [heq, Table.replace_append_cons _ hnodup]
  simp only [List.filter_append, List.filter_cons, hold, hnew, if_true, Bool.false_eq_true,
    if_false, List.map_append, List.map_cons]
  exact List.perm_middle

/-- A token of the journal is the token of a prepared row. -/
theorem mem_tokens {s : AdminStore} {token : PreparedOperation} :
    token ∈ s.tokens ↔ ∃ row ∈ s.operations, token.Names row := by
  simp only [AdminStore.tokens, List.mem_map, List.mem_filter, isPrepared_iff]
  constructor
  · rintro ⟨row, ⟨hrow, hprepared⟩, rfl⟩
    exact ⟨row, hrow, rfl, rfl, rfl, rfl, hprepared⟩
  · rintro ⟨row, hrow, hnames⟩
    refine ⟨row, ⟨hrow, hnames.prepared⟩, ?_⟩
    rw [OperationRow.token, hnames.operationId, hnames.route, hnames.request, hnames.preparedAt]

theorem PreparedOperation.Names.token_eq {token : PreparedOperation} {row : OperationRow}
    (h : token.Names row) : row.token = token := by
  rw [OperationRow.token, h.operationId, h.route, h.request, h.preparedAt]

section

variable {s s' : AdminStore} {token : PreparedOperation} {row : OperationRow}

/-- The operation of a token that names a prepared row is not completed. -/
theorem JournalInv.not_completed (inv : JournalInv models s) (hrow : row ∈ s.operations)
    (hnames : token.Names row) {other : OperationRow} (hother : other ∈ s.operations)
    (hid : other.operationId = token.operationId) : other.isCompleted = false := by
  rw [inv.unique.eq_of_key_eq hother hrow (hid.trans hnames.operationId.symm),
    OperationRow.isCompleted, hnames.prepared]
  rfl

theorem JournalInv.tokens_complete {config : Configuration} {response : ResponseDocument models}
    {completedAt : OperationTime} {policy : JournalPolicy} {effect : Option OperationId}
    (inv : JournalInv models s) (hrow : row ∈ s.operations) (hnames : token.Names row)
    (h : Step s (.complete config token response completedAt policy) effect s') :
    s.tokens.Perm (token :: s'.tokens) := by
  cases h with
  | completed mem names =>
      rw [← names.token_eq]
      exact tokens_completing inv.unique.nodup mem names.prepared
  | repeated mem operationId completed =>
      rw [inv.not_completed hrow hnames mem operationId] at completed
      cases completed

theorem JournalInv.tokens_publish {config : Configuration} {completedAt : OperationTime}
    {policy : JournalPolicy} {operation : Effect models} {effect : Option OperationId}
    (inv : JournalInv models s) (hrow : row ∈ s.operations) (hnames : token.Names row)
    (h : Step s (.completePrepared config token completedAt policy operation) effect s') :
    s.tokens.Perm (token :: s'.tokens) := by
  cases h with
  | effected mem names =>
      rw [← names.token_eq]
      exact tokens_completing inv.unique.nodup mem names.prepared
  | effectedAgain mem operationId completed =>
      rw [inv.not_completed hrow hnames mem operationId] at completed
      cases completed

end

/-! ## Every event keeps the correspondence -/

namespace ServiceInv

variable {service : Service} {token : PreparedOperation}

theorem named (inv : ServiceInv models service) (h : token ∈ service.inFlight) :
    ∃ row ∈ service.journal.operations, token.Names row :=
  mem_tokens.mp (inv.tokens.mem_iff.mpr (List.mem_append_left _ h))

theorem abandon (inv : ServiceInv models service) (h : token ∈ service.inFlight) :
    ServiceInv models (service.abandon token) where
  toJournalInv := inv.toJournalInv
  tokens := by
    refine inv.tokens.trans ?_
    refine ((List.perm_cons_erase h).append_right _).trans ?_
    exact List.perm_middle.symm

/-- A completion in a transaction of its own ends its request. -/
theorem settle {α : Type} {body : JournalTx α} (inv : ServiceInv models service)
    (h : token ∈ service.inFlight)
    (hbody : ∀ a journal, body.run service.journal = .ok (a, journal) →
      JournalInv models journal ∧ service.journal.tokens.Perm (token :: journal.tokens)) :
    ServiceInv models (service.settle token body) := by
  unfold Service.settle
  cases hrun : body.run service.journal with
  | error e => exact inv.abandon h
  | ok result =>
      obtain ⟨hjournal, hperm⟩ := hbody result.1 result.2 hrun
      refine ⟨hjournal, ?_⟩
      have hall := hperm.symm.trans (inv.tokens.trans ((List.perm_cons_erase h).append_right _))
      exact hall.cons_inv

theorem perform (inv : ServiceInv models service) (event : Event models) :
    ServiceInv models (service.perform event) := by
  cases event with
  | database config request completedAt policy operation =>
      refine ⟨inv.toJournalInv.perform (.execute config request completedAt policy operation), ?_⟩
      rcases inv.toJournalInv.perform_cases (.execute config request completedAt policy operation)
        with ⟨hsame, -⟩ | ⟨hstep, -⟩
      · simp only [Service.perform, hsame]
        exact inv.tokens
      · have htokens : ∀ {effect s'}, Step service.journal
            (.execute config request completedAt policy operation : Call models) effect s' →
            s'.tokens = service.journal.tokens := by
          intro effect s' hstep
          cases hstep with
          | executed =>
              refine (tokens_of_operations rfl).trans ((tokens_with _ _).trans ?_)
              simp [RequestBinding.executedRow, OperationRow.isPrepared, tokens_pruned]
          | replayed => exact tokens_pruned _ _
        simp only [Service.perform, htokens hstep]
        exact inv.tokens
  | prepare config request observedAt =>
      simp only [Service.perform]
      cases hrun : (prepareAdminOperation models config request observedAt).run
          service.journal with
      | error e => exact inv
      | ok result =>
          obtain ⟨admission, journal⟩ := result
          have hjournal := inv.toJournalInv.step (inv.toJournalInv.prepare_step hrun)
          rcases inv.toJournalInv.prepareAdmin_cases hrun with
            ⟨binding, -, rfl, -, rfl⟩ | ⟨response, rfl, rfl⟩
          · refine ⟨hjournal, ?_⟩
            simp only [tokens_with, tokens_pruned]
            exact (List.perm_append_comm).trans (inv.tokens.cons _)
          · refine ⟨hjournal, ?_⟩
            simp only [tokens_pruned]
            exact inv.tokens
  | complete config token response completedAt policy =>
      simp only [Service.perform]
      split
      next hflight =>
        obtain ⟨row, hrow, hnames⟩ := inv.named hflight
        refine inv.settle hflight fun outcome journal hrun => ?_
        have hstep := inv.toJournalInv.complete_step hrun
        exact ⟨inv.toJournalInv.step hstep, inv.toJournalInv.tokens_complete hrow hnames hstep⟩
      next => exact inv
  | publish config token completedAt policy operation =>
      simp only [Service.perform]
      split
      next hflight =>
        obtain ⟨row, hrow, hnames⟩ := inv.named hflight
        refine inv.settle hflight fun response journal hrun => ?_
        have hstep := inv.toJournalInv.completePrepared_step hrun
        exact ⟨inv.toJournalInv.step hstep, inv.toJournalInv.tokens_publish hrow hnames hstep⟩
      next => exact inv
  | fail token =>
      simp only [Service.perform]
      split
      next hflight => exact inv.abandon hflight
      next => exact inv
  | crash => exact ⟨inv.toJournalInv, inv.tokens⟩
  | elsewhere other => exact ⟨inv.toJournalInv.of_operations rfl, inv.tokens⟩

theorem initial (models : ResponseModels) (store : Store) :
    ServiceInv models (Service.initial store) :=
  ⟨.empty models store, List.Perm.refl _⟩

end ServiceInv

theorem serviceInv_after (store : Store) (events : List (Event models)) :
    ServiceInv models (Service.after store events) :=
  Run.invariant_always (fun _ event inv => inv.perform event) events (.initial models store)

/-! ## When the journal is full -/

/-- The time is later than every stored expiry. -/
def LaterThanExpiries (s : AdminStore) (observedAt : OperationTime) : Prop :=
  ∀ row ∈ s.operations, ∀ completion, row.completion = some completion →
    completion.expiresAt.get < observedAt.get

theorem length_pruned_of_later {s : AdminStore} {observedAt : OperationTime}
    (h : LaterThanExpiries s observedAt) :
    (s.pruned observedAt).operations.length = s.preparedCount := by
  unfold AdminStore.pruned AdminStore.preparedCount
  rw [List.countP_eq_length_filter]
  refine congrArg _ (List.filter_congr fun row hrow => ?_)
  cases hcompletion : row.completion with
  | none => simp [OperationRow.expiredBy, OperationRow.isPrepared, hcompletion]
  | some completion =>
      have hexpired := h row hrow completion hcompletion
      simp only [OperationRow.expiredBy, OperationRow.isPrepared, hcompletion, Option.any_some,
        Option.isNone_some, Bool.not_eq_false', decide_eq_true_eq]
      exact Nat.le_of_lt hexpired

theorem lookup_pruned_none {s : AdminStore} {operationId : OperationId}
    (h : s.lookup operationId = none) (observedAt : OperationTime) :
    (s.pruned observedAt).lookup operationId = none :=
  lookup_eq_none.mpr fun row hrow => lookup_eq_none.mp h row (mem_pruned.mp hrow).1

/-- With no request executing, a fresh operation is refused exactly when the unresolved ones
take every prepared slot. -/
theorem ServiceInv.refused_iff {service : Service} {binding : RequestBinding}
    {observedAt : OperationTime} (inv : ServiceInv models service)
    (hidle : service.inFlight = []) (hroute : binding.route.isMutation = true)
    (hfresh : service.journal.lookup binding.operationId = none)
    (hlater : LaterThanExpiries service.journal observedAt) :
    (prepareOperation models binding observedAt).run service.journal =
      .error .resourceExhausted ↔ service.unresolved.length = preparedLimit := by
  have hcount : service.journal.preparedCount = service.unresolved.length := by
    rw [← length_tokens, inv.tokens.length_eq, hidle, List.nil_append]
  have hlength := length_pruned_of_later hlater
  have hunknown := lookup_pruned_none hfresh observedAt
  have hfew := inv.prepared_few
  constructor
  · intro hrefused
    by_contra hslots
    have hlt : service.journal.preparedCount < preparedLimit := by omega
    have hadmits : Admits (service.journal.pruned observedAt) binding.operationId := by
      refine ⟨hunknown, ?_, (preparedCount_pruned _ _).symm ▸ hlt⟩
      rw [hlength]
      exact Nat.lt_trans hlt (by decide)
    rw [inv.prepare_reserves hroute hadmits] at hrefused
    cases hrefused
  · intro hslots
    refine inv.prepare_exhausted hunknown fun hfree => ?_
    omega

/-- In every state that backup, discovery and database requests reach with no request
executing, a fresh operation at a time later than every stored expiry is refused for want of
space exactly when 128 operations were left unresolved by a failure or a crash after their
preparation. -/
theorem capacity_refused_iff_unresolved (models : ResponseModels) (store : Store)
    (events : List (Event models)) (request : RequestDocument) (binding : RequestBinding)
    (observedAt : OperationTime) (hidle : (Service.after store events).inFlight = [])
    (hdocument : RequestBinding.fromDocument request = .ok binding)
    (hfresh : (Service.after store events).journal.lookup binding.operationId = none)
    (hlater : LaterThanExpiries (Service.after store events).journal observedAt) :
    (prepareOperation models binding observedAt).run (Service.after store events).journal =
        .error .resourceExhausted ↔
      (Service.after store events).unresolved.length = preparedLimit :=
  (serviceInv_after store events).refused_iff hidle (fromDocument_eq_ok hdocument).1 hfresh hlater

/-! ## Backups that fail -/

section

variable {service : Service} {binding : RequestBinding} {request : RequestDocument}
  {config : Configuration} {observedAt : OperationTime}

theorem run_requireExpected {s : AdminStore}
    (h : (requireExpectedMetadata config).run s.store = .ok ((), s.store)) :
    (requireExpected config).run s = .ok ((), s) := by
  refine run_onStore_eq_ok.mpr ⟨s.store, ?_, rfl⟩
  unfold Transaction.run at h ⊢
  dsimp only
  rw [h]

/-- A request that fails after its preparation leaves one more operation unresolved. -/
theorem ServiceInv.prepare_then_fail (inv : ServiceInv models service)
    (hidle : service.inFlight = []) (hdocument : RequestBinding.fromDocument request = .ok binding)
    (hconfig : (requireExpectedMetadata config).run service.journal.store =
      .ok ((), service.journal.store))
    (hprepared : ∀ row ∈ service.journal.operations, row.completion = none)
    (hfresh : service.journal.lookup binding.operationId = none)
    (hfew : service.unresolved.length < preparedLimit) :
    (service.perform (.prepare config request observedAt : Event models)).perform
        (.fail (binding.token observedAt) : Event models) =
      ⟨service.journal.with (binding.preparedRow observedAt), [],
        binding.token observedAt :: service.unresolved⟩ := by
  have hcount : service.journal.preparedCount = service.unresolved.length := by
    rw [← length_tokens, inv.tokens.length_eq, hidle, List.nil_append]
  have hpruned : service.journal.pruned observedAt = service.journal := by
    unfold AdminStore.pruned
    rw [List.filter_eq_self.mpr]
    intro row hrow
    simp [OperationRow.expiredBy, hprepared row hrow]
  have hlength : service.journal.operations.length = service.journal.preparedCount := by
    rw [AdminStore.preparedCount, eq_comm, List.countP_eq_length]
    exact fun row hrow => isPrepared_iff.mpr (hprepared row hrow)
  have hlimits : preparedLimit ≤ completedLimit := by decide
  have hadmits : Admits (service.journal.pruned observedAt) binding.operationId := by
    rw [hpruned]
    exact ⟨hfresh, by omega, by omega⟩
  have hrun : (prepareAdminOperation models config request observedAt).run service.journal =
      .ok (.prepared (binding.token observedAt),
        service.journal.with (binding.preparedRow observedAt)) := by
    have hbinding : (query fun _ => RequestBinding.fromDocument request : JournalTx _).run
        service.journal = .ok (binding, service.journal) := run_query_of_ok hdocument
    unfold prepareAdminOperation
    rw [run_bind_of_ok hbinding, run_bind_of_ok (run_requireExpected hconfig)]
    have hreserved := inv.prepare_reserves (fromDocument_eq_ok hdocument).1 hadmits
    rwa [hpruned] at hreserved
  simp only [Service.perform, hrun, hidle, Service.abandon, List.mem_singleton, if_true,
    List.erase_cons_head]

end

namespace SampleJournal

/-- A text of letters only. -/
def letters (n : ℕ) : Bytes := List.replicate (n + 1) 97

theorem letters_valid {n : ℕ} (h : n < 128) : operationIdValid (letters n) = true := by
  simp only [operationIdValid, letters, List.length_replicate, Bool.and_eq_true,
    decide_eq_true_eq, List.all_replicate]
  exact ⟨⟨h, by simp [List.replicate_succ]; decide⟩, by simp; decide⟩

def lettersId (n : ℕ) (h : n < 128) : OperationId := ⟨letters n, letters_valid h⟩

/-- The backup request under an operation ID. -/
def backup (n : ℕ) : RequestDocument :=
  { request .stateBackup "backup" ("\x7b\"confirmation\":\"confirm\"," ++
      "\"expected_generation\":1,\"target_path\":\"/backup\"\x7d") (by decide +kernel) with
    operationId := some (letters n) }

def backupBinding (n : ℕ) (h : n < 128) : RequestBinding :=
  ⟨lettersId n h, .stateBackup, requestDigest (backup n)⟩

theorem backup_document (n : ℕ) (h : n < 128) :
    RequestBinding.fromDocument (backup n) = .ok (backupBinding n h) := by
  refine Except.bind_eq_ok_iff.mpr ⟨(), rfl, ?_⟩
  refine Except.bind_eq_ok_iff.mpr ⟨letters n, rfl, ?_⟩
  exact Except.bind_eq_ok_iff.mpr
    ⟨lettersId n h, Except.ofOption_eq_ok.mpr (dif_pos (letters_valid h)), rfl⟩

/-- As many backups that fail after their preparation. -/
def failedBackups : (n : ℕ) → n ≤ 128 → List (Event receipts)
  | 0, _ => []
  | n + 1, h => failedBackups n (Nat.le_of_succ_le h) ++
      [.prepare SampleService.config (backup n) (time 1000),
        .fail ((backupBinding n h).token (time 1000))]

/-- The service when only backups have failed. -/
structure Failed (n : ℕ) (service : Service) : Prop where
  idle : service.inFlight = []
  unresolved : service.unresolved.length = n
  store : service.journal.store = store
  rows : ∀ row ∈ service.journal.operations, row.completion = none ∧
    row.operationId.bytes.length ≤ n ∧ row.operationId.bytes.head? = some 97

theorem failedBackups_unresolved (n : ℕ) (h : n ≤ 128) :
    Failed n (Service.after store (failedBackups n h)) := by
  induction n with
  | zero => exact ⟨rfl, rfl, rfl, nofun⟩
  | succ n ih =>
      have before := ih (Nat.le_of_succ_le h)
      have inv : ServiceInv receipts (Service.after store (failedBackups n (Nat.le_of_succ_le h))) :=
        serviceInv_after store _
      have hafter : Service.after store (failedBackups (n + 1) h) =
          ((Service.after store (failedBackups n (Nat.le_of_succ_le h))).perform
            (.prepare SampleService.config (backup n) (time 1000) :
              Event receipts)).perform
            (.fail ((backupBinding n h).token (time 1000)) : Event receipts) :=
        Run.after_append ..
      have hfresh : (Service.after store (failedBackups n (Nat.le_of_succ_le h))).journal.lookup
          (backupBinding n h).operationId = none := by
        refine lookup_eq_none.mpr fun row hrow hid => ?_
        have hlength := (before.rows row hrow).2.1
        rw [hid] at hlength
        simp only [backupBinding, lettersId, letters, List.length_replicate] at hlength
        omega
      have hconfig : (requireExpectedMetadata SampleService.config).run
          (Service.after store (failedBackups n (Nat.le_of_succ_le h))).journal.store =
          .ok ((), (Service.after store (failedBackups n
            (Nat.le_of_succ_le h))).journal.store) := by
        rw [before.store]
        rfl
      have hfew : (Service.after store (failedBackups n
          (Nat.le_of_succ_le h))).unresolved.length < preparedLimit := by
        rw [before.unresolved]
        exact h
      rw [hafter, inv.prepare_then_fail before.idle (backup_document n h) hconfig
        (fun row hrow => (before.rows row hrow).1) hfresh hfew]
      refine ⟨rfl, congrArg (· + 1) before.unresolved, before.store, ?_⟩
      intro row hrow
      rcases List.mem_append.mp hrow with hold | hnew
      · obtain ⟨hprepared, hlength, hhead⟩ := before.rows row hold
        exact ⟨hprepared, Nat.le_succ_of_le hlength, hhead⟩
      · rw [List.mem_singleton.mp hnew]
        exact ⟨rfl, by simp [RequestBinding.preparedRow, backupBinding, lettersId, letters],
          by simp [RequestBinding.preparedRow, backupBinding, lettersId, letters,
            List.replicate_succ]⟩

def publishBinding : RequestBinding := ⟨publishId, .discoveryPublish, requestDigest publish⟩

theorem publish_document : RequestBinding.fromDocument publish = .ok publishBinding := by
  refine Except.bind_eq_ok_iff.mpr ⟨(), rfl, ?_⟩
  refine Except.bind_eq_ok_iff.mpr ⟨publishId.bytes, rfl, ?_⟩
  exact Except.bind_eq_ok_iff.mpr
    ⟨publishId, Except.ofOption_eq_ok.mpr (dif_pos publishId.valid), rfl⟩

theorem Failed.fresh {n : ℕ} {service : Service} (h : Failed n service) :
    service.journal.lookup publishId = none := by
  refine lookup_eq_none.mpr fun row hrow hid => ?_
  have hhead := (h.rows row hrow).2.2
  rw [hid] at hhead
  revert hhead
  decide +kernel

theorem Failed.later {n : ℕ} {service : Service} (h : Failed n service)
    (observedAt : OperationTime) : LaterThanExpiries service.journal observedAt := by
  intro row hrow completion hcompletion
  rw [(h.rows row hrow).1] at hcompletion
  cases hcompletion

end SampleJournal

open SampleJournal in
/-- A publication still has room after 127 failed backups, and none after one more. -/
theorem last_slot_taken_by_backup :
    (prepareOperation receipts publishBinding (time 2000)).run
        (Service.after store (failedBackups 127 (Nat.le_succ 127))).journal ≠
          .error .resourceExhausted ∧
      (prepareOperation receipts publishBinding (time 2000)).run
        (Service.after store (failedBackups 128 (Nat.le_refl 128))).journal =
          .error .resourceExhausted := by
  have hbefore := failedBackups_unresolved 127 (Nat.le_succ 127)
  have hafter := failedBackups_unresolved 128 (Nat.le_refl 128)
  constructor
  · intro hrefused
    have hslots := (capacity_refused_iff_unresolved receipts store _ publish publishBinding
      (time 2000) hbefore.idle publish_document hbefore.fresh (hbefore.later _)).mp hrefused
    rw [hbefore.unresolved] at hslots
    cases hslots
  · exact (capacity_refused_iff_unresolved receipts store _ publish publishBinding (time 2000)
      hafter.idle publish_document hafter.fresh (hafter.later _)).mpr hafter.unresolved

open SampleJournal in
/-- After 128 failed backups every fresh operation is refused, at any later time. -/
theorem failed_backups_exhaust_journal :
    let service := Service.after store (failedBackups 128 (Nat.le_refl _))
    service.inFlight = [] ∧ service.journal.lookup publishId = none ∧
      LaterThanExpiries service.journal (time 2000) ∧
      (prepareOperation receipts publishBinding (time 2000)).run service.journal =
        .error .resourceExhausted := by
  have hfailed := failedBackups_unresolved 128 (Nat.le_refl _)
  have hmutation : publishBinding.route.isMutation = true := rfl
  have hrefused := (serviceInv_after store (failedBackups 128 (Nat.le_refl _))).refused_iff
    hfailed.idle hmutation hfailed.fresh (hfailed.later (time 2000))
  exact ⟨hfailed.idle, hfailed.fresh, hfailed.later _, hrefused.mpr hfailed.unresolved⟩

end MycSigner.Admin
