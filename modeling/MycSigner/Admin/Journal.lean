import MycSigner.Configuration
import MycSigner.Encoding

/-!
# The journal of admin operations

A mutation that an administrator asks for has an operation ID.  The journal prepares an
operation before its effect and completes it with the response that later calls replay.  The
effect of a database operation commits in the same transaction as its completion; an
operation with an effect elsewhere is prepared in one transaction and completed in another.
-/

namespace MycSigner.Admin

open Transaction

/-! ## Routes and documents -/

/-- `MycAdminRoute` -/
inductive Route where
  | status
  | effectiveConfig
  | identityStatus
  | identityPublic
  | stateStatus
  | stateBackup
  | metricsSnapshot
  | connectionsList
  | connectionApprove
  | connectionReject
  | connectionRevoke
  | challengeRequire
  | challengeAuthorize
  | auditEvents
  | auditSummary
  | discoveryDesired
  | discoveryRender
  | discoveryRefresh
  | discoveryPublish
deriving DecidableEq

namespace Route

/-- `is_mutation`: the routes whose method is `Post`. -/
def isMutation : Route → Bool
  | .stateBackup | .connectionApprove | .connectionReject | .connectionRevoke
  | .challengeRequire | .challengeAuthorize | .discoveryRender | .discoveryRefresh
  | .discoveryPublish => true
  | _ => false

/-- `operation_id`: the label of a route. -/
def operationId : Route → String
  | .status => "radroots.myc.status.get.v1"
  | .effectiveConfig => "radroots.myc.config.effective.get.v1"
  | .identityStatus => "radroots.myc.identity.status.get.v1"
  | .identityPublic => "radroots.myc.identity.public.get.v1"
  | .stateStatus => "radroots.myc.state.status.get.v1"
  | .stateBackup => "radroots.myc.state.backup.create.v1"
  | .metricsSnapshot => "radroots.myc.metrics.snapshot.get.v1"
  | .connectionsList => "radroots.myc.connections.list.v1"
  | .connectionApprove => "radroots.myc.connection.approve.v1"
  | .connectionReject => "radroots.myc.connection.reject.v1"
  | .connectionRevoke => "radroots.myc.connection.revoke.v1"
  | .challengeRequire => "radroots.myc.authorization.challenge.require.v1"
  | .challengeAuthorize => "radroots.myc.authorization.challenge.authorize.v1"
  | .auditEvents => "radroots.myc.audit.events.list.v1"
  | .auditSummary => "radroots.myc.audit.summary.get.v1"
  | .discoveryDesired => "radroots.myc.discovery.desired.get.v1"
  | .discoveryRender => "radroots.myc.discovery.render.v1"
  | .discoveryRefresh => "radroots.myc.discovery.refresh.v1"
  | .discoveryPublish => "radroots.myc.discovery.publish.v1"

end Route

/-- `MYC_ADMIN_OPERATION_ID_MAX_BYTES` -/
def operationIdMaxBytes : ℕ := 128

/-- `MYC_ADMIN_OPERATION_RESPONSE_MODEL_MAX_BYTES` -/
def responseModelMaxBytes : ℕ := 8192

/-- `MYC_ADMIN_OPERATION_COMPLETED_LIMIT` -/
def completedLimit : ℕ := 4096

/-- `MYC_ADMIN_OPERATION_PREPARED_LIMIT` -/
def preparedLimit : ℕ := 128

/-- `PRUNE_LIMIT` -/
def pruneLimit : ℕ := 4096

def isAsciiAlphanumeric (byte : UInt8) : Bool :=
  (48 ≤ byte && byte ≤ 57) || (65 ≤ byte && byte ≤ 90) || (97 ≤ byte && byte ≤ 122)

/-- The text begins with a letter or a digit and holds these, dots, underscores, colons and
hyphens only. -/
def operationIdValid (bytes : Bytes) : Bool :=
  bytes.length ≤ operationIdMaxBytes && bytes.head?.any isAsciiAlphanumeric &&
    bytes.all fun byte => isAsciiAlphanumeric byte || byte == 46 || byte == 95 || byte == 58 ||
      byte == 45

/-- `AdminOperationIdBinding` -/
structure OperationId where
  bytes : Bytes
  valid : operationIdValid bytes = true
deriving DecidableEq

/-- `AdminOperationIdBinding::new` -/
def OperationId.new (value : Bytes) : Option OperationId :=
  if h : operationIdValid value = true then some ⟨value, h⟩ else none

/-- `MycAdminOperationTimeUnixMs` -/
structure OperationTime where
  get : ℕ
  sqlite : get ≤ i64Max

instance : DecidableEq OperationTime := fun left right =>
  decidable_of_decidable_of_iff (p := left.get = right.get) <| by
    cases left
    cases right
    simp

/-- `MycAdminOperationJournalPolicy` -/
structure JournalPolicy where
  completedRetentionMs : ℕ
  bounded : 1 ≤ completedRetentionMs ∧ completedRetentionMs ≤ 31536000000

instance : DecidableEq JournalPolicy := fun left right =>
  decidable_of_decidable_of_iff (p := left.completedRetentionMs = right.completedRetentionMs) <| by
    cases left
    cases right
    simp

/-- The fields of `MycAdminRequestDocument` that the journal reads.  A field in memory has fewer
bytes than a machine word counts. -/
structure RequestDocument where
  route : Route
  operationId : Option Bytes
  parameter : Option (Bytes × Bytes)
  modelBytes : Bytes
  parameter_sized : ∀ name value, parameter = some (name, value) →
    name.length < 2 ^ 64 ∧ value.length < 2 ^ 64
  model_sized : modelBytes.length < 2 ^ 64
deriving DecidableEq

/-- The byte string behind `request_digest`. -/
def RequestDocument.hashed (request : RequestDocument) : Bytes :=
  domain "radroots.myc.admin_operation_request.v1" ++
    lengthPrefixed (ascii request.route.operationId) ++
    (match request.parameter with
      | some (name, value) => [1] ++ lengthPrefixed name ++ lengthPrefixed value
      | none => [0]) ++
    lengthPrefixed request.modelBytes

/-- `request_digest` -/
def requestDigest (request : RequestDocument) : Id32 := Sha256.digest request.hashed

/-- The response models: which bytes are the compact canonical JSON of a route's model. -/
structure ResponseModels where
  admits : Route → Bytes → Bool

variable {models : ResponseModels}

/-- What `from_canonical_bytes` admits. -/
def responseAdmitted (models : ResponseModels) (route : Route) (bytes : Bytes) : Bool :=
  bytes ≠ [] && bytes.length ≤ 1048576 && models.admits route bytes

/-- `MycAdminResponseDocument`, which only `from_canonical_bytes` builds. -/
structure ResponseDocument (models : ResponseModels) where
  route : Route
  canonicalBytes : Bytes
  admitted : responseAdmitted models route canonicalBytes = true
deriving DecidableEq

/-- `MycAdminResponseDocument::from_canonical_bytes` -/
def ResponseDocument.fromCanonicalBytes (models : ResponseModels) (route : Route) (bytes : Bytes) :
    Option (ResponseDocument models) :=
  if h : responseAdmitted models route bytes = true then some ⟨route, bytes, h⟩ else none

/-! ## The table -/

/-- `AdminJournalOperationError` -/
inductive JournalError where
  | invalidInput
  | conflict
  | outcomeUnknown
  | resourceExhausted
  | binding
  | storage
deriving DecidableEq

/-- The conversion from a repository error. -/
def JournalError.ofRepository : OperationError → JournalError
  | .binding => .binding
  | _ => .storage

/-- The columns of a completed operation. -/
structure Completion where
  responseModel : Bytes
  responseSha256 : Id32
  completedAt : OperationTime
  expiresAt : OperationTime
deriving DecidableEq

/-- `myc_admin_operations`.  The `CHECK` on the state makes the columns of a completion null
together, for a prepared operation. -/
structure OperationRow where
  operationId : OperationId
  route : Route
  requestSha256 : Id32
  preparedAt : OperationTime
  completion : Option Completion
deriving DecidableEq

namespace OperationRow

/-- `state = 'prepared'` -/
def isPrepared (row : OperationRow) : Bool := row.completion.isNone

/-- `state = 'completed'` -/
def isCompleted (row : OperationRow) : Bool := row.completion.isSome

/-- A completed operation whose retention is over. -/
def expiredBy (observedAt : OperationTime) (row : OperationRow) : Bool :=
  row.completion.any fun completion => completion.expiresAt.get ≤ observedAt.get

end OperationRow

/-- A response model of the width that the table and its readers admit. -/
def Completion.widthValid (completion : Completion) : Bool :=
  1 ≤ completion.responseModel.length &&
    completion.responseModel.length ≤ responseModelMaxBytes

/-- The other `CHECK`s of the table. -/
def rowCheck (row : OperationRow) : Bool :=
  row.completion.all fun completion =>
    completion.widthValid && row.preparedAt.get ≤ completion.completedAt.get &&
      completion.completedAt.get ≤ completion.expiresAt.get

/-- The store with the journal. -/
structure AdminStore where
  store : Store
  operations : List OperationRow

abbrev JournalTx := Transaction AdminStore JournalError

/-- A body of the other tables in a transaction of the journal. -/
def onStore {α : Type} (body : Transaction Store JournalError α) : JournalTx α := fun s =>
  match body.run s.store with
  | .ok (a, store) => .ok (a, { s with store })
  | .error e => .error e

def operationsTable : TableRef AdminStore OperationRow :=
  ⟨AdminStore.operations, fun rows s => { s with operations := rows }⟩

/-- `require_expected_metadata` -/
def requireExpected (config : Configuration) : JournalTx Unit :=
  onStore fun s =>
    match (requireExpectedMetadata config).run s with
    | .ok (_, _) => .ok ((), s)
    | .error e => .error (.ofRepository e)

/-- The operations that `PRUNE_EXPIRED_SQL` deletes. -/
def prunedIds (observedAt : OperationTime) (rows : List OperationRow) : List OperationId :=
  let key (row : OperationRow) := (row.completion.elim 0 fun c => c.expiresAt.get,
    row.operationId.bytes)
  ((Table.ordered
    (fun left right => (key left).1 < (key right).1 ∨
      ((key left).1 = (key right).1 ∧ (key left).2 ≤ (key right).2))
    (rows.filter (OperationRow.expiredBy observedAt))).take pruneLimit).map
    OperationRow.operationId

/-- `prune_expired` -/
def pruneExpired (observedAt : OperationTime) : JournalTx Unit :=
  modify fun s => { s with
    operations := s.operations.filter fun row =>
      row.operationId ∉ prunedIds observedAt s.operations }

/-- `decode_operation`: a stored route is the label of a mutation, and the query reads a response
model of the admitted width only. -/
def decodeOperation (row : OperationRow) : Except JournalError OperationRow := do
  Except.require (row.route.isMutation = true) .binding
  Except.require (row.completion.all Completion.widthValid = true) .binding
  return row

/-- `read_operation` -/
def readOperation (s : AdminStore) (operationId : OperationId) :
    Except JournalError (Option OperationRow) :=
  match s.operations.filter fun row => row.operationId = operationId with
  | [] => .ok none
  | [row] => (decodeOperation row).map some
  | _ => .error .binding

/-- `read_counts`: the completed and the prepared operations. -/
def readCounts (s : AdminStore) : ℕ × ℕ :=
  (s.operations.countP OperationRow.isCompleted, s.operations.countP OperationRow.isPrepared)

/-- `AdminRequestBinding` -/
structure RequestBinding where
  operationId : OperationId
  route : Route
  requestSha256 : Id32
deriving DecidableEq

/-- `AdminRequestBinding::from_document` -/
def RequestBinding.fromDocument (request : RequestDocument) : Except JournalError RequestBinding := do
  Except.require (request.route.isMutation = true) .invalidInput
  let operationId ← Except.ofOption .invalidInput request.operationId
  let operationId ← Except.ofOption .invalidInput (OperationId.new operationId)
  return ⟨operationId, request.route, requestDigest request⟩

/-- `MycPreparedAdminOperation` with its `PreparedBinding` -/
structure PreparedOperation where
  operationId : OperationId
  route : Route
  requestSha256 : Id32
  preparedAt : OperationTime
deriving DecidableEq

/-- `MycAdminOperationAdmission` -/
inductive Admission (models : ResponseModels) where
  | prepared (operation : PreparedOperation)
  | exactReplay (response : ResponseDocument models)
deriving DecidableEq

/-- `MycAdminOperationCompletion` -/
inductive CompletionOutcome where
  | completed
  | exactReplay
deriving DecidableEq

/-- The prepared row of a request. -/
def RequestBinding.preparedRow (binding : RequestBinding) (observedAt : OperationTime) :
    OperationRow :=
  ⟨binding.operationId, binding.route, binding.requestSha256, observedAt, none⟩

/-- The answer of a stored operation to a request under its operation ID. -/
def answerStored (models : ResponseModels) (binding : RequestBinding) (existing : OperationRow) :
    Except JournalError (Admission models) := do
  Except.require (existing.route = binding.route ∧ existing.requestSha256 = binding.requestSha256)
    .conflict
  match existing.completion with
  | none => .error .outcomeUnknown
  | some completion => do
      Except.require (Sha256.digest completion.responseModel = completion.responseSha256) .binding
      let response ← Except.ofOption .binding
        (ResponseDocument.fromCanonicalBytes models existing.route completion.responseModel)
      return .exactReplay response

/-- The `INSERT` of a prepared operation under the primary key and the `CHECK`s. -/
def insertPrepared (row : OperationRow) : JournalTx Unit :=
  operationsTable.insert
    (fun s row => rowCheck row && s.operations.all fun other => other.operationId != row.operationId)
    .storage row

/-- `prepare_operation` -/
def prepareOperation (models : ResponseModels) (binding : RequestBinding)
    (observedAt : OperationTime) : JournalTx (Admission models) := do
  pruneExpired observedAt
  match ← query (readOperation · binding.operationId) with
  | some existing => query fun _ => answerStored models binding existing
  | none => do
      let (completed, prepared) ← query fun s => .ok (readCounts s)
      require (completed + prepared < completedLimit ∧ prepared < preparedLimit)
        .resourceExhausted
      insertPrepared (binding.preparedRow observedAt)
      let actual ← query (readOperation · binding.operationId)
      require (actual = some (binding.preparedRow observedAt)) .binding
      return .prepared ⟨binding.operationId, binding.route, binding.requestSha256, observedAt⟩

/-- The guard of `myc_admin_operations_guard_update` with the `CHECK`s. -/
def completionAllowed (old new : OperationRow) : Bool :=
  old.isPrepared && new.isCompleted && new.operationId == old.operationId &&
    new.route == old.route && new.requestSha256 == old.requestSha256 &&
    new.preparedAt == old.preparedAt && rowCheck new

/-- The completion that an operation records. -/
def Completion.of (response : Bytes) (completedAt expiresAt : OperationTime) : Completion :=
  ⟨response, Sha256.digest response, completedAt, expiresAt⟩

/-- The checks of `complete_operation` on the stored operation; `some` outcome ends it. -/
def answerCompletion (binding : PreparedOperation) (response : Bytes) :
    Option OperationRow → Except JournalError (Option CompletionOutcome)
  | none => .error .binding
  | some existing =>
      match existing.completion with
      | some completion => do
          Except.require (existing.route = binding.route ∧
            existing.requestSha256 = binding.requestSha256 ∧
            completion.responseModel = response ∧
            completion.responseSha256 = Sha256.digest response) .conflict
          return some .exactReplay
      | none => do
          Except.require (existing.route = binding.route ∧
            existing.requestSha256 = binding.requestSha256 ∧
            existing.preparedAt = binding.preparedAt) .conflict
          return none

/-- The completed row of a prepared operation. -/
def PreparedOperation.completedRow (binding : PreparedOperation) (completion : Completion) :
    OperationRow :=
  ⟨binding.operationId, binding.route, binding.requestSha256, binding.preparedAt, some completion⟩

/-- `complete_operation` -/
def completeOperation (binding : PreparedOperation) (response : Bytes)
    (completedAt expiresAt : OperationTime) : JournalTx CompletionOutcome := do
  let existing ← query (readOperation · binding.operationId)
  match ← query fun _ => answerCompletion binding response existing with
  | some outcome => return outcome
  | none => do
      let (completed, _) ← query fun s => .ok (readCounts s)
      require (completed < completedLimit) .resourceExhausted
      let rows ← operationsTable.update completionAllowed .storage
        (fun row => row.operationId = binding.operationId ∧ row.isPrepared = true)
        (fun row => { row with completion := some (.of response completedAt expiresAt) })
      require (rows = 1) .storage
      let actual ← query (readOperation · binding.operationId)
      require (actual = some (binding.completedRow (.of response completedAt expiresAt))) .binding
      return .completed

/-! ## The calls -/

/-- The expiry of a response; it must be representable. -/
def expiry (completedAt : OperationTime) (policy : JournalPolicy) :
    Except JournalError OperationTime :=
  if h : completedAt.get + policy.completedRetentionMs ≤ i64Max then .ok ⟨_, h⟩
  else .error .invalidInput

/-- The response belongs to the route and fits the journal. -/
def responseFits (route : Route) (response : ResponseDocument models) : Bool :=
  response.route == route && response.canonicalBytes ≠ [] &&
    response.canonicalBytes.length ≤ responseModelMaxBytes

/-- An effect on the other tables with its response. -/
abbrev Effect (models : ResponseModels) := Transaction Store JournalError (ResponseDocument models)

/-- `execute_database_admin_operation` on a writable repository -/
def executeDatabaseAdminOperation (config : Configuration) (request : RequestDocument)
    (completedAt : OperationTime) (policy : JournalPolicy) (operation : Effect models) :
    JournalTx (ResponseDocument models) := do
  let binding ← query fun _ => RequestBinding.fromDocument request
  let expiresAt ← query fun _ => expiry completedAt policy
  requireExpected config
  match ← prepareOperation models binding completedAt with
  | .exactReplay response => return response
  | .prepared prepared => do
      let response ← onStore operation
      require (responseFits binding.route response = true) .invalidInput
      let _ ← completeOperation prepared response.canonicalBytes completedAt expiresAt
      return response

/-- `complete_prepared_database_admin_operation` on a writable repository -/
def completePreparedDatabaseAdminOperation (config : Configuration) (prepared : PreparedOperation)
    (completedAt : OperationTime) (policy : JournalPolicy) (operation : Effect models) :
    JournalTx (ResponseDocument models) := do
  require (prepared.preparedAt.get ≤ completedAt.get) .invalidInput
  let expiresAt ← query fun _ => expiry completedAt policy
  requireExpected config
  let response ← onStore operation
  require (responseFits prepared.route response = true) .invalidInput
  let _ ← completeOperation prepared response.canonicalBytes completedAt expiresAt
  return response

/-- `prepare_admin_operation` on a writable repository -/
def prepareAdminOperation (models : ResponseModels) (config : Configuration)
    (request : RequestDocument) (observedAt : OperationTime) : JournalTx (Admission models) := do
  let binding ← query fun _ => RequestBinding.fromDocument request
  requireExpected config
  prepareOperation models binding observedAt

/-- `complete_admin_operation` on a writable repository -/
def completeAdminOperation (config : Configuration) (prepared : PreparedOperation)
    (response : ResponseDocument models) (completedAt : OperationTime) (policy : JournalPolicy) :
    JournalTx CompletionOutcome := do
  require (responseFits prepared.route response = true ∧
    prepared.preparedAt.get ≤ completedAt.get) .invalidInput
  let expiresAt ← query fun _ => expiry completedAt policy
  requireExpected config
  completeOperation prepared response.canonicalBytes completedAt expiresAt

end MycSigner.Admin
