import MycSigner.Configuration

/-!
# Request admission

A logical request is identified by its client and request ID, and every event that carried
it is remembered.  The same request under any event is a replay; the same identity with
other content, or the same event for another request, is a conflict.
-/

namespace MycSigner

open Transaction

/-! ## Identities -/

/-- `derive_request_identity` -/
def deriveRequestIdentity (client : PublicKey) (requestId : RequestId) : Id32 :=
  Sha256.digest (domain "radroots.myc.nip46.request_identity.v1" ++
    lengthPrefixed client.asHex ++ lengthPrefixed (utf8 requestId.text))

/-- `derive_operation_id` -/
def deriveOperationId (requestIdentity nonce : Id32) : Id32 :=
  Sha256.digest (domain "radroots.myc.nip46.operation.v1" ++ requestIdentity.bytes ++ nonce.bytes)

/-- The correlation identity of an operation. -/
def deriveCorrelationId (operationId : Id32) : Id32 :=
  Sha256.digest (domain "radroots.myc.nip46.correlation.v1" ++ operationId.bytes)

/-- Fully validated request-admission input. -/
structure SignerRequest where
  clientPublicKey : PublicKey
  requestId : RequestId
  eventId : Id32
  method : Method
  requestDigest : Id32
  operationNonce : Id32
  receivedAt : TimeUnixMs
deriving DecidableEq

namespace SignerRequest

def requestIdentity (request : SignerRequest) : Id32 :=
  deriveRequestIdentity request.clientPublicKey request.requestId

def operationId (request : SignerRequest) : Id32 :=
  deriveOperationId request.requestIdentity request.operationNonce

end SignerRequest

/-! ## The tables -/

def requestInsertAllowed (s : Store) (row : RequestRow) : Bool :=
  s.requests.all fun other => other.operationId != row.operationId &&
    other.correlationId != row.correlationId &&
    other.requestIdentitySha256 != row.requestIdentitySha256

/-- The `CHECK`s of `nip46_request_dedup`. -/
def dedupCheck (row : DedupRow) : Bool :=
  row.replayCount ≤ i64Max && row.conflictCount ≤ i64Max && decide (row.firstSeenAt ≤ row.lastSeenAt)

def dedupInsertAllowed (s : Store) (row : DedupRow) : Bool :=
  dedupCheck row && s.dedup.all fun other =>
    !(other.dedupKind == row.dedupKind && other.identitySha256 == row.identitySha256)

/-- The `nip46_request_dedup_guard_update` trigger with the `CHECK`s. -/
def dedupUpdateAllowed (old new : DedupRow) : Bool :=
  decide ({ new with
    replayCount := old.replayCount, conflictCount := old.conflictCount,
    lastSeenAt := old.lastSeenAt } = old) &&
    decide (old.lastSeenAt ≤ new.lastSeenAt) &&
    ((old.replayCount < i64Max && new.replayCount == old.replayCount + 1 &&
        new.conflictCount == old.conflictCount) ||
      (old.conflictCount < i64Max && new.conflictCount == old.conflictCount + 1 &&
        new.replayCount == old.replayCount)) &&
    dedupCheck new

def requestsTable : TableRef Store RequestRow :=
  ⟨Store.requests, fun rows s => { s with requests := rows }⟩

def dedupTable : TableRef Store DedupRow := ⟨Store.dedup, fun rows s => { s with dedup := rows }⟩

def insertRequest (row : RequestRow) : Tx Unit :=
  requestsTable.insert requestInsertAllowed .storage row

def insertDedupRow (row : DedupRow) : Tx Unit :=
  dedupTable.insert dedupInsertAllowed .storage row

def updateDedup : (DedupRow → Bool) → (DedupRow → DedupRow) → Tx ℕ :=
  dedupTable.update dedupUpdateAllowed .storage

/-! ## Reading by deduplication identity -/

/-- Durable request record with the counters of its logical identity. -/
structure RequestRecord where
  operationId : Id32
  correlationId : Id32
  clientPublicKey : PublicKey
  requestId : RequestId
  firstEventId : Id32
  method : Method
  requestDigest : Id32
  receivedAt : TimeUnixMs
  replayCount : ℕ
  conflictCount : ℕ
  lastSeenAt : TimeUnixMs
deriving DecidableEq

/-- `READ_BY_DEDUP_SQL`: the selected row, its request and the row of the logical request. -/
def dedupMatches (s : Store) (kind : DedupKind) (identity : Id32) :
    List (DedupRow × RequestRow × DedupRow) :=
  (s.dedup.filter fun row => row.dedupKind = kind ∧ row.identitySha256 = identity).flatMap
    fun selected =>
      (s.requests.filter fun row => row.operationId = selected.operationId).flatMap fun request =>
        (s.dedup.filter fun row => row.dedupKind = .request ∧
          row.identitySha256 = request.requestIdentitySha256).map fun logical =>
            (selected, request, logical)

/-- `parse_record` -/
def parseRecord (kind : DedupKind) (identity : Id32) :
    DedupRow × RequestRow × DedupRow → Except OperationError RequestRecord
  | (selected, request, logical) => do
      .require (¬ ((kind = .request ∧ identity ≠ request.requestIdentitySha256) ∨
        selected.requestSha256 ≠ request.requestSha256 ∨
        logical.requestSha256 ≠ request.requestSha256 ∨
        logical.operationId ≠ request.operationId ∨
        deriveRequestIdentity request.clientPublicKey request.requestId ≠
          request.requestIdentitySha256 ∨
        deriveOperationId request.requestIdentitySha256 request.operationNonce ≠
          request.operationId ∨
        deriveCorrelationId request.operationId ≠ request.correlationId)) .binding
      .require (request.receivedAt ≤ logical.lastSeenAt) .binding
      .ok { operationId := request.operationId, correlationId := request.correlationId,
            clientPublicKey := request.clientPublicKey, requestId := request.requestId,
            firstEventId := request.firstEventId, method := request.method,
            requestDigest := request.requestSha256, receivedAt := request.receivedAt,
            replayCount := logical.replayCount, conflictCount := logical.conflictCount,
            lastSeenAt := logical.lastSeenAt }

/-- `read_by_dedup` -/
def readByDedup (s : Store) (kind : DedupKind) (identity : Id32) :
    Except OperationError (Option RequestRecord) :=
  match dedupMatches s kind identity with
  | [] => .ok none
  | [row] => (parseRecord kind identity row).map some
  | _ :: _ :: _ => .error .binding

/-! ## Admission -/

/-- New, replayed or conflicting request admission. -/
inductive RequestAdmission where
  | admitted (record : RequestRecord)
  | exactReplay (record : RequestRecord)
  | conflictingReuse (record : RequestRecord)
deriving DecidableEq

def RequestAdmission.record : RequestAdmission → RequestRecord
  | .admitted record | .exactReplay record | .conflictingReuse record => record

/-- `exact_request` -/
def exactRequest (existing : RequestRecord) (request : SignerRequest) : Bool :=
  existing.clientPublicKey == request.clientPublicKey &&
    existing.requestId == request.requestId && existing.method == request.method &&
    existing.requestDigest == request.requestDigest

/-- `insert_dedup` -/
def insertDedup (kind : DedupKind) (identity requestDigest operationId : Id32)
    (receivedAt : TimeUnixMs) : Tx Unit :=
  insertDedupRow
    { dedupKind := kind, identitySha256 := identity, requestSha256 := requestDigest,
      operationId := operationId, replayCount := 0, conflictCount := 0,
      firstSeenAt := receivedAt, lastSeenAt := receivedAt }

/-- `record_replay` -/
def recordReplay (kind : DedupKind) (identity : Id32) (receivedAt : TimeUnixMs) : Tx Unit := do
  requireOne (← updateDedup
    (fun row => row.dedupKind = kind ∧ row.identitySha256 = identity ∧ row.replayCount < i64Max)
    (fun row => { row with
      replayCount := row.replayCount + 1, lastSeenAt := row.lastSeenAt.latest receivedAt }))

/-- `record_conflict` -/
def recordConflict (kind : DedupKind) (identity : Id32) (receivedAt : TimeUnixMs) : Tx Unit := do
  requireOne (← updateDedup
    (fun row => row.dedupKind = kind ∧ row.identitySha256 = identity ∧ row.conflictCount < i64Max)
    (fun row => { row with
      conflictCount := row.conflictCount + 1, lastSeenAt := row.lastSeenAt.latest receivedAt }))

/-- `read_outcome` -/
def readOutcome (kind : DedupKind) (identity : Id32) : Tx RequestRecord := do
  let record ← query (readByDedup · kind identity)
  orFail record .binding

/-- The row that `insert_new_request` inserts. -/
def newRequestRow (request : SignerRequest) : RequestRow where
  operationId := request.operationId
  correlationId := deriveCorrelationId request.operationId
  operationNonce := request.operationNonce
  requestIdentitySha256 := request.requestIdentity
  clientPublicKey := request.clientPublicKey
  requestId := request.requestId
  firstEventId := request.eventId
  method := request.method
  requestSha256 := request.requestDigest
  receivedAt := request.receivedAt

/-- `insert_new_request` -/
def insertNewRequest (request : SignerRequest) : Tx RequestAdmission := do
  insertRequest (newRequestRow request)
  insertDedup .request request.requestIdentity request.requestDigest request.operationId
    request.receivedAt
  insertDedup .event request.eventId request.requestDigest request.operationId request.receivedAt
  return .admitted (← readOutcome .request request.requestIdentity)

/-- Remembers the event of a replayed request: as a replay of the event, or as a new one. -/
def recordEvent (request : SignerRequest) (operationId : Id32) (eventKnown : Bool) : Tx Unit :=
  if eventKnown then recordReplay .event request.eventId request.receivedAt
  else insertDedup .event request.eventId request.requestDigest operationId request.receivedAt

/-- `admit_request` -/
def admitRequest (request : SignerRequest) : Tx RequestAdmission := do
  let requestMatch ← query (readByDedup · .request request.requestIdentity)
  let eventMatch ← query (readByDedup · .event request.eventId)
  match requestMatch, eventMatch with
  | none, none => insertNewRequest request
  | some existing, event =>
      if exactRequest existing request && event.all (·.operationId == existing.operationId) then do
        recordEvent request existing.operationId event.isSome
        recordReplay .request request.requestIdentity request.receivedAt
        return .exactReplay (← readOutcome .request request.requestIdentity)
      else do
        -- other content under this identity, or an event that carried another request
        recordConflict .request request.requestIdentity request.receivedAt
        return .conflictingReuse (← readOutcome .request request.requestIdentity)
  | none, some _ => do
      recordConflict .event request.eventId request.receivedAt
      return .conflictingReuse (← readOutcome .event request.eventId)

/-- `admit_signer_request` -/
def admitSignerRequest (config : Configuration) (request : SignerRequest) : Tx RequestAdmission :=
  withBinding config (admitRequest request)

end MycSigner
