import MycSigner.Encoding
import MycSigner.Lib.History
import MycSigner.Requests
import MycSigner.Delivery.Refinement

/-!
# Exact deduplication

The tables of request admission bind a logical request and every event that carried it to one
operation.  The invariant says that the rows fit together as the strict record parser demands;
under it every lookup succeeds, and an admission is decided by what is known of its two keys.
-/

namespace MycSigner

open Transaction

/-! ## What is hashed -/

/-- The byte strings behind the identity, the operation and the correlation of a request. -/
def SignerRequest.hashed (request : SignerRequest) : List Bytes :=
  [domain "radroots.myc.nip46.request_identity.v1" ++
      lengthPrefixed request.clientPublicKey.asHex ++ lengthPrefixed (utf8 request.requestId.text),
    domain "radroots.myc.nip46.operation.v1" ++ request.requestIdentity.bytes ++
      request.operationNonce.bytes,
    domain "radroots.myc.nip46.correlation.v1" ++ request.operationId.bytes]

/-- The digests of the requests tell them apart. -/
structure Distinguished (requests : List SignerRequest) : Prop where
  identity : ∀ left ∈ requests, ∀ right ∈ requests,
    left.requestIdentity = right.requestIdentity →
      left.clientPublicKey = right.clientPublicKey ∧ left.requestId = right.requestId
  operation : ∀ left ∈ requests, ∀ right ∈ requests, left.operationId = right.operationId →
    left.requestIdentity = right.requestIdentity
  correlation : ∀ left ∈ requests, ∀ right ∈ requests,
    deriveCorrelationId left.operationId = deriveCorrelationId right.operationId →
      left.operationId = right.operationId

theorem identityInput_injective {first second : Bytes} {client client' : PublicKey}
    (h : domain "radroots.myc.nip46.request_identity.v1" ++ lengthPrefixed client.asHex ++
        lengthPrefixed first =
      domain "radroots.myc.nip46.request_identity.v1" ++ lengthPrefixed client'.asHex ++
        lengthPrefixed second) :
    client = client' ∧ first = second := by
  have hwidth : (domain "radroots.myc.nip46.request_identity.v1" ++
      lengthPrefixed client.asHex).length =
      (domain "radroots.myc.nip46.request_identity.v1" ++ lengthPrefixed client'.asHex).length := by
    simp only [lengthPrefixed, u64Bytes, List.length_append, length_bigEndian,
      PublicKey.length_asHex]
  obtain ⟨hclient, htext⟩ := List.append_inj h hwidth
  exact ⟨PublicKey.asHex_injective (lengthPrefixed_injective (List.append_cancel_left hclient)),
    lengthPrefixed_injective htext⟩

theorem CollisionFree.distinguished {requests : List SignerRequest}
    (h : CollisionFree (requests.flatMap SignerRequest.hashed)) : Distinguished requests := by
  have hmem : ∀ request ∈ requests, ∀ input ∈ request.hashed,
      input ∈ requests.flatMap SignerRequest.hashed :=
    fun request hrequest input hinput => List.mem_flatMap.mpr ⟨request, hrequest, hinput⟩
  refine ⟨?_, ?_, ?_⟩
  · intro left hleft right hright heq
    obtain ⟨hclient, htext⟩ := identityInput_injective
      (h _ (hmem left hleft _ (.head _)) _ (hmem right hright _ (.head _)) heq)
    have hid : left.requestId.text = right.requestId.text := utf8_injective htext
    refine ⟨hclient, ?_⟩
    cases hl : left.requestId
    cases hr : right.requestId
    rw [hl, hr] at hid
    cases hid
    rfl
  · intro left hleft right hright heq
    have hinput := h _ (hmem left hleft _ (.tail _ (.head _))) _
      (hmem right hright _ (.tail _ (.head _))) heq
    have hwidth : (domain "radroots.myc.nip46.operation.v1" ++ left.requestIdentity.bytes).length =
        (domain "radroots.myc.nip46.operation.v1" ++ right.requestIdentity.bytes).length := by
      rw [List.length_append, List.length_append, Id32.length_bytes, Id32.length_bytes]
    exact Id32.bytes_injective (List.append_cancel_left (List.append_inj hinput hwidth).1)
  · intro left hleft right hright heq
    have hinput := h _ (hmem left hleft _ (.tail _ (.tail _ (.head _)))) _
      (hmem right hright _ (.tail _ (.tail _ (.head _)))) heq
    exact Id32.bytes_injective (List.append_cancel_left hinput)

/-! ## The invariant -/

/-- The operation that a deduplication row binds its identity to. -/
def DedupRow.binding (row : DedupRow) : DedupKind × Id32 × Id32 :=
  (row.dedupKind, row.identitySha256, row.operationId)

/-- The bindings of the store, in the order in which they were made. -/
def bindings (s : Store) : List (DedupKind × Id32 × Id32) := s.dedup.map DedupRow.binding

/-- The row of the logical request itself. -/
structure LogicalRow (row : RequestRow) (entry : DedupRow) : Prop where
  kind : entry.dedupKind = .request
  identity : entry.identitySha256 = row.requestIdentitySha256
  operation : entry.operationId = row.operationId
  digest : entry.requestSha256 = row.requestSha256
  seen : row.receivedAt ≤ entry.lastSeenAt

/-- A deduplication row belongs to a request. -/
structure BelongsTo (entry : DedupRow) (row : RequestRow) : Prop where
  operation : entry.operationId = row.operationId
  digest : entry.requestSha256 = row.requestSha256
  identity : entry.dedupKind = .request → entry.identitySha256 = row.requestIdentitySha256

/-- The request and deduplication tables fit together. -/
structure RequestInv (s : Store) : Prop where
  operations_unique : Table.Unique RequestRow.operationId s.requests
  identities_unique : Table.Unique RequestRow.requestIdentitySha256 s.requests
  dedup_unique : Table.Unique (fun row => (row.dedupKind, row.identitySha256)) s.dedup
  derived : ∀ row ∈ s.requests, ∃ request, row = newRequestRow request
  logical : ∀ row ∈ s.requests, ∃ entry ∈ s.dedup, LogicalRow row entry
  belongs : ∀ entry ∈ s.dedup, ∃ row ∈ s.requests, BelongsTo entry row
  checked : ∀ entry ∈ s.dedup, dedupCheck entry = true

/-- The record of a request row and its logical row. -/
def recordOf (row : RequestRow) (logical : DedupRow) : RequestRecord where
  operationId := row.operationId
  correlationId := row.correlationId
  clientPublicKey := row.clientPublicKey
  requestId := row.requestId
  firstEventId := row.firstEventId
  method := row.method
  requestDigest := row.requestSha256
  receivedAt := row.receivedAt
  replayCount := logical.replayCount
  conflictCount := logical.conflictCount
  lastSeenAt := logical.lastSeenAt

section Readers

variable {s : Store} {kind : DedupKind} {identity : Id32}

theorem readByDedup_none (h : ∀ entry ∈ s.dedup,
    ¬ (entry.dedupKind = kind ∧ entry.identitySha256 = identity)) :
    readByDedup s kind identity = .ok none := by
  have hnil : (s.dedup.filter fun row => row.dedupKind = kind ∧ row.identitySha256 = identity) =
      [] := by
    rw [List.filter_eq_nil_iff]
    intro entry hentry heq
    exact h entry hentry (by simpa using heq)
  rw [readByDedup, dedupMatches, hnil]
  rfl

theorem parseRecord_eq {entry logical : DedupRow} {row : RequestRow}
    (hderived : ∃ request, row = newRequestRow request) (hbelongs : BelongsTo entry row)
    (hlogical : LogicalRow row logical) :
    parseRecord entry.dedupKind entry.identitySha256 (entry, row, logical) =
      .ok (recordOf row logical) := by
  obtain ⟨request, rfl⟩ := hderived
  unfold parseRecord
  refine Except.bind_eq_ok_iff.mpr ⟨(), Except.require_eq_ok.mpr ?_, ?_⟩
  · rintro (⟨hkind, hne⟩ | hne | hne | hne | hne | hne | hne)
    · exact hne (hbelongs.identity hkind)
    · exact hne hbelongs.digest
    · exact hne hlogical.digest
    · exact hne hlogical.operation
    · exact hne rfl
    · exact hne rfl
    · exact hne rfl
  · exact Except.bind_eq_ok_iff.mpr ⟨(), Except.require_eq_ok.mpr hlogical.seen, rfl⟩

/-- A known identity is read back with its request. -/
theorem RequestInv.readByDedup_eq (inv : RequestInv s) {entry logical : DedupRow}
    {row : RequestRow} (hentry : entry ∈ s.dedup) (hrow : row ∈ s.requests)
    (hbelongs : BelongsTo entry row) (hlogical : logical ∈ s.dedup)
    (hlogicalRow : LogicalRow row logical) :
    readByDedup s entry.dedupKind entry.identitySha256 = .ok (some (recordOf row logical)) := by
  have hselected : (s.dedup.filter fun other => other.dedupKind = entry.dedupKind ∧
      other.identitySha256 = entry.identitySha256) = [entry] := by
    rw [← inv.dedup_unique.filter_eq_singleton hentry]
    exact List.filter_congr fun other _ => by simp
  have hrequest : (s.requests.filter fun other => other.operationId = entry.operationId) =
      [row] := by
    rw [hbelongs.operation]
    exact inv.operations_unique.filter_eq_singleton hrow
  have hlogicals : (s.dedup.filter fun other => other.dedupKind = .request ∧
      other.identitySha256 = row.requestIdentitySha256) = [logical] := by
    rw [← inv.dedup_unique.filter_eq_singleton hlogical]
    exact List.filter_congr fun other _ => by simp [hlogicalRow.kind, hlogicalRow.identity]
  have hmatches : dedupMatches s entry.dedupKind entry.identitySha256 =
      [(entry, row, logical)] := by
    rw [dedupMatches, hselected, List.flatMap_singleton, hrequest, List.flatMap_singleton,
      hlogicals]
    rfl
  rw [readByDedup, hmatches]
  simp only
  rw [parseRecord_eq (inv.derived row hrow) hbelongs hlogicalRow]
  rfl

end Readers

/-! ## Writes that keep the invariant -/

/-- A row that is seen again: only its counters and its last time move. -/
structure SeenAgain (old new : DedupRow) : Prop where
  kind : new.dedupKind = old.dedupKind
  identity : new.identitySha256 = old.identitySha256
  operation : new.operationId = old.operationId
  digest : new.requestSha256 = old.requestSha256
  seen : old.lastSeenAt ≤ new.lastSeenAt
  checked : dedupCheck new = true

theorem SeenAgain.binding {old new : DedupRow} (h : SeenAgain old new) :
    new.binding = old.binding := by
  rw [DedupRow.binding, DedupRow.binding, h.kind, h.identity, h.operation]

/-- The store with one deduplication row rewritten. -/
def Store.seenAgain (s : Store) (old new : DedupRow) : Store :=
  { s with dedup := Table.replace old new s.dedup }

section Writes

variable {s : Store} {entry entry' : DedupRow} {row : RequestRow}

theorem BelongsTo.seenAgain (h : BelongsTo entry row) (hagain : SeenAgain entry entry') :
    BelongsTo entry' row where
  operation := hagain.operation.trans h.operation
  digest := hagain.digest.trans h.digest
  identity := fun hkind => hagain.identity.trans (h.identity (hagain.kind.symm.trans hkind))

theorem LogicalRow.seenAgain (h : LogicalRow row entry) (hagain : SeenAgain entry entry') :
    LogicalRow row entry' where
  kind := hagain.kind.trans h.kind
  identity := hagain.identity.trans h.identity
  operation := hagain.operation.trans h.operation
  digest := hagain.digest.trans h.digest
  seen := Nat.le_trans h.seen hagain.seen

theorem RequestInv.seenAgain (inv : RequestInv s) (hagain : SeenAgain entry entry') :
    RequestInv (s.seenAgain entry entry') where
  operations_unique := inv.operations_unique
  identities_unique := inv.identities_unique
  dedup_unique := inv.dedup_unique.replace (by rw [hagain.kind, hagain.identity])
  derived := inv.derived
  logical := by
    intro row hrow
    obtain ⟨old, hold, hlogical⟩ := inv.logical row hrow
    by_cases heq : old = entry
    · exact ⟨entry', Table.mem_replace.mpr (.inr ⟨heq ▸ hold, rfl⟩),
        (heq ▸ hlogical).seenAgain hagain⟩
    · exact ⟨old, Table.mem_replace.mpr (.inl ⟨hold, heq⟩), hlogical⟩
  belongs := by
    intro other hother
    rcases Table.mem_replace.mp hother with ⟨hold, -⟩ | ⟨hentry, rfl⟩
    · exact inv.belongs other hold
    · obtain ⟨row, hrow, hbelongs⟩ := inv.belongs entry hentry
      exact ⟨row, hrow, hbelongs.seenAgain hagain⟩
  checked := by
    intro other hother
    rcases Table.mem_replace.mp hother with ⟨hold, -⟩ | ⟨-, rfl⟩
    · exact inv.checked other hold
    · exact hagain.checked

theorem bindings_seenAgain (hagain : SeenAgain entry entry') :
    bindings (s.seenAgain entry entry') = bindings s :=
  Table.map_replace DedupRow.binding hagain.binding

/-- A row with a key of its own. -/
def FreshEntry (s : Store) (entry : DedupRow) : Prop :=
  ∀ other ∈ s.dedup, ¬ (other.dedupKind = entry.dedupKind ∧
    other.identitySha256 = entry.identitySha256)

theorem dedup_unique_append
    (h : Table.Unique (fun row => (row.dedupKind, row.identitySha256)) s.dedup)
    (hfresh : FreshEntry s entry) :
    Table.Unique (fun row => (row.dedupKind, row.identitySha256)) (s.dedup ++ [entry]) := by
  refine h.append_row fun other hother heq => hfresh other hother ?_
  exact ⟨congrArg Prod.fst heq, congrArg Prod.snd heq⟩

/-- The store with one deduplication row more. -/
def Store.remembers (s : Store) (entry : DedupRow) : Store :=
  { s with dedup := s.dedup ++ [entry] }

theorem RequestInv.remembers (inv : RequestInv s) (hfresh : FreshEntry s entry)
    (hrow : row ∈ s.requests) (hbelongs : BelongsTo entry row) (hcheck : dedupCheck entry = true) :
    RequestInv (s.remembers entry) where
  operations_unique := inv.operations_unique
  identities_unique := inv.identities_unique
  dedup_unique := dedup_unique_append inv.dedup_unique hfresh
  derived := inv.derived
  logical := by
    intro row hrow
    obtain ⟨old, hold, hlogical⟩ := inv.logical row hrow
    exact ⟨old, List.mem_append_left _ hold, hlogical⟩
  belongs := by
    intro other hother
    rcases List.mem_append.mp hother with hold | hnew
    · exact inv.belongs other hold
    · rw [List.mem_singleton.mp hnew]
      exact ⟨row, hrow, hbelongs⟩
  checked := by
    intro other hother
    rcases List.mem_append.mp hother with hold | hnew
    · exact inv.checked other hold
    · rw [List.mem_singleton.mp hnew]
      exact hcheck

/-- The deduplication row of a first delivery. -/
def newEntry (kind : DedupKind) (identity digest operationId : Id32) (receivedAt : TimeUnixMs) :
    DedupRow where
  dedupKind := kind
  identitySha256 := identity
  requestSha256 := digest
  operationId := operationId
  replayCount := 0
  conflictCount := 0
  firstSeenAt := receivedAt
  lastSeenAt := receivedAt

theorem dedupCheck_newEntry (kind : DedupKind) (identity digest operationId : Id32)
    (receivedAt : TimeUnixMs) :
    dedupCheck (newEntry kind identity digest operationId receivedAt) = true := by
  have htime : receivedAt ≤ receivedAt := Nat.le_refl _
  simp [dedupCheck, newEntry, htime]

/-- The store with a new request and the row of its identity. -/
def Store.logically (s : Store) (request : SignerRequest) : Store :=
  { s with
    requests := s.requests ++ [newRequestRow request]
    dedup := s.dedup ++ [newEntry .request request.requestIdentity request.requestDigest
      request.operationId request.receivedAt] }

/-- Neither key of the request table is taken. -/
structure FreshRequest (s : Store) (request : SignerRequest) : Prop where
  operation : ∀ row ∈ s.requests, row.operationId ≠ request.operationId
  correlation : ∀ row ∈ s.requests, row.correlationId ≠ deriveCorrelationId request.operationId
  identity : ∀ row ∈ s.requests, row.requestIdentitySha256 ≠ request.requestIdentity

theorem RequestInv.logically (inv : RequestInv s) {request : SignerRequest}
    (hfresh : FreshRequest s request) (hentry : FreshEntry s (newEntry .request
      request.requestIdentity request.requestDigest request.operationId request.receivedAt)) :
    RequestInv (s.logically request) where
  operations_unique := inv.operations_unique.append_row hfresh.operation
  identities_unique := inv.identities_unique.append_row hfresh.identity
  dedup_unique := dedup_unique_append inv.dedup_unique hentry
  derived := by
    intro row hrow
    rcases List.mem_append.mp hrow with hold | hnew
    · exact inv.derived row hold
    · exact ⟨request, List.mem_singleton.mp hnew⟩
  logical := by
    intro row hrow
    rcases List.mem_append.mp hrow with hold | hnew
    · obtain ⟨entry, hmem, hlogical⟩ := inv.logical row hold
      exact ⟨entry, List.mem_append_left _ hmem, hlogical⟩
    · rw [List.mem_singleton.mp hnew]
      exact ⟨_, List.mem_append_right _ (List.mem_singleton_self _), rfl, rfl, rfl, rfl,
        Nat.le_refl _⟩
  belongs := by
    intro entry hentry
    rcases List.mem_append.mp hentry with hold | hnew
    · obtain ⟨row, hrow, hbelongs⟩ := inv.belongs entry hold
      exact ⟨row, List.mem_append_left _ hrow, hbelongs⟩
    · rw [List.mem_singleton.mp hnew]
      exact ⟨_, List.mem_append_right _ (List.mem_singleton_self _), rfl, rfl, fun _ => rfl⟩
  checked := by
    intro entry hentry
    rcases List.mem_append.mp hentry with hold | hnew
    · exact inv.checked entry hold
    · rw [List.mem_singleton.mp hnew]
      exact dedupCheck_newEntry ..

end Writes

/-! ## What the writes of an admission do -/

def DedupRow.replayed (row : DedupRow) (receivedAt : TimeUnixMs) : DedupRow :=
  { row with
    replayCount := row.replayCount + 1, lastSeenAt := row.lastSeenAt.latest receivedAt }

def DedupRow.conflicted (row : DedupRow) (receivedAt : TimeUnixMs) : DedupRow :=
  { row with
    conflictCount := row.conflictCount + 1, lastSeenAt := row.lastSeenAt.latest receivedAt }

/-- Both counters can still count. -/
def DedupRow.CountsOn (row : DedupRow) : Prop :=
  row.replayCount < i64Max ∧ row.conflictCount < i64Max

section Runs

variable {s : Store} {entry : DedupRow} {receivedAt : TimeUnixMs}

theorem dedupCheck_iff : dedupCheck entry = true ↔ entry.replayCount ≤ i64Max ∧
    entry.conflictCount ≤ i64Max ∧ entry.firstSeenAt ≤ entry.lastSeenAt := by
  simp only [dedupCheck, Bool.and_eq_true, decide_eq_true_eq, and_assoc]

theorem DedupRow.replayed_again (receivedAt : TimeUnixMs) (hcheck : dedupCheck entry = true)
    (hcounts : entry.CountsOn) :
    SeenAgain entry (entry.replayed receivedAt) := by
  obtain ⟨hreplays, hconflicts, htime⟩ := dedupCheck_iff.mp hcheck
  have hlater := TimeUnixMs.le_latest_left entry.lastSeenAt receivedAt
  exact ⟨rfl, rfl, rfl, rfl, hlater,
    dedupCheck_iff.mpr ⟨hcounts.1, hconflicts, Nat.le_trans htime hlater⟩⟩

theorem DedupRow.conflicted_again (receivedAt : TimeUnixMs) (hcheck : dedupCheck entry = true)
    (hcounts : entry.CountsOn) :
    SeenAgain entry (entry.conflicted receivedAt) := by
  obtain ⟨hreplays, hconflicts, htime⟩ := dedupCheck_iff.mp hcheck
  have hlater := TimeUnixMs.le_latest_left entry.lastSeenAt receivedAt
  exact ⟨rfl, rfl, rfl, rfl, hlater,
    dedupCheck_iff.mpr ⟨hreplays, hcounts.2, Nat.le_trans htime hlater⟩⟩

theorem dedupUpdateAllowed_replayed (hcheck : dedupCheck entry = true)
    (hcounts : entry.CountsOn) : dedupUpdateAllowed entry (entry.replayed receivedAt) = true := by
  have hagain := DedupRow.replayed_again receivedAt hcheck hcounts
  simp only [dedupUpdateAllowed, hagain.checked, Bool.and_true, Bool.and_eq_true,
    decide_eq_true_eq]
  exact ⟨⟨rfl, hagain.seen⟩, by simp [DedupRow.replayed, hcounts.1]⟩

theorem dedupUpdateAllowed_conflicted (hcheck : dedupCheck entry = true)
    (hcounts : entry.CountsOn) : dedupUpdateAllowed entry (entry.conflicted receivedAt) = true := by
  have hagain := DedupRow.conflicted_again receivedAt hcheck hcounts
  simp only [dedupUpdateAllowed, hagain.checked, Bool.and_true, Bool.and_eq_true,
    decide_eq_true_eq]
  exact ⟨⟨rfl, hagain.seen⟩, by simp [DedupRow.conflicted, hcounts.2]⟩

/-- The only row with the key of an entry is the entry. -/
theorem RequestInv.entry_eq (inv : RequestInv s) (hentry : entry ∈ s.dedup) {other : DedupRow}
    (hother : other ∈ s.dedup) (hkind : other.dedupKind = entry.dedupKind)
    (hidentity : other.identitySha256 = entry.identitySha256) : other = entry :=
  inv.dedup_unique.eq_of_key_eq hother hentry (by rw [hkind, hidentity])

theorem RequestInv.run_recordReplay (inv : RequestInv s) (receivedAt : TimeUnixMs)
    (hentry : entry ∈ s.dedup) (hcounts : entry.CountsOn) :
    (recordReplay entry.dedupKind entry.identitySha256 receivedAt).run s =
      .ok ((), s.seenAgain entry (entry.replayed receivedAt)) := by
  unfold recordReplay updateDedup
  refine run_bind_eq_ok.mpr ⟨1, _, (dedupTable.run_update_only entry inv.dedup_unique.nodup hentry
    (by simp [hcounts.1]) fun row hrow hmatch => ?_).mpr
    ⟨dedupUpdateAllowed_replayed (inv.checked entry hentry) hcounts, rfl, rfl⟩, ?_⟩
  · simp only [decide_eq_true_eq] at hmatch
    exact inv.entry_eq hentry hrow hmatch.1 hmatch.2.1
  · exact run_requireOne_eq_ok.mpr ⟨rfl, rfl⟩

theorem RequestInv.run_recordConflict (inv : RequestInv s) (receivedAt : TimeUnixMs)
    (hentry : entry ∈ s.dedup) (hcounts : entry.CountsOn) :
    (recordConflict entry.dedupKind entry.identitySha256 receivedAt).run s =
      .ok ((), s.seenAgain entry (entry.conflicted receivedAt)) := by
  unfold recordConflict updateDedup
  refine run_bind_eq_ok.mpr ⟨1, _, (dedupTable.run_update_only entry inv.dedup_unique.nodup hentry
    (by simp [hcounts.2]) fun row hrow hmatch => ?_).mpr
    ⟨dedupUpdateAllowed_conflicted (inv.checked entry hentry) hcounts, rfl, rfl⟩, ?_⟩
  · simp only [decide_eq_true_eq] at hmatch
    exact inv.entry_eq hentry hrow hmatch.1 hmatch.2.1
  · exact run_requireOne_eq_ok.mpr ⟨rfl, rfl⟩

theorem run_insertDedup {kind : DedupKind} {identity digest operationId : Id32}
    (hfresh : FreshEntry s (newEntry kind identity digest operationId receivedAt)) :
    (insertDedup kind identity digest operationId receivedAt).run s =
      .ok ((), s.remembers (newEntry kind identity digest operationId receivedAt)) := by
  refine dedupTable.run_insert_eq_ok.mpr ⟨?_, rfl⟩
  simp only [dedupInsertAllowed, Bool.and_eq_true, List.all_eq_true, Bool.not_eq_true',
    Bool.and_eq_false_iff, beq_eq_false_iff_ne]
  refine ⟨dedupCheck_newEntry kind identity digest operationId receivedAt, fun other hother => ?_⟩
  exact not_and_or.mp (hfresh other hother)

theorem run_insertRequest {request : SignerRequest} (hfresh : FreshRequest s request) :
    (insertRequest (newRequestRow request)).run s =
      .ok ((), { s with requests := s.requests ++ [newRequestRow request] }) := by
  refine requestsTable.run_insert_eq_ok.mpr ⟨?_, rfl⟩
  simp only [requestInsertAllowed, List.all_eq_true, Bool.and_eq_true, bne_iff_ne]
  exact fun row hrow => ⟨⟨hfresh.operation row hrow, hfresh.correlation row hrow⟩,
    hfresh.identity row hrow⟩

theorem run_readOutcome {kind : DedupKind} {identity : Id32} {record : RequestRecord}
    (h : readByDedup s kind identity = .ok (some record)) :
    (readOutcome kind identity).run s = .ok (record, s) := by
  have hread : (query (readByDedup · kind identity)).run s = .ok (some record, s) :=
    run_query_of_ok h
  unfold readOutcome
  rw [run_bind_of_ok hread]
  exact run_orFail_some ..

end Runs

/-! ## What is known of a key -/

/-- A key that no deduplication row has. -/
def UnknownKey (s : Store) (kind : DedupKind) (identity : Id32) : Prop :=
  ∀ entry ∈ s.dedup, ¬ (entry.dedupKind = kind ∧ entry.identitySha256 = identity)

/-- A key with its deduplication row, its request and the row of the logical request. -/
structure KnownKey (s : Store) (kind : DedupKind) (identity : Id32) (entry : DedupRow)
    (row : RequestRow) (logical : DedupRow) : Prop where
  entry_mem : entry ∈ s.dedup
  kind : entry.dedupKind = kind
  identity : entry.identitySha256 = identity
  row_mem : row ∈ s.requests
  belongs : BelongsTo entry row
  logical_mem : logical ∈ s.dedup
  logical_row : LogicalRow row logical

section Keys

variable {s : Store} {kind : DedupKind} {identity : Id32}

theorem RequestInv.known_or_unknown (inv : RequestInv s) (kind : DedupKind) (identity : Id32) :
    UnknownKey s kind identity ∨ ∃ entry row logical, KnownKey s kind identity entry row logical := by
  by_cases h : ∃ entry ∈ s.dedup, entry.dedupKind = kind ∧ entry.identitySha256 = identity
  · obtain ⟨entry, hentry, hkind, hidentity⟩ := h
    obtain ⟨row, hrow, hbelongs⟩ := inv.belongs entry hentry
    obtain ⟨logical, hlogical, hlogicalRow⟩ := inv.logical row hrow
    exact .inr ⟨entry, row, logical, hentry, hkind, hidentity, hrow, hbelongs, hlogical,
      hlogicalRow⟩
  · exact .inl fun entry hentry hkey => h ⟨entry, hentry, hkey⟩

theorem KnownKey.read {entry logical : DedupRow} {row : RequestRow} (inv : RequestInv s)
    (h : KnownKey s kind identity entry row logical) :
    readByDedup s kind identity = .ok (some (recordOf row logical)) := by
  rw [← h.kind, ← h.identity]
  exact inv.readByDedup_eq h.entry_mem h.row_mem h.belongs h.logical_mem h.logical_row

/-- The row of a known request identity is the row of the logical request. -/
theorem KnownKey.entry_eq_logical {entry logical : DedupRow} {row : RequestRow}
    (inv : RequestInv s) (h : KnownKey s .request identity entry row logical) :
    entry = logical :=
  inv.entry_eq h.logical_mem h.entry_mem (h.kind.trans h.logical_row.kind.symm)
    ((h.belongs.identity h.kind).trans h.logical_row.identity.symm)

theorem KnownKey.identity_eq {entry logical : DedupRow} {row : RequestRow}
    (h : KnownKey s .request identity entry row logical) :
    row.requestIdentitySha256 = identity :=
  (h.belongs.identity h.kind).symm.trans h.identity

end Keys

/-! ## The admission -/

/-- What an admission adds to the two tables; nothing else of them changes but the counters. -/
structure Adds (s s' : Store) (rows : List RequestRow) (more : List (DedupKind × Id32 × Id32)) :
    Prop where
  requests : s'.requests = s.requests ++ rows
  bindings : bindings s' = bindings s ++ more
  config : s'.configBindings = s.configBindings

section Admission

variable {s : Store} {request : SignerRequest}

/-- The reads that an admission begins with. -/
theorem run_admitRequest_reads {requestMatch eventMatch : Option RequestRecord}
    (hrequest : readByDedup s .request request.requestIdentity = .ok requestMatch)
    (hevent : readByDedup s .event request.eventId = .ok eventMatch) :
    (admitRequest request).run s =
      (match requestMatch, eventMatch with
      | none, none => insertNewRequest request
      | some existing, event =>
          if exactRequest existing request && event.all (·.operationId == existing.operationId)
          then do
            recordEvent request existing.operationId event.isSome
            recordReplay .request request.requestIdentity request.receivedAt
            return .exactReplay (← readOutcome .request request.requestIdentity)
          else do
            recordConflict .request request.requestIdentity request.receivedAt
            return .conflictingReuse (← readOutcome .request request.requestIdentity)
      | none, some _ => do
          recordConflict .event request.eventId request.receivedAt
          return .conflictingReuse (← readOutcome .event request.eventId) : Tx _).run s := by
  have hfirst : (query (readByDedup · .request request.requestIdentity)).run s =
      .ok (requestMatch, s) := run_query_of_ok hrequest
  have hsecond : (query (readByDedup · .event request.eventId)).run s = .ok (eventMatch, s) :=
    run_query_of_ok hevent
  unfold admitRequest
  refine (run_bind_of_ok hfirst).trans ((run_bind_of_ok hsecond).trans ?_)
  cases requestMatch <;> cases eventMatch <;> rfl

/-- Two new keys admit the request. -/
theorem RequestInv.admit_new (inv : RequestInv s)
    (hrequest : UnknownKey s .request request.requestIdentity)
    (hevent : UnknownKey s .event request.eventId) (hfresh : FreshRequest s request) :
    ∃ record s' logical, (admitRequest request).run s = .ok (.admitted record, s') ∧
      RequestInv s' ∧ record = recordOf (newRequestRow request) logical ∧
      Adds s s' [newRequestRow request]
        [(.request, request.requestIdentity, request.operationId),
          (.event, request.eventId, request.operationId)] := by
  have hentry : FreshEntry s (newEntry .request request.requestIdentity request.requestDigest
      request.operationId request.receivedAt) := hrequest
  have inv₁ := inv.logically hfresh hentry
  have hevent₁ : FreshEntry (s.logically request) (newEntry .event request.eventId
      request.requestDigest request.operationId request.receivedAt) := by
    intro other hother hkey
    rcases List.mem_append.mp hother with hold | hnew
    · exact hevent other hold hkey
    · rw [List.mem_singleton.mp hnew] at hkey
      cases hkey.1
  have hrow : newRequestRow request ∈ (s.logically request).requests :=
    List.mem_append_right _ (List.mem_singleton_self _)
  have inv₂ := inv₁.remembers hevent₁ hrow ⟨rfl, rfl, nofun⟩ (dedupCheck_newEntry ..)
  obtain ⟨logical, hlogical, hlogicalRow⟩ := inv₂.logical _ hrow
  have hread := inv₂.readByDedup_eq hlogical hrow
    ⟨hlogicalRow.operation, hlogicalRow.digest, fun _ => hlogicalRow.identity⟩ hlogical hlogicalRow
  rw [hlogicalRow.kind, hlogicalRow.identity] at hread
  refine ⟨_, _, logical, ?_, inv₂, rfl, ?_⟩
  · rw [run_admitRequest_reads (readByDedup_none hrequest) (readByDedup_none hevent)]
    unfold insertNewRequest
    rw [run_bind_of_ok (run_insertRequest hfresh)]
    refine (run_bind_of_ok (run_insertDedup (s := { s with
      requests := s.requests ++ [newRequestRow request] }) hentry)).trans ?_
    refine (run_bind_of_ok (run_insertDedup hevent₁)).trans ?_
    refine (run_bind_of_ok (run_readOutcome hread)).trans ?_
    rfl
  · refine ⟨rfl, ?_, rfl⟩
    unfold bindings Store.remembers Store.logically
    simp only [List.map_append, List.map_cons, List.map_nil, List.append_assoc, List.cons_append,
      List.nil_append]
    rfl

/-- A known request whose counters count on is recorded as a conflict. -/
theorem RequestInv.admit_conflict (inv : RequestInv s) {kind : DedupKind} {identity : Id32}
    {entry logical : DedupRow} {row : RequestRow} (h : KnownKey s kind identity entry row logical)
    (hcounts : entry.CountsOn) (receivedAt : TimeUnixMs) :
    ∃ logical', (do
        recordConflict kind identity receivedAt
        return .conflictingReuse (← readOutcome kind identity) : Tx RequestAdmission).run s =
        .ok (.conflictingReuse (recordOf row logical'),
          s.seenAgain entry (entry.conflicted receivedAt)) ∧
      RequestInv (s.seenAgain entry (entry.conflicted receivedAt)) ∧
      Adds s (s.seenAgain entry (entry.conflicted receivedAt)) [] [] := by
  have hagain := DedupRow.conflicted_again receivedAt
    (inv.checked entry h.entry_mem) hcounts
  have inv' := inv.seenAgain hagain
  obtain ⟨logical', hlogical, hlogicalRow⟩ := inv'.logical row h.row_mem
  have hread := inv'.readByDedup_eq (Table.mem_replace.mpr (.inr ⟨h.entry_mem, rfl⟩)) h.row_mem
    (h.belongs.seenAgain hagain) hlogical hlogicalRow
  rw [hagain.kind, hagain.identity, h.kind, h.identity] at hread
  refine ⟨logical', ?_, inv', (List.append_nil _).symm, ?_, rfl⟩
  · have hrun := inv.run_recordConflict receivedAt h.entry_mem hcounts
    rw [h.kind, h.identity] at hrun
    rw [run_bind_of_ok hrun, run_bind_of_ok (run_readOutcome hread)]
    rfl
  · rw [List.append_nil]
    exact bindings_seenAgain hagain

/-- The event of a replay: known for the same operation, or remembered now. -/
theorem RequestInv.run_recordEvent (inv : RequestInv s) {row : RequestRow}
    (hrow : row ∈ s.requests) (hdigest : row.requestSha256 = request.requestDigest)
    (hevent : UnknownKey s .event request.eventId ∨ ∃ entry logical,
      KnownKey s .event request.eventId entry row logical ∧ entry.CountsOn) :
    ∃ known s', (known = true ↔ ¬ UnknownKey s .event request.eventId) ∧
      (recordEvent request row.operationId known).run s = .ok ((), s') ∧ RequestInv s' ∧
      (∀ entry ∈ s.dedup, entry.dedupKind = .request → entry ∈ s'.dedup) ∧
      Adds s s' [] (if known then [] else [(.event, request.eventId, row.operationId)]) := by
  rcases hevent with hunknown | ⟨entry, logical, hknown, hcounts⟩
  · have hfresh : FreshEntry s (newEntry .event request.eventId request.requestDigest
      row.operationId request.receivedAt) := hunknown
    have inv' := inv.remembers hfresh hrow ⟨rfl, hdigest.symm, nofun⟩ (dedupCheck_newEntry ..)
    refine ⟨false, _, by simpa using hunknown, run_insertDedup hfresh, inv', ?_, ?_⟩
    · exact fun entry hentry _ => List.mem_append_left _ hentry
    · refine ⟨(List.append_nil _).symm, ?_, rfl⟩
      unfold bindings Store.remembers
      rw [List.map_append]
      rfl
  · have hagain := DedupRow.replayed_again request.receivedAt
      (inv.checked entry hknown.entry_mem) hcounts
    refine ⟨true, s.seenAgain entry (entry.replayed request.receivedAt), ?_, ?_,
      inv.seenAgain hagain, ?_, ?_⟩
    · simp only [true_iff]
      exact fun hunknown => hunknown entry hknown.entry_mem ⟨hknown.kind, hknown.identity⟩
    · have hrun := inv.run_recordReplay request.receivedAt hknown.entry_mem hcounts
      rwa [hknown.kind, hknown.identity] at hrun
    · intro other hother hkind
      refine Table.mem_replace.mpr (.inl ⟨hother, fun heq => ?_⟩)
      rw [heq, hknown.kind] at hkind
      cases hkind
    · refine ⟨(List.append_nil _).symm, ?_, rfl⟩
      rw [if_pos rfl, List.append_nil]
      exact bindings_seenAgain hagain

/-- A known request with the same content is a replay, unless its event carried another one. -/
theorem RequestInv.admit_replay (inv : RequestInv s) {entry logical : DedupRow} {row : RequestRow}
    (h : KnownKey s .request request.requestIdentity entry row logical)
    (hcounts : ∀ entry ∈ s.dedup, entry.CountsOn)
    (hexact : exactRequest (recordOf row logical) request = true)
    (hevent : UnknownKey s .event request.eventId ∨ ∃ entry logical,
      KnownKey s .event request.eventId entry row logical) :
    ∃ known s' logical', (known = true ↔ ¬ UnknownKey s .event request.eventId) ∧
      (admitRequest request).run s = .ok (.exactReplay (recordOf row logical'), s') ∧
      RequestInv s' ∧
      Adds s s' [] (if known then [] else [(.event, request.eventId, row.operationId)]) := by
  have hdigest : row.requestSha256 = request.requestDigest := by
    simp only [exactRequest, recordOf, Bool.and_eq_true, beq_iff_eq] at hexact
    exact hexact.2
  have heq := h.entry_eq_logical inv
  obtain ⟨known, s₁, hknown, hrun, inv₁, hkept, hadds⟩ := inv.run_recordEvent h.row_mem hdigest
    (hevent.imp_right fun ⟨other, logical, hother⟩ =>
      ⟨other, logical, hother, hcounts other hother.entry_mem⟩)
  have hentry : entry ∈ s₁.dedup := hkept entry h.entry_mem h.kind
  have hcount := hcounts entry h.entry_mem
  have hagain := DedupRow.replayed_again request.receivedAt
    (inv₁.checked entry hentry) hcount
  have inv₂ := inv₁.seenAgain hagain
  have hrow : row ∈ s₁.requests := by
    rw [hadds.requests]
    exact List.mem_append_left _ h.row_mem
  obtain ⟨logical', hlogical, hlogicalRow⟩ := inv₂.logical row hrow
  have hread := inv₂.readByDedup_eq (Table.mem_replace.mpr (.inr ⟨hentry, rfl⟩)) hrow
    (h.belongs.seenAgain hagain) hlogical hlogicalRow
  rw [hagain.kind, hagain.identity, h.kind, h.identity] at hread
  have hreplay := inv₁.run_recordReplay request.receivedAt hentry hcount
  rw [h.kind, h.identity] at hreplay
  -- the event is unknown, or it was read with the operation of this request
  obtain ⟨eventMatch, heventRead, hall, hsome⟩ : ∃ eventMatch : Option RequestRecord,
      readByDedup s .event request.eventId = .ok eventMatch ∧
        eventMatch.all (·.operationId == row.operationId) = true ∧ eventMatch.isSome = known := by
    rcases hevent with hunknown | ⟨other, otherLogical, hother⟩
    · refine ⟨none, readByDedup_none hunknown, rfl, ?_⟩
      cases known with
      | false => rfl
      | true => exact absurd hunknown (hknown.mp rfl)
    · refine ⟨_, hother.read inv, by simp [recordOf], ?_⟩
      exact (hknown.mpr fun hunknown => hunknown other hother.entry_mem
        ⟨hother.kind, hother.identity⟩).symm
  refine ⟨known, _, logical', hknown, ?_, inv₂, ?_⟩
  · rw [run_admitRequest_reads (h.read inv) heventRead]
    have hbranch : (exactRequest (recordOf row logical) request &&
        eventMatch.all (·.operationId == (recordOf row logical).operationId)) = true := by
      rw [hexact, Bool.true_and]
      exact hall
    simp only [hbranch, if_true, hsome]
    refine (run_bind_of_ok hrun).trans ?_
    rw [run_bind_of_ok hreplay, run_bind_of_ok (run_readOutcome hread)]
    rfl
  · refine ⟨hadds.requests, ?_, hadds.config⟩
    rw [bindings_seenAgain hagain]
    exact hadds.bindings

end Admission

end MycSigner
