import Mathlib.Data.List.Induction
import MycSigner.Outbox.Reconfiguration
import MycSigner.Requests.Deduplication
import MycSigner.Sessions.SoleSession

/-!
# Runs of admissions

Whatever sequence of deliveries arrives, a logical request and an event stay bound to the
operation of their first admission, and the answer to the next delivery is decided by what its
two keys are bound to.
-/

namespace MycSigner

open Transaction

/-! ## Runs -/

/-- One call of `admit_signer_request`, or a change elsewhere in the store. -/
inductive AdmissionEvent where
  | admission (request : SignerRequest)
  | elsewhere (other : Store)

namespace AdmissionEvent

/-- The store after an event; a call that fails is rolled back. -/
def perform (config : Configuration) (s : Store) : AdmissionEvent → Store
  | .admission request => ((admitSignerRequest config request).atomically s).2
  | .elsewhere other =>
      { other with configBindings := s.configBindings, requests := s.requests, dedup := s.dedup }

def request? : AdmissionEvent → Option SignerRequest
  | .admission request => some request
  | .elsewhere _ => none

/-- The requests of a run. -/
def requests (events : List AdmissionEvent) : List SignerRequest := events.filterMap request?

/-- The store after a run. -/
def after (config : Configuration) (appliedAtUnixS : ℕ) (events : List AdmissionEvent) : Store :=
  Run.after (perform config) (Store.initial config.metadata appliedAtUnixS) events

end AdmissionEvent

/-! ## What the keys are bound to -/

/-- The request that was admitted first under the same client and request ID. -/
def knownRequest (s : Store) (request : SignerRequest) : Option RequestRow :=
  s.requests.find? fun row =>
    row.clientPublicKey = request.clientPublicKey ∧ row.requestId = request.requestId

/-- The operation that an event is bound to. -/
def knownEvent (s : Store) (eventId : Id32) : Option Id32 :=
  (s.dedup.find? fun row => row.dedupKind = .event ∧ row.identitySha256 = eventId).map
    DedupRow.operationId

/-- The request is known with the same content, and its event carried nothing else. -/
def Replays (s : Store) (request : SignerRequest) : Prop :=
  ∃ row, knownRequest s request = some row ∧ row.method = request.method ∧
    row.requestSha256 = request.requestDigest ∧
    (knownEvent s request.eventId = none ∨ knownEvent s request.eventId = some row.operationId)

/-- The invariant of a run: every request row was written by an admission of the run. -/
structure AdmissionInv (config : Configuration) (admitted : List SignerRequest) (s : Store) :
    Prop extends RequestInv s where
  bound : Bound config s
  from_run : ∀ row ∈ s.requests, ∃ request ∈ admitted, row = newRequestRow request

section

variable {config : Configuration} {admitted : List SignerRequest} {s : Store}
  {request : SignerRequest}

theorem AdmissionInv.row_of_identity (inv : AdmissionInv config admitted s)
    (hdistinct : Distinguished (admitted ++ [request])) {row : RequestRow}
    (hrow : row ∈ s.requests) (hidentity : row.requestIdentitySha256 = request.requestIdentity) :
    row.clientPublicKey = request.clientPublicKey ∧ row.requestId = request.requestId := by
  obtain ⟨first, hfirst, rfl⟩ := inv.from_run row hrow
  exact hdistinct.identity first (List.mem_append_left _ hfirst) request
    (List.mem_append_right _ (List.mem_singleton_self _)) hidentity

theorem RequestInv.identity_of_row (inv : RequestInv s) {row : RequestRow}
    (hrow : row ∈ s.requests) (hclient : row.clientPublicKey = request.clientPublicKey)
    (hid : row.requestId = request.requestId) :
    row.requestIdentitySha256 = request.requestIdentity := by
  obtain ⟨first, rfl⟩ := inv.derived row hrow
  change deriveRequestIdentity first.clientPublicKey first.requestId = _
  rw [show first.clientPublicKey = _ from hclient, show first.requestId = _ from hid]
  rfl

theorem RequestInv.no_row_of_unknown (inv : RequestInv s)
    (h : UnknownKey s .request request.requestIdentity) :
    ∀ row ∈ s.requests, row.requestIdentitySha256 ≠ request.requestIdentity := by
  intro row hrow hidentity
  obtain ⟨entry, hentry, hlogical⟩ := inv.logical row hrow
  exact h entry hentry ⟨hlogical.kind, hlogical.identity.trans hidentity⟩

theorem RequestInv.knownRequest_none (inv : RequestInv s)
    (h : UnknownKey s .request request.requestIdentity) : knownRequest s request = none := by
  refine List.find?_eq_none.mpr fun row hrow hkey => ?_
  simp only [decide_eq_true_eq] at hkey
  exact inv.no_row_of_unknown h row hrow (inv.identity_of_row hrow hkey.1 hkey.2)

theorem RequestInv.one_row (inv : RequestInv s) {row row' : RequestRow} (hrow : row ∈ s.requests)
    (hrow' : row' ∈ s.requests) (hclient : row.clientPublicKey = row'.clientPublicKey)
    (hid : row.requestId = row'.requestId) : row = row' := by
  obtain ⟨request, rfl⟩ := inv.derived row' hrow'
  exact inv.identities_unique.eq_of_key_eq hrow hrow' (inv.identity_of_row hrow hclient hid)

theorem knownRequest_eq_some (inv : RequestInv s) {row : RequestRow} :
    knownRequest s request = some row ↔ row ∈ s.requests ∧
      row.clientPublicKey = request.clientPublicKey ∧ row.requestId = request.requestId := by
  constructor
  · intro h
    exact ⟨List.mem_of_find?_eq_some h, by simpa using List.find?_some h⟩
  · rintro ⟨hrow, hclient, hid⟩
    cases hfound : knownRequest s request with
    | none =>
        have hnone := List.find?_eq_none.mp hfound row hrow
        simp [hclient, hid] at hnone
    | some found =>
        have hkey := List.find?_some hfound
        simp only [decide_eq_true_eq] at hkey
        rw [inv.one_row (List.mem_of_find?_eq_some hfound) hrow (hkey.1.trans hclient.symm)
          (hkey.2.trans hid.symm)]

theorem AdmissionInv.knownRequest_some (inv : AdmissionInv config admitted s)
    (hdistinct : Distinguished (admitted ++ [request])) {entry logical : DedupRow}
    {row : RequestRow} (h : KnownKey s .request request.requestIdentity entry row logical) :
    knownRequest s request = some row :=
  (knownRequest_eq_some inv.toRequestInv).mpr
    ⟨h.row_mem, inv.row_of_identity hdistinct h.row_mem h.identity_eq⟩

theorem knownEvent_none {eventId : Id32} (h : UnknownKey s .event eventId) :
    knownEvent s eventId = none := by
  have hnone : (s.dedup.find? fun row => row.dedupKind = .event ∧
      row.identitySha256 = eventId) = none :=
    List.find?_eq_none.mpr fun entry hentry hkey => h entry hentry (by simpa using hkey)
  rw [knownEvent, hnone]
  rfl

theorem RequestInv.knownEvent_of_mem (inv : RequestInv s) {entry : DedupRow}
    (hentry : entry ∈ s.dedup) (hkind : entry.dedupKind = .event) :
    knownEvent s entry.identitySha256 = some entry.operationId := by
  have hfound : (s.dedup.find? fun other => other.dedupKind = .event ∧
      other.identitySha256 = entry.identitySha256) = some entry := by
    have hkey : (fun other : DedupRow => decide (other.dedupKind = .event ∧
        other.identitySha256 = entry.identitySha256)) = fun other => decide
        ((other.dedupKind, other.identitySha256) = (entry.dedupKind, entry.identitySha256)) := by
      funext other
      simp [hkind]
    rw [hkey]
    exact inv.dedup_unique.find?_eq_some hentry
  rw [knownEvent, hfound, Option.map_some]

theorem RequestInv.knownEvent_some (inv : RequestInv s) {eventId : Id32}
    {entry logical : DedupRow} {row : RequestRow}
    (h : KnownKey s .event eventId entry row logical) :
    knownEvent s eventId = some row.operationId := by
  rw [← h.identity, ← h.belongs.operation]
  exact inv.knownEvent_of_mem h.entry_mem h.kind

theorem knownEvent_eq_some (inv : RequestInv s) {eventId operationId : Id32} :
    knownEvent s eventId = some operationId ↔ (.event, eventId, operationId) ∈ bindings s := by
  constructor
  · intro h
    obtain ⟨entry, hfound, rfl⟩ := Option.map_eq_some_iff.mp h
    have hkey := List.find?_some hfound
    simp only [decide_eq_true_eq] at hkey
    refine List.mem_map.mpr ⟨entry, List.mem_of_find?_eq_some hfound, ?_⟩
    rw [DedupRow.binding, hkey.1, hkey.2]
  · intro h
    obtain ⟨entry, hentry, heq⟩ := List.mem_map.mp h
    cases hkind : entry.dedupKind with
    | request =>
        rw [DedupRow.binding, hkind] at heq
        cases heq
    | event =>
        rw [DedupRow.binding, hkind] at heq
        cases heq
        exact inv.knownEvent_of_mem hentry hkind

/-- Under distinct digests a request with a new identity has new keys. -/
theorem AdmissionInv.fresh (inv : AdmissionInv config admitted s)
    (hdistinct : Distinguished (admitted ++ [request]))
    (h : UnknownKey s .request request.requestIdentity) : FreshRequest s request := by
  have hidentity := inv.no_row_of_unknown h
  have hlast : request ∈ admitted ++ [request] :=
    List.mem_append_right _ (List.mem_singleton_self _)
  have hoperation : ∀ row ∈ s.requests, row.operationId ≠ request.operationId := by
    intro row hrow heq
    obtain ⟨first, hfirst, rfl⟩ := inv.from_run row hrow
    exact hidentity _ hrow
      (hdistinct.operation first (List.mem_append_left _ hfirst) request hlast heq)
  refine ⟨hoperation, ?_, hidentity⟩
  intro row hrow heq
  obtain ⟨first, hfirst, rfl⟩ := inv.from_run row hrow
  exact hoperation _ hrow
    (hdistinct.correlation first (List.mem_append_left _ hfirst) request hlast heq)

/-! ## One admission -/

/-- What an admission returns and what it adds, by the keys that are known before it. -/
structure AdmissionDecides (s : Store) (request : SignerRequest)
    (admission : RequestAdmission) (s' : Store) : Prop where
  admitted : (∃ record, admission = .admitted record) ↔
    knownRequest s request = none ∧ knownEvent s request.eventId = none
  replayed : (∃ record, admission = .exactReplay record) ↔ Replays s request
  conflicting : (∃ record, admission = .conflictingReuse record) ↔
    ¬ (knownRequest s request = none ∧ knownEvent s request.eventId = none) ∧ ¬ Replays s request
  adds_both : ∀ record, admission = .admitted record →
    s'.requests = s.requests ++ [newRequestRow request] ∧
      bindings s' = bindings s ++ [(.request, request.requestIdentity, request.operationId),
        (.event, request.eventId, request.operationId)]
  adds_event : ∀ record, admission = .exactReplay record → s'.requests = s.requests ∧
    (bindings s' = bindings s ∨ (knownEvent s request.eventId = none ∧
      bindings s' = bindings s ++ [(.event, request.eventId, record.operationId)]))
  adds_nothing : ∀ record, admission = .conflictingReuse record →
    s'.requests = s.requests ∧ bindings s' = bindings s

/-- A record carries what the first admission wrote. -/
structure CarriesFirst (record : RequestRecord) (first : SignerRequest) : Prop where
  operation : record.operationId = first.operationId
  correlation : record.correlationId = deriveCorrelationId first.operationId
  received : record.receivedAt = first.receivedAt

/-- The first admission that the answer to a delivery goes back to: the one that its request is
bound to, else the one that its event is bound to, else the delivery itself. -/
def BoundFirst (s : Store) (request first : SignerRequest) : Prop :=
  knownRequest s request = some (newRequestRow first) ∨
    (knownRequest s request = none ∧
      (knownEvent s request.eventId = some first.operationId ∨
        (knownEvent s request.eventId = none ∧ newRequestRow first = newRequestRow request)))

theorem not_replays_of_unknown (h : knownRequest s request = none) : ¬ Replays s request := by
  rintro ⟨row, hrow, -⟩
  rw [h] at hrow
  cases hrow

theorem Adds.admissionInv {s' : Store} {rows : List RequestRow}
    {more : List (DedupKind × Id32 × Id32)} (h : Adds s s' rows more) (inv' : RequestInv s')
    (inv : AdmissionInv config admitted s) (hrows : ∀ row ∈ rows, row = newRequestRow request) :
    AdmissionInv config (admitted ++ [request]) s' where
  toRequestInv := inv'
  bound := by
    unfold Bound latestBinding
    rw [h.config]
    exact inv.bound
  from_run := by
    intro row hrow
    rw [h.requests] at hrow
    rcases List.mem_append.mp hrow with hold | hnew
    · obtain ⟨first, hfirst, heq⟩ := inv.from_run row hold
      exact ⟨first, List.mem_append_left _ hfirst, heq⟩
    · exact ⟨request, List.mem_append_right _ (List.mem_singleton_self _), hrows row hnew⟩

theorem CarriesFirst.of_row {first : SignerRequest} (logical : DedupRow) :
    CarriesFirst (recordOf (newRequestRow first) logical) first := ⟨rfl, rfl, rfl⟩

/-- A known request replays when its row and its event agree with the delivery. -/
theorem replays_iff {row : RequestRow} (h : knownRequest s request = some row) :
    Replays s request ↔ row.method = request.method ∧
      row.requestSha256 = request.requestDigest ∧
      (knownEvent s request.eventId = none ∨
        knownEvent s request.eventId = some row.operationId) := by
  constructor
  · rintro ⟨other, hother, hrest⟩
    rw [h] at hother
    cases hother
    exact hrest
  · intro hrest
    exact ⟨row, h, hrest⟩

theorem AdmissionInv.exactRequest_iff (inv : AdmissionInv config admitted s)
    (hdistinct : Distinguished (admitted ++ [request])) {entry logical : DedupRow}
    {row : RequestRow} (h : KnownKey s .request request.requestIdentity entry row logical) :
    exactRequest (recordOf row logical) request = true ↔
      row.method = request.method ∧ row.requestSha256 = request.requestDigest := by
  obtain ⟨hclient, hid⟩ := inv.row_of_identity hdistinct h.row_mem h.identity_eq
  simp [exactRequest, recordOf, hclient, hid]

/-- The event of a delivery is unknown, or it is known for one operation. -/
theorem RequestInv.event_cases (inv : RequestInv s) (eventId : Id32) :
    (UnknownKey s .event eventId ∧ knownEvent s eventId = none ∧
        readByDedup s .event eventId = .ok none) ∨
      ∃ entry row logical, KnownKey s .event eventId entry row logical ∧
        knownEvent s eventId = some row.operationId ∧
        readByDedup s .event eventId = .ok (some (recordOf row logical)) := by
  rcases inv.known_or_unknown .event eventId with h | ⟨entry, row, logical, h⟩
  · exact .inl ⟨h, knownEvent_none h, readByDedup_none h⟩
  · exact .inr ⟨entry, row, logical, h, inv.knownEvent_some h, h.read inv⟩

/-- A conflict leaves the tables but for a counter. -/
theorem AdmissionDecides.of_conflict {record : RequestRecord} {s' : Store}
    (hadds : Adds s s' [] []) (hreplays : ¬ Replays s request)
    (hknown : ¬ (knownRequest s request = none ∧ knownEvent s request.eventId = none)) :
    AdmissionDecides s request (.conflictingReuse record) s' where
  admitted := by simp only [reduceCtorEq, exists_false, false_iff]; exact hknown
  replayed := by simp only [reduceCtorEq, exists_false, false_iff]; exact hreplays
  conflicting := ⟨fun _ => ⟨hknown, hreplays⟩, fun _ => ⟨record, rfl⟩⟩
  adds_both := fun _ h => by cases h
  adds_event := fun _ h => by cases h
  adds_nothing := fun _ _ => ⟨by simpa using hadds.requests, by simpa using hadds.bindings⟩

/-- A known request with other content, or with an event that carried another one. -/
theorem AdmissionInv.admit_known_conflict (inv : AdmissionInv config admitted s)
    (hdistinct : Distinguished (admitted ++ [request])) {entry logical : DedupRow}
    {row : RequestRow} (h : KnownKey s .request request.requestIdentity entry row logical)
    (hcounts : entry.CountsOn) (hreplays : ¬ Replays s request) :
    ∃ logical' s', (admitRequest request).run s =
        .ok (.conflictingReuse (recordOf row logical'), s') ∧ RequestInv s' ∧ Adds s s' [] [] := by
  obtain ⟨logical', hrun, inv', hadds⟩ := inv.admit_conflict h hcounts request.receivedAt
  refine ⟨logical', _, ?_, inv', hadds⟩
  have hexact := inv.exactRequest_iff hdistinct h
  rw [replays_iff (inv.knownRequest_some hdistinct h), ← and_assoc, ← hexact] at hreplays
  rcases inv.event_cases request.eventId with ⟨-, hevent, hread⟩ |
    ⟨other, otherRow, otherLogical, -, hevent, hread⟩
  · rw [hevent] at hreplays
    have hfalse : exactRequest (recordOf row logical) request = false := by simpa using hreplays
    rw [run_admitRequest_reads (h.read inv.toRequestInv) hread]
    simp only [hfalse, Bool.false_and, Bool.false_eq_true, if_false]
    exact hrun
  · rw [hevent] at hreplays
    have hfalse : (exactRequest (recordOf row logical) request &&
        Option.all (fun event => event.operationId == (recordOf row logical).operationId)
          (some (recordOf otherRow otherLogical))) = false := by
      simpa [recordOf] using hreplays
    rw [run_admitRequest_reads (h.read inv.toRequestInv) hread]
    simp only [hfalse, Bool.false_eq_true, if_false]
    exact hrun

/-- The event of a replay carried nothing but this request. -/
theorem RequestInv.event_of_replay (inv : RequestInv s) {row : RequestRow}
    (hrow : row ∈ s.requests) (h : knownEvent s request.eventId = none ∨
      knownEvent s request.eventId = some row.operationId) :
    UnknownKey s .event request.eventId ∨
      ∃ entry logical, KnownKey s .event request.eventId entry row logical := by
  rcases inv.event_cases request.eventId with ⟨hunknown, -, -⟩ |
    ⟨entry, other, logical, hknown, hevent, -⟩
  · exact .inl hunknown
  · have hoperation : other.operationId = row.operationId := by
      rw [hevent] at h
      simpa using h
    rw [inv.operations_unique.eq_of_key_eq hknown.row_mem hrow hoperation] at hknown
    exact .inr ⟨entry, logical, hknown⟩

/-- What a record carries is written in the row. -/
theorem CarriesFirst.of_row_eq {record : RequestRecord} {first second : SignerRequest}
    (h : CarriesFirst record first) (heq : newRequestRow first = newRequestRow second) :
    CarriesFirst record second where
  operation := h.operation.trans (congrArg RequestRow.operationId heq)
  correlation := h.correlation.trans (congrArg RequestRow.correlationId heq)
  received := h.received.trans (congrArg RequestRow.receivedAt heq)

/-- The answer to one delivery. -/
theorem AdmissionInv.admission (inv : AdmissionInv config admitted s)
    (hdistinct : Distinguished (admitted ++ [request]))
    (hcounts : ∀ entry ∈ s.dedup, entry.CountsOn) :
    ∃ admission s', (admitSignerRequest config request).run s = .ok (admission, s') ∧
      AdmissionInv config (admitted ++ [request]) s' ∧
      AdmissionDecides s request admission s' ∧
      ∃ first, newRequestRow first ∈ s'.requests ∧ BoundFirst s request first ∧
        CarriesFirst admission.record first := by
  have hbinding : ∀ {admission s'}, (admitRequest request).run s = .ok (admission, s') →
      (admitSignerRequest config request).run s = .ok (admission, s') :=
    fun hrun => run_withBinding.mpr ⟨inv.bound, hrun⟩
  rcases inv.known_or_unknown .request request.requestIdentity with
    hrequest | ⟨entry, row, logical, hrequest⟩
  · have hnone := inv.knownRequest_none hrequest
    have hreplays := not_replays_of_unknown hnone
    rcases inv.known_or_unknown .event request.eventId with
      hevent | ⟨entry, row, logical, hevent⟩
    · have hnoneEvent := knownEvent_none hevent
      obtain ⟨record, s', logical, hrun, inv', rfl, hadds⟩ :=
        inv.admit_new hrequest hevent (inv.fresh hdistinct hrequest)
      refine ⟨_, s', hbinding hrun,
        hadds.admissionInv inv' inv fun row hrow => List.mem_singleton.mp hrow, ?_, request,
        ?_, .inr ⟨hnone, .inr ⟨hnoneEvent, rfl⟩⟩, .of_row logical⟩
      · exact {
          admitted := by simp [hnone, hnoneEvent]
          replayed := by simp [hreplays]
          conflicting := by simp [hnone, hnoneEvent]
          adds_both := fun _ _ => ⟨hadds.requests, hadds.bindings⟩
          adds_event := nofun
          adds_nothing := nofun }
      · rw [hadds.requests]
        exact List.mem_append_right _ (List.mem_singleton_self _)
    · have hsome := inv.knownEvent_some hevent
      obtain ⟨logical', hrun, inv', hadds⟩ := inv.admit_conflict hevent
        (hcounts entry hevent.entry_mem) request.receivedAt
      obtain ⟨first, -, hrow⟩ := inv.from_run row hevent.row_mem
      have hbody := (run_admitRequest_reads (readByDedup_none hrequest)
        (hevent.read inv.toRequestInv)).trans hrun
      exact ⟨_, _, hbinding hbody, hadds.admissionInv inv' inv nofun,
        .of_conflict hadds hreplays (by simp [hsome]), first, hrow ▸ hevent.row_mem,
        .inr ⟨hnone, .inl (by rw [hsome, hrow]; rfl)⟩, hrow ▸ .of_row logical'⟩
  · have hsome := inv.knownRequest_some hdistinct hrequest
    obtain ⟨first, -, hrow⟩ := inv.from_run row hrequest.row_mem
    have hfirst : BoundFirst s request first := .inl (hsome.trans (congrArg some hrow))
    have hknown : ¬ (knownRequest s request = none ∧ knownEvent s request.eventId = none) := by
      simp [hsome]
    have hkept : ∀ {s' more}, Adds s s' [] more → newRequestRow first ∈ s'.requests := by
      intro s' more hadds
      rw [hadds.requests, ← hrow]
      exact List.mem_append_left _ hrequest.row_mem
    by_cases hreplays : Replays s request
    · obtain ⟨hmethod, hdigest, hevent⟩ := (replays_iff hsome).mp hreplays
      have hexact := (inv.exactRequest_iff hdistinct hrequest).mpr ⟨hmethod, hdigest⟩
      obtain ⟨known, s', logical', hknownEvent, hrun, inv', hadds⟩ :=
        inv.admit_replay hrequest hcounts hexact (inv.event_of_replay hrequest.row_mem hevent)
      refine ⟨_, s', hbinding hrun, hadds.admissionInv inv' inv nofun, ?_, first,
        hkept hadds, hfirst, hrow ▸ .of_row logical'⟩
      exact {
        admitted := by simp [hsome]
        replayed := by simp [hreplays]
        conflicting := by simp [hreplays]
        adds_both := nofun
        adds_event := by
          rintro record ⟨rfl⟩
          refine ⟨by simpa using hadds.requests, ?_⟩
          cases known with
          | true => exact .inl (by simpa using hadds.bindings)
          | false =>
              have hunknown : UnknownKey s .event request.eventId := by simpa using hknownEvent
              exact .inr ⟨knownEvent_none hunknown, hadds.bindings⟩
        adds_nothing := nofun }
    · obtain ⟨logical', s', hrun, inv', hadds⟩ := inv.admit_known_conflict hdistinct hrequest
        (hcounts entry hrequest.entry_mem) hreplays
      exact ⟨_, s', hbinding hrun, hadds.admissionInv inv' inv nofun,
        .of_conflict hadds hreplays hknown, first, hkept hadds, hfirst, hrow ▸ .of_row logical'⟩

/-! ## Runs of admissions -/

/-- The store only adds request rows and bindings. -/
structure Remembers (s s' : Store) : Prop where
  requests : s.requests <+: s'.requests
  bindings : bindings s <+: bindings s'

theorem Remembers.refl (s : Store) : Remembers s s :=
  ⟨List.prefix_refl _, List.prefix_refl _⟩

theorem Remembers.trans {s₁ s₂ s₃ : Store} (h : Remembers s₁ s₂) (h' : Remembers s₂ s₃) :
    Remembers s₁ s₃ :=
  ⟨h.requests.trans h'.requests, h.bindings.trans h'.bindings⟩

theorem AdmissionDecides.remembers {admission : RequestAdmission} {s' : Store}
    (h : AdmissionDecides s request admission s') : Remembers s s' := by
  cases admission with
  | admitted record =>
      obtain ⟨hrows, hmore⟩ := h.adds_both record rfl
      exact ⟨⟨_, hrows.symm⟩, ⟨_, hmore.symm⟩⟩
  | exactReplay record =>
      obtain ⟨hrows, hsame | ⟨-, hmore⟩⟩ := h.adds_event record rfl
      · exact ⟨hrows ▸ List.prefix_refl _, hsame ▸ List.prefix_refl _⟩
      · exact ⟨hrows ▸ List.prefix_refl _, ⟨_, hmore.symm⟩⟩
  | conflictingReuse record =>
      obtain ⟨hrows, hsame⟩ := h.adds_nothing record rfl
      exact ⟨hrows ▸ List.prefix_refl _, hsame ▸ List.prefix_refl _⟩

/-- A request of the run that was answered as admitted. -/
def FirstAdmission (config : Configuration) (appliedAtUnixS : ℕ) (events : List AdmissionEvent)
    (first : SignerRequest) : Prop :=
  ∃ before later record s', events = before ++ .admission first :: later ∧
    (admitSignerRequest config first).run (AdmissionEvent.after config appliedAtUnixS before) =
      .ok (.admitted record, s')

theorem FirstAdmission.append {appliedAtUnixS : ℕ} {events : List AdmissionEvent}
    {first : SignerRequest} (h : FirstAdmission config appliedAtUnixS events first)
    (more : List AdmissionEvent) : FirstAdmission config appliedAtUnixS (events ++ more) first := by
  obtain ⟨before, later, record, s', rfl, hrun⟩ := h
  exact ⟨before, later ++ more, record, s', by simp, hrun⟩

/-- What is bound in `s` is bound to the same operation in `s'`, and to no other one. -/
structure BoundForEver (s s' : Store) : Prop where
  request : ∀ request row, knownRequest s request = some row → knownRequest s' request = some row
  event : ∀ eventId operationId, knownEvent s eventId = some operationId →
    knownEvent s' eventId = some operationId
  one_request : ∀ row ∈ s'.requests, ∀ row' ∈ s'.requests,
    row.clientPublicKey = row'.clientPublicKey → row.requestId = row'.requestId → row = row'
  one_binding : ∀ kind identity first second, (kind, identity, first) ∈ bindings s' →
    (kind, identity, second) ∈ bindings s' → first = second

theorem RequestInv.one_binding (inv : RequestInv s) {kind : DedupKind}
    {identity first second : Id32} (hfirst : (kind, identity, first) ∈ bindings s)
    (hsecond : (kind, identity, second) ∈ bindings s) : first = second := by
  obtain ⟨entry, hentry, heq⟩ := List.mem_map.mp hfirst
  obtain ⟨other, hother, heq'⟩ := List.mem_map.mp hsecond
  cases heq
  have hkind : other.dedupKind = entry.dedupKind := congrArg Prod.fst heq'
  have hidentity : other.identitySha256 = entry.identitySha256 :=
    congrArg (fun key => key.2.1) heq'
  rw [inv.entry_eq hentry hother hkind hidentity] at heq'
  exact congrArg (fun key => key.2.2) heq'

theorem Remembers.bound {s' : Store} (h : Remembers s s') (inv : RequestInv s)
    (inv' : RequestInv s') : BoundForEver s s' where
  request := by
    intro request row hknown
    rw [knownRequest_eq_some inv] at hknown
    exact (knownRequest_eq_some inv').mpr ⟨h.requests.subset hknown.1, hknown.2⟩
  event := by
    intro eventId operationId hknown
    rw [knownEvent_eq_some inv] at hknown
    exact (knownEvent_eq_some inv').mpr (h.bindings.subset hknown)
  one_request := fun _ hrow _ hrow' hclient hid => inv'.one_row hrow hrow' hclient hid
  one_binding := fun _ _ _ _ hfirst hsecond => inv'.one_binding hfirst hsecond

theorem AdmissionInv.initial (config : Configuration) (appliedAtUnixS : ℕ) :
    AdmissionInv config [] (Store.initial config.metadata appliedAtUnixS) where
  operations_unique := List.nodup_nil
  identities_unique := List.nodup_nil
  dedup_unique := List.nodup_nil
  derived := nofun
  logical := nofun
  belongs := nofun
  checked := nofun
  bound := rfl
  from_run := nofun

/-- A change elsewhere keeps both tables and the binding. -/
theorem AdmissionInv.elsewhere (inv : AdmissionInv config admitted s) (other : Store) :
    AdmissionInv config admitted ((AdmissionEvent.elsewhere other).perform config s) where
  operations_unique := inv.operations_unique
  identities_unique := inv.identities_unique
  dedup_unique := inv.dedup_unique
  derived := inv.derived
  logical := inv.logical
  belongs := inv.belongs
  checked := inv.checked
  bound := inv.bound
  from_run := inv.from_run

/-- The requests of the beginning of a run are told apart when those of the run are. -/
theorem distinguished_of_prefix {first rest : List AdmissionEvent}
    (h : CollisionFree ((AdmissionEvent.requests (first ++ rest)).flatMap SignerRequest.hashed)) :
    Distinguished (AdmissionEvent.requests first) := by
  refine (h.mono ?_).distinguished
  rw [AdmissionEvent.requests, AdmissionEvent.requests, List.filterMap_append,
    List.flatMap_append]
  exact List.subset_append_left _ _

end

namespace AdmissionEvent

section

variable {config : Configuration} {appliedAtUnixS : ℕ}

/-- The counters of the deduplication rows can still count at every step of the run. -/
def CountsOn (config : Configuration) (appliedAtUnixS : ℕ) (events : List AdmissionEvent) : Prop :=
  Run.EveryStep (perform config) (fun s _ => ∀ entry ∈ s.dedup, entry.CountsOn)
    (Store.initial config.metadata appliedAtUnixS) events

theorem after_append (events : List AdmissionEvent) (event : AdmissionEvent) :
    after config appliedAtUnixS (events ++ [event]) =
      event.perform config (after config appliedAtUnixS events) :=
  Run.after_append ..

/-- Every row of the store goes back to a request that was admitted. -/
structure History (config : Configuration) (appliedAtUnixS : ℕ) (events : List AdmissionEvent) :
    Prop extends AdmissionInv config (requests events) (after config appliedAtUnixS events) where
  first : ∀ row ∈ (after config appliedAtUnixS events).requests,
    ∃ request, row = newRequestRow request ∧ FirstAdmission config appliedAtUnixS events request

theorem requests_snoc_admission (events : List AdmissionEvent) (request : SignerRequest) :
    requests (events ++ [.admission request]) = requests events ++ [request] :=
  List.filterMap_append ..

theorem requests_snoc_elsewhere (events : List AdmissionEvent) (other : Store) :
    requests (events ++ [.elsewhere other]) = requests events :=
  (List.filterMap_append ..).trans (List.append_nil _)

/-- One delivery at the end of a run. -/
theorem History.admission {events : List AdmissionEvent} (history : History config appliedAtUnixS events)
    {request : SignerRequest} (hdistinct : Distinguished (requests events ++ [request]))
    (hcounts : ∀ entry ∈ (after config appliedAtUnixS events).dedup, entry.CountsOn) :
    ∃ admission, (admitSignerRequest config request).run (after config appliedAtUnixS events) =
        .ok (admission, after config appliedAtUnixS (events ++ [.admission request])) ∧
      History config appliedAtUnixS (events ++ [.admission request]) ∧
      AdmissionDecides (after config appliedAtUnixS events) request admission
        (after config appliedAtUnixS (events ++ [.admission request])) ∧
      ∃ first, FirstAdmission config appliedAtUnixS (events ++ [.admission request]) first ∧
        BoundFirst (after config appliedAtUnixS events) request first ∧
        CarriesFirst admission.record first := by
  obtain ⟨admission, s', hrun, inv', hdecides, first, hmem, hbound, hcarries⟩ :=
    history.toAdmissionInv.admission hdistinct hcounts
  have hafter : after config appliedAtUnixS (events ++ [.admission request]) = s' := by
    rw [after_append]
    exact congrArg Prod.snd (atomically_of_ok hrun)
  have hfirst : ∀ row ∈ s'.requests, ∃ request', row = newRequestRow request' ∧
      FirstAdmission config appliedAtUnixS (events ++ [.admission request]) request' := by
    intro row hrow
    have hold : row ∈ (after config appliedAtUnixS events).requests → ∃ request',
        row = newRequestRow request' ∧
          FirstAdmission config appliedAtUnixS (events ++ [.admission request]) request' := by
      intro hrow
      obtain ⟨earlier, heq, hadmission⟩ := history.first row hrow
      exact ⟨earlier, heq, hadmission.append _⟩
    cases admission with
    | admitted record =>
        rw [(hdecides.adds_both record rfl).1] at hrow
        rcases List.mem_append.mp hrow with hrow | hnew
        · exact hold hrow
        · exact ⟨request, List.mem_singleton.mp hnew, events, [], record, s', rfl, hrun⟩
    | exactReplay record =>
        rw [(hdecides.adds_event record rfl).1] at hrow
        exact hold hrow
    | conflictingReuse record =>
        rw [(hdecides.adds_nothing record rfl).1] at hrow
        exact hold hrow
  obtain ⟨earlier, heq, hadmission⟩ := hfirst _ hmem
  rw [hafter]
  refine ⟨admission, hrun, ⟨?_, ?_⟩, hdecides, earlier, hadmission, ?_, ?_⟩
  · rw [requests_snoc_admission, hafter]
    exact inv'
  · rw [hafter]
    exact hfirst
  · rcases hbound with hrequest | ⟨hnone, hevent | ⟨hnoneEvent, hsame⟩⟩
    · exact .inl (hrequest.trans (congrArg some heq))
    · exact .inr ⟨hnone, .inl (hevent.trans (congrArg (some ·.operationId) heq))⟩
    · exact .inr ⟨hnone, .inr ⟨hnoneEvent, heq.symm.trans hsame⟩⟩
  · exact hcarries.of_row_eq heq

/-- The history of a run whose requests are told apart and whose counters count on. -/
theorem history (events : List AdmissionEvent) : ∀ rest : List AdmissionEvent,
    CollisionFree ((requests (events ++ rest)).flatMap SignerRequest.hashed) →
    CountsOn config appliedAtUnixS (events ++ rest) → History config appliedAtUnixS events := by
  induction events using List.reverseRecOn with
  | nil => exact fun _ _ _ => ⟨.initial config appliedAtUnixS, nofun⟩
  | append_singleton events event ih =>
      intro rest hinjective hcounts
      rw [List.append_assoc] at hcounts
      have hbefore := ih ([event] ++ rest) (by rwa [← List.append_assoc]) hcounts
      cases event with
      | admission request =>
          have hdistinct := distinguished_of_prefix hinjective
          rw [requests_snoc_admission] at hdistinct
          obtain ⟨_, -, hhistory, -⟩ := hbefore.admission hdistinct hcounts.at_step
          exact hhistory
      | elsewhere other =>
          refine ⟨?_, ?_⟩
          · rw [requests_snoc_elsewhere, after_append]
            exact hbefore.toAdmissionInv.elsewhere other
          · rw [after_append]
            intro row hrow
            obtain ⟨first, heq, hfirst⟩ := hbefore.first row hrow
            exact ⟨first, heq, hfirst.append _⟩

/-- Later deliveries only add. -/
theorem remembers_after (events : List AdmissionEvent) : ∀ rest : List AdmissionEvent,
    CollisionFree ((requests (events ++ rest)).flatMap SignerRequest.hashed) →
    CountsOn config appliedAtUnixS (events ++ rest) →
    Remembers (after config appliedAtUnixS events)
      (after config appliedAtUnixS (events ++ rest)) := by
  intro rest
  induction rest generalizing events with
  | nil =>
      rw [List.append_nil]
      exact fun _ _ => .refl _
  | cons event rest ih =>
      intro hinjective hcounts
      have hbefore := history events (event :: rest) hinjective hcounts
      have hcons : events ++ event :: rest = (events ++ [event]) ++ rest := by simp
      have hstep : Remembers (after config appliedAtUnixS events)
          (after config appliedAtUnixS (events ++ [event])) := by
        cases event with
        | admission request =>
            have hdistinct := distinguished_of_prefix (hcons ▸ hinjective)
            rw [requests_snoc_admission] at hdistinct
            obtain ⟨_, -, -, hdecides, -⟩ := hbefore.admission hdistinct hcounts.at_step
            exact hdecides.remembers
        | elsewhere other =>
            rw [after_append]
            exact ⟨List.prefix_refl _, List.prefix_refl _⟩
      rw [hcons] at hinjective hcounts ⊢
      exact hstep.trans (ih (events ++ [event]) hinjective hcounts)

/-- Request deduplication is exact.  In every run whose counters stay below their maximum and
whose digests do not collide, a delivery is answered by what its two keys are bound to: it is
admitted when both are new, replayed when its request is known with the same content and its
event carried nothing else, and a conflict otherwise.  The answer carries the operation, the
correlation and the time of the first admission, and what is bound then stays bound. -/
theorem deduplication_exact (config : Configuration) (appliedAtUnixS : ℕ)
    (first : List AdmissionEvent) (request : SignerRequest) (rest : List AdmissionEvent)
    (hinjective : CollisionFree
      ((requests (first ++ .admission request :: rest)).flatMap SignerRequest.hashed))
    (hcounts : CountsOn config appliedAtUnixS (first ++ .admission request :: rest)) :
    ∃ admission, (admitSignerRequest config request).run (after config appliedAtUnixS first) =
        .ok (admission, after config appliedAtUnixS (first ++ [.admission request])) ∧
      AdmissionDecides (after config appliedAtUnixS first) request admission
        (after config appliedAtUnixS (first ++ [.admission request])) ∧
      (∃ earlier, FirstAdmission config appliedAtUnixS (first ++ [.admission request]) earlier ∧
        BoundFirst (after config appliedAtUnixS first) request earlier ∧
        CarriesFirst admission.record earlier) ∧
      BoundForEver (after config appliedAtUnixS (first ++ [.admission request]))
        (after config appliedAtUnixS (first ++ .admission request :: rest)) := by
  have hcons : first ++ .admission request :: rest = (first ++ [.admission request]) ++ rest := by simp
  have hbefore := history first (.admission request :: rest) hinjective hcounts
  have hdistinct := distinguished_of_prefix (hcons ▸ hinjective)
  rw [requests_snoc_admission] at hdistinct
  obtain ⟨admission, hrun, hhistory, hdecides, hfirst⟩ := hbefore.admission hdistinct hcounts.at_step
  rw [hcons] at hinjective hcounts ⊢
  have hlast := history ((first ++ [.admission request]) ++ rest) [] (by rwa [List.append_nil])
    (by rwa [List.append_nil])
  exact ⟨admission, hrun, hdecides, hfirst, (remembers_after _ rest hinjective hcounts).bound
    hhistory.toRequestInv hlast.toRequestInv⟩

instance (events : List AdmissionEvent) : Decidable (CountsOn config appliedAtUnixS events) :=
  inferInstanceAs (Decidable (Run.EveryStep _ (fun (s : Store) _ => ∀ entry ∈ s.dedup,
    entry.replayCount < i64Max ∧ entry.conflictCount < i64Max) _ _))

end

open SampleService

/-- The connect request of the client, carried by another event. -/
def carriedAgain : SignerRequest := { firstConnect with eventId := 7, operationNonce := 7 }

/-- The second delivery of a request is decided by the first one. -/
theorem second_delivery_decided :
    CollisionFree ((requests ([.admission firstConnect] ++ [.admission carriedAgain])).flatMap
        SignerRequest.hashed) ∧
      CountsOn config 1 ([.admission firstConnect] ++ [.admission carriedAgain]) ∧
      ∃ admission, (admitSignerRequest config carriedAgain).run
          (after config 1 [.admission firstConnect]) =
          .ok (admission, after config 1 ([.admission firstConnect] ++ [.admission carriedAgain])) ∧
        AdmissionDecides (after config 1 [.admission firstConnect]) carriedAgain admission
          (after config 1 ([.admission firstConnect] ++ [.admission carriedAgain])) := by
  have hinjective : CollisionFree ((requests ([.admission firstConnect] ++
      [.admission carriedAgain])).flatMap SignerRequest.hashed) := by decide +kernel
  have hcounts : CountsOn config 1 ([.admission firstConnect] ++ [.admission carriedAgain]) := by
    decide +kernel
  obtain ⟨admission, hrun, hdecides, -, -⟩ :=
    deduplication_exact config 1 [.admission firstConnect] carriedAgain [] hinjective hcounts
  exact ⟨hinjective, hcounts, admission, hrun, hdecides⟩

end AdmissionEvent

end MycSigner
