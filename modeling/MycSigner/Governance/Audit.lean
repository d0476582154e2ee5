import MycSigner.Governance

/-!
# The audit trail

Records are numbered in the order in which they are written, and a record's identity is
derived from its correlation and its kind.  A record of a request-bound kind has one link to
its request, whose correlation it carries; the other kinds have none.  So every stored record
is readable, and an operation can record itself unless its correlation has done so already.
-/

namespace MycSigner

open Transaction

/-! ## Recording -/

/-- The record of an operation, with the next sequence. -/
def Store.nextAudit (s : Store) (evidence : AuditEvidence) (kind : AuditKind)
    (outcome : AuditOutcome) (reason : AuditReason) : AuditRow where
  auditSequence := s.nextAuditSequence + 1
  auditId := deriveAuditId evidence.correlation kind
  correlationId := evidence.correlation
  auditKind := kind
  outcome := outcome
  reasonCode := reason
  occurredAt := evidence.occurredAt

/-- The link of a record to its request. -/
def Store.nextLink (s : Store) (kind : AuditKind) (operationId : Id32) : RequestAuditRow where
  operationId := operationId
  auditKind := kind
  auditSequence := s.nextAuditSequence + 1

/-- The store with one more record. -/
def Store.recorded (s : Store) (evidence : AuditEvidence) (kind : AuditKind)
    (outcome : AuditOutcome) (reason : AuditReason) : Store :=
  { s with
    nextAuditSequence := s.nextAuditSequence + 1
    audit := s.audit ++ [s.nextAudit evidence kind outcome reason]
    requestAudit := s.requestAudit ++ (evidence.operationId.map (s.nextLink kind)).toList }

/-- The constraints on one more record. -/
structure Recordable (s : Store) (evidence : AuditEvidence) (kind : AuditKind)
    (outcome : AuditOutcome) (reason : AuditReason) : Prop where
  room : s.nextAuditSequence + 1 ≤ i64Max
  audit : auditInsertAllowed s (s.nextAudit evidence kind outcome reason) = true
  link : ∀ operationId, evidence.operationId = some operationId →
    requestAuditInsertAllowed
      { s with audit := s.audit ++ [s.nextAudit evidence kind outcome reason] }
      (s.nextLink kind operationId) = true

section
variable {s s' : Store} {evidence : AuditEvidence} {kind : AuditKind} {outcome : AuditOutcome}
  {reason : AuditReason} {u : Unit}

/-- A correlation that left no record of the kind records itself. -/
theorem run_recordAudit_fresh
    (hnone : readAuditById s (deriveAuditId evidence.correlation kind) = .ok none) :
    (recordAudit evidence kind outcome reason).run s = .ok (u, s') ↔
      Recordable s evidence kind outcome reason ∧ s' = s.recorded evidence kind outcome reason := by
  unfold recordAudit advanceAuditState
  rw [run_query_bind_eq_ok]
  constructor
  · rintro ⟨existing, hexisting, h⟩
    rw [hnone] at hexisting
    cases hexisting
    obtain ⟨sequence, s₁, hadvance, h⟩ := run_bind_eq_ok.mp h
    obtain ⟨current, hcurrent, hadvance⟩ := run_query_bind_eq_ok.mp hadvance
    cases hcurrent
    obtain ⟨hroom, hadvance⟩ := run_require_bind_eq_ok.mp hadvance
    obtain ⟨_, s₂, hmodify, hadvance⟩ := run_bind_eq_ok.mp hadvance
    cases run_modify_eq_ok.mp hmodify
    obtain ⟨rfl, rfl⟩ := run_pure_eq_ok.mp hadvance
    obtain ⟨_, s₃, hinsert, hlink⟩ := run_bind_eq_ok.mp h
    obtain ⟨hallowed, rfl⟩ := auditTable.run_insert_eq_ok.mp hinsert
    obtain ⟨correlation, occurredAt, operationId⟩ := evidence
    cases operationId with
    | none =>
        obtain ⟨-, rfl⟩ := run_pure_eq_ok.mp hlink
        exact ⟨⟨hroom, hallowed, fun _ h => by cases h⟩, by simp [Store.recorded, Store.nextAudit, auditTable]⟩
    | some operationId =>
        obtain ⟨hlinked, rfl⟩ := requestAuditTable.run_insert_eq_ok.mp hlink
        refine ⟨⟨hroom, hallowed, ?_⟩, rfl⟩
        rintro _ ⟨⟩
        exact hlinked
  · rintro ⟨⟨hroom, hallowed, hlink⟩, rfl⟩
    refine ⟨none, hnone, run_bind_eq_ok.mpr ⟨s.nextAuditSequence + 1,
      { s with nextAuditSequence := s.nextAuditSequence + 1 }, ?_, ?_⟩⟩
    · exact run_query_bind_eq_ok.mpr ⟨_, rfl, run_require_bind_eq_ok.mpr ⟨hroom, rfl⟩⟩
    · refine run_bind_eq_ok.mpr ⟨(), _, auditTable.run_insert_eq_ok.mpr ⟨hallowed, rfl⟩, ?_⟩
      obtain ⟨correlation, occurredAt, operationId⟩ := evidence
      cases operationId with
      | none =>
          refine run_pure_eq_ok.mpr ⟨rfl, ?_⟩
          simp [Store.recorded, Store.nextAudit, auditTable]
      | some operationId =>
          exact requestAuditTable.run_insert_eq_ok.mpr ⟨hlink operationId rfl, rfl⟩

/-- What recording leaves behind: a record that was there, or one more. -/
theorem recordAudit_cases (h : (recordAudit evidence kind outcome reason).run s = .ok (u, s')) :
    s' = s ∨ (readAuditById s (deriveAuditId evidence.correlation kind) = .ok none ∧
      Recordable s evidence kind outcome reason ∧ s' = s.recorded evidence kind outcome reason) := by
  have hrun := h
  unfold recordAudit at h
  obtain ⟨existing, hexisting, h⟩ := run_query_bind_eq_ok.mp h
  cases existing with
  | some record =>
      obtain ⟨-, rfl⟩ := run_require_eq_ok.mp h
      exact .inl rfl
  | none => exact .inr ⟨hexisting, (run_recordAudit_fresh hexisting).mp hrun⟩

end

/-! ## Reading -/

theorem auditMatches_eq_nil {s : Store} {auditId : Id32} :
    auditMatches s auditId = [] ↔ ∀ row ∈ s.audit, row.auditId ≠ auditId := by
  unfold auditMatches
  rw [List.flatMap_eq_nil_iff]
  constructor
  · intro h row hrow hid
    have hmem : row ∈ s.audit.filter fun row => row.auditId = auditId :=
      List.mem_filter.mpr ⟨hrow, by simpa using hid⟩
    have := h row hmem
    split at this
    next => cases this
    next links hlinks =>
      rw [List.flatMap_eq_nil_iff] at this
      cases hcons : s.requestAudit.filter fun link => link.auditSequence = row.auditSequence with
      | nil => exact hlinks hcons
      | cons link rest =>
          have hlink := this link (by rw [hcons]; exact List.mem_cons_self ..)
          split at hlink
          next => cases hlink
          next requests hrequests =>
            rw [List.map_eq_nil_iff] at hlink
            exact hrequests hlink
  · intro h row hrow
    rw [List.mem_filter, decide_eq_true_eq] at hrow
    exact absurd hrow.2 (h row hrow.1)

theorem readAuditById_eq_none {s : Store} {auditId : Id32} :
    readAuditById s auditId = .ok none ↔ ∀ row ∈ s.audit, row.auditId ≠ auditId := by
  rw [← auditMatches_eq_nil]
  unfold readAuditById
  split
  next h => simp [h]
  next found h =>
    rw [h]
    cases decodeAudit found <;> simp [Except.map]
  next first second rest h => simp [h]

/-- One more record does not change what is read of another. -/
theorem readAuditById_recorded_of_ne {s : Store} {evidence : AuditEvidence} {kind : AuditKind}
    {outcome : AuditOutcome} {reason : AuditReason}
    (hrecordable : Recordable s evidence kind outcome reason) {auditId : Id32}
    (hne : auditId ≠ deriveAuditId evidence.correlation kind) :
    readAuditById (s.recorded evidence kind outcome reason) auditId = readAuditById s auditId := by
  have hallowed := hrecordable.audit
  unfold auditInsertAllowed at hallowed
  simp only [Bool.and_eq_true, List.all_eq_true] at hallowed
  have hmatches : auditMatches (s.recorded evidence kind outcome reason) auditId =
      auditMatches s auditId := by
    have hfilter : ((s.recorded evidence kind outcome reason).audit.filter
        fun row => decide (row.auditId = auditId)) =
        s.audit.filter fun row => decide (row.auditId = auditId) := by
      simp [Store.recorded, Store.nextAudit, List.filter_append, Ne.symm hne]
    unfold auditMatches
    rw [hfilter]
    refine List.flatMap_congr fun row hrow => ?_
    have hsequence : row.auditSequence ≠ s.nextAuditSequence + 1 := by
      have := ((hallowed.2 row (List.mem_filter.mp hrow).1).1).1
      simpa [Store.nextAudit] using this
    have hlinks : ((s.recorded evidence kind outcome reason).requestAudit.filter
        fun link => decide (link.auditSequence = row.auditSequence)) =
        s.requestAudit.filter fun link => decide (link.auditSequence = row.auditSequence) := by
      cases evidence.operationId <;>
        simp [Store.recorded, Store.nextLink, List.filter_append, Ne.symm hsequence]
    rw [hlinks]
    rfl
  unfold readAuditById
  rw [hmatches]

/-- The record of a row and its link. -/
def AuditRow.record (row : AuditRow) (operationId : Option Id32) : AuditRecord where
  sequence := row.auditSequence
  correlationId := row.correlationId
  operationId := operationId
  kind := row.auditKind
  outcome := row.outcome
  reason := row.reasonCode
  occurredAt := row.occurredAt

/-- What a request's operation recorded is readable. -/
theorem Recordable.readable {s : Store} {evidence : AuditEvidence} {kind : AuditKind}
    {outcome : AuditOutcome} {reason : AuditReason}
    (hrecordable : Recordable s evidence kind outcome reason)
    (hnone : readAuditById s (deriveAuditId evidence.correlation kind) = .ok none)
    {operationId : Id32} {request : RequestRow}
    (hoperation : evidence.operationId = some operationId)
    (hrequest : (s.requests.filter fun row => row.operationId = operationId) = [request])
    (hcorrelation : request.correlationId = evidence.correlation) :
    readAuditById (s.recorded evidence kind outcome reason)
      (deriveAuditId evidence.correlation kind) =
        .ok (some ((s.nextAudit evidence kind outcome reason).record (some operationId))) := by
  have hlink := hrecordable.link operationId hoperation
  unfold requestAuditInsertAllowed at hlink
  simp only [Bool.and_eq_true, List.all_eq_true] at hlink
  obtain ⟨⟨⟨hbound, -⟩, -⟩, hothers⟩ := hlink
  have hfilter : ((s.recorded evidence kind outcome reason).audit.filter
      fun row => decide (row.auditId = deriveAuditId evidence.correlation kind)) =
      [s.nextAudit evidence kind outcome reason] := by
    have hnil : (s.audit.filter
        fun row => decide (row.auditId = deriveAuditId evidence.correlation kind)) = [] := by
      rw [List.filter_eq_nil_iff]
      intro row hrow
      simpa using readAuditById_eq_none.mp hnone row hrow
    simp [Store.recorded, List.filter_append, hnil, Store.nextAudit]
  have hlinks : ((s.recorded evidence kind outcome reason).requestAudit.filter
      fun link => decide (link.auditSequence = s.nextAuditSequence + 1)) =
      [s.nextLink kind operationId] := by
    have hnil : (s.requestAudit.filter
        fun link => decide (link.auditSequence = s.nextAuditSequence + 1)) = [] := by
      rw [List.filter_eq_nil_iff]
      intro link hmem
      have := (hothers link hmem).1
      simpa [Store.nextLink] using this
    simp [Store.recorded, List.filter_append, hnil, hoperation, Store.nextLink]
  have hmatches : auditMatches (s.recorded evidence kind outcome reason)
      (deriveAuditId evidence.correlation kind) =
      [⟨s.nextAudit evidence kind outcome reason, some (s.nextLink kind operationId),
        some request⟩] := by
    have hrequests : (s.recorded evidence kind outcome reason).requests = s.requests := rfl
    have hsequence : (s.nextAudit evidence kind outcome reason).auditSequence =
        s.nextAuditSequence + 1 := rfl
    have hid : (s.nextLink kind operationId).operationId = operationId := rfl
    simp [auditMatches, hfilter, hsequence, hlinks, hrequests, hid, hrequest]
  unfold readAuditById
  rw [hmatches]
  have hkind : kind.requestBound = true := hbound
  simp [decodeAudit, AuditRow.record, Store.nextAudit, Store.nextLink, hkind, hcorrelation,
    Except.require, Except.map, bind, Except.bind]

/-- The trail of a store in good order. -/
structure AuditInv (s : Store) : Prop where
  requests : Table.Unique RequestRow.operationId s.requests
  numbered : ∀ row ∈ s.audit, row.auditSequence ≤ s.nextAuditSequence
  sequences : Table.Unique AuditRow.auditSequence s.audit
  ids : Table.Unique AuditRow.auditId s.audit
  identified : ∀ row ∈ s.audit, row.auditId = deriveAuditId row.correlationId row.auditKind
  linkSequences : Table.Unique RequestAuditRow.auditSequence s.requestAudit
  links : ∀ link ∈ s.requestAudit, ∃ row ∈ s.audit, row.auditSequence = link.auditSequence ∧
    row.auditKind = link.auditKind ∧ row.auditKind.requestBound = true ∧
    ∃ request ∈ s.requests, request.operationId = link.operationId ∧
      request.correlationId = row.correlationId
  bound : ∀ row ∈ s.audit, row.auditKind.requestBound = true →
    ∃ link ∈ s.requestAudit, link.auditSequence = row.auditSequence

/-- The request that a record is linked to. -/
def Store.linkOf (s : Store) (row : AuditRow) : Option Id32 :=
  (s.requestAudit.find? fun link => link.auditSequence = row.auditSequence).map
    RequestAuditRow.operationId

namespace AuditInv

variable {s : Store} {row : AuditRow}

/-- A link of a record names a request with the record's correlation. -/
theorem of_link (inv : AuditInv s) (hrow : row ∈ s.audit) {link : RequestAuditRow}
    (hlink : link ∈ s.requestAudit) (hsequence : link.auditSequence = row.auditSequence) :
    link.auditKind = row.auditKind ∧ row.auditKind.requestBound = true ∧
      ∃ request ∈ s.requests, request.operationId = link.operationId ∧
        request.correlationId = row.correlationId := by
  obtain ⟨row', hrow', hsequence', hkind, hbound, hrequest⟩ := inv.links link hlink
  obtain rfl := inv.sequences.eq_of_key_eq hrow' hrow (hsequence'.trans hsequence)
  exact ⟨hkind.symm, hbound, hrequest⟩

theorem filter_links_of_bound (inv : AuditInv s) (hrow : row ∈ s.audit)
    (hbound : row.auditKind.requestBound = true) :
    ∃ link ∈ s.requestAudit, link.auditSequence = row.auditSequence ∧
      (s.requestAudit.filter fun other => other.auditSequence = row.auditSequence) = [link] := by
  obtain ⟨link, hlink, hsequence⟩ := inv.bound row hrow hbound
  have hfilter := inv.linkSequences.filter_eq_singleton hlink
  rw [hsequence] at hfilter
  exact ⟨link, hlink, hsequence, hfilter⟩

theorem filter_links_of_unbound (inv : AuditInv s) (hrow : row ∈ s.audit)
    (hunbound : row.auditKind.requestBound = false) :
    (s.requestAudit.filter fun other => other.auditSequence = row.auditSequence) = [] := by
  rw [List.filter_eq_nil_iff]
  intro link hlink hsequence
  obtain ⟨-, hbound, -⟩ := inv.of_link hrow hlink (by simpa using hsequence)
  rw [hunbound] at hbound
  cases hbound

/-- Every stored record is readable. -/
theorem readable (inv : AuditInv s) (hrow : row ∈ s.audit) :
    readAuditById s row.auditId = .ok (some (row.record (s.linkOf row))) := by
  have haudit : (s.audit.filter fun other => other.auditId = row.auditId) = [row] :=
    inv.ids.filter_eq_singleton hrow
  cases hkind : row.auditKind.requestBound with
  | true =>
      obtain ⟨link, hlink, hsequence, hlinks⟩ := inv.filter_links_of_bound hrow hkind
      obtain ⟨hlinkKind, -, request, hrequest, hoperation, hcorrelation⟩ :=
        inv.of_link hrow hlink hsequence
      have hrequests := inv.requests.filter_eq_singleton hrequest
      rw [hoperation] at hrequests
      have hof : s.linkOf row = some link.operationId := by
        unfold Store.linkOf
        rw [← List.head?_filter, hlinks]
        rfl
      have hmatches : auditMatches s row.auditId = [⟨row, some link, some request⟩] := by
        simp [auditMatches, haudit, hlinks, hrequests]
      unfold readAuditById
      rw [hmatches, hof]
      simp [decodeAudit, hkind, hlinkKind, hcorrelation, AuditRow.record, Except.require,
        Except.map, bind, Except.bind]
  | false =>
      have hlinks := inv.filter_links_of_unbound hrow hkind
      have hof : s.linkOf row = none := by
        unfold Store.linkOf
        rw [← List.head?_filter, hlinks]
        rfl
      have hmatches : auditMatches s row.auditId = [⟨row, none, none⟩] := by
        simp [auditMatches, haudit, hlinks]
      unfold readAuditById
      rw [hmatches, hof]
      simp [decodeAudit, hkind, AuditRow.record, Except.require, Except.map, bind, Except.bind]

end AuditInv

/-! ## Keeping the trail in order -/

/-- Evidence of a request-bound kind names a request with its correlation, and that of the
other kinds names none. -/
def AuditEvidence.BoundIn (evidence : AuditEvidence) (s : Store) (kind : AuditKind) : Prop :=
  match evidence.operationId with
  | some operationId => kind.requestBound = true ∧ ∃ request ∈ s.requests,
      request.operationId = operationId ∧ request.correlationId = evidence.correlation
  | none => kind.requestBound = false

namespace AuditInv

variable {s : Store} {evidence : AuditEvidence} {kind : AuditKind} {outcome : AuditOutcome}
  {reason : AuditReason}

/-- No record has the correlation and the kind of an identity that is not stored. -/
theorem not_recorded (inv : AuditInv s)
    (hnone : readAuditById s (deriveAuditId evidence.correlation kind) = .ok none) :
    ∀ row ∈ s.audit, row.correlationId = evidence.correlation → row.auditKind ≠ kind := by
  intro row hrow hcorrelation hkind
  refine readAuditById_eq_none.mp hnone row hrow ?_
  rw [inv.identified row hrow, hcorrelation, hkind]

/-- Evidence in good order can be recorded while there is a sequence left. -/
theorem recordable (inv : AuditInv s) (hbound : evidence.BoundIn s kind)
    (hnone : readAuditById s (deriveAuditId evidence.correlation kind) = .ok none)
    (hroom : s.nextAuditSequence + 1 ≤ i64Max) : Recordable s evidence kind outcome reason where
  room := hroom
  audit := by
    unfold auditInsertAllowed
    simp only [Bool.and_eq_true, decide_eq_true_eq, List.all_eq_true]
    refine ⟨⟨Nat.le_add_left 1 _, hroom⟩, fun other hother => ?_⟩
    have hnumber := inv.numbered other hother
    have hid := readAuditById_eq_none.mp hnone other hother
    have hkind := inv.not_recorded hnone other hother
    refine ⟨⟨?_, ?_⟩, ?_⟩
    · have : other.auditSequence ≠ s.nextAuditSequence + 1 := by omega
      simpa [Store.nextAudit] using this
    · simpa [Store.nextAudit] using hid
    · simpa [Store.nextAudit, imp_iff_not_or] using hkind
  link := by
    intro operationId hoperation
    unfold AuditEvidence.BoundIn at hbound
    rw [hoperation] at hbound
    obtain ⟨hkindBound, request, hrequest, hrequestId, hcorrelation⟩ := hbound
    unfold requestAuditInsertAllowed
    simp only [Bool.and_eq_true, List.all_eq_true, List.any_eq_true]
    refine ⟨⟨⟨hkindBound, request, hrequest, ?_⟩, _, List.mem_append_right _
      (List.mem_singleton_self _), ?_⟩, fun other hother => ?_⟩
    · simpa [Store.nextLink] using hrequestId
    · simp [Store.nextAudit, Store.nextLink]
    · obtain ⟨row, hrow, hsequence, hkind, -, other', hother', hotherId, hotherCorrelation⟩ :=
        inv.links other hother
      have hnumber := inv.numbered row hrow
      have hne : other.auditSequence ≠ s.nextAuditSequence + 1 := by omega
      refine ⟨by simpa [Store.nextLink] using hne, ?_⟩
      simp only [Store.nextLink, Bool.not_eq_eq_eq_not, Bool.not_true, Bool.and_eq_false_imp,
        beq_iff_eq, beq_eq_false_iff_ne]
      intro hsame hsameKind
      -- a second record of the request would have its correlation
      obtain rfl := inv.requests.eq_of_key_eq hother' hrequest
        (hotherId.trans (hsame.trans hrequestId.symm))
      exact inv.not_recorded hnone row hrow (hotherCorrelation.symm.trans hcorrelation)
        (hkind.trans hsameKind)

/-- One more record leaves the trail in order. -/
theorem recorded (inv : AuditInv s) (hbound : evidence.BoundIn s kind)
    (hnone : readAuditById s (deriveAuditId evidence.correlation kind) = .ok none) :
    AuditInv (s.recorded evidence kind outcome reason) where
  requests := inv.requests
  numbered := by
    intro row hrow
    rcases List.mem_append.mp hrow with hrow | hrow
    · exact (inv.numbered row hrow).trans (Nat.le_succ _)
    · obtain rfl := List.mem_singleton.mp hrow
      exact Nat.le_refl _
  sequences := by
    refine inv.sequences.append_row fun row hrow => ?_
    have := inv.numbered row hrow
    have hne : row.auditSequence ≠ s.nextAuditSequence + 1 := by omega
    exact hne
  ids := inv.ids.append_row fun row hrow => readAuditById_eq_none.mp hnone row hrow
  identified := by
    intro row hrow
    rcases List.mem_append.mp hrow with hrow | hrow
    · exact inv.identified row hrow
    · obtain rfl := List.mem_singleton.mp hrow
      rfl
  linkSequences := by
    obtain ⟨correlation, occurredAt, operationId⟩ := evidence
    cases operationId with
    | none => simpa [Store.recorded] using inv.linkSequences
    | some operationId =>
        refine inv.linkSequences.append_row fun link hlink => ?_
        obtain ⟨row, hrow, hsequence, -⟩ := inv.links link hlink
        have := inv.numbered row hrow
        have hne : link.auditSequence ≠ s.nextAuditSequence + 1 := by omega
        exact hne
  links := by
    obtain ⟨correlation, occurredAt, operationId⟩ := evidence
    intro link hlink
    rcases List.mem_append.mp hlink with hlink | hlink
    · obtain ⟨row, hrow, hrest⟩ := inv.links link hlink
      exact ⟨row, List.mem_append_left _ hrow, hrest⟩
    · cases operationId with
      | none => cases hlink
      | some operationId =>
          obtain ⟨hkindBound, request, hrequest, hrequestId, hcorrelation⟩ := hbound
          obtain rfl := List.mem_singleton.mp hlink
          exact ⟨_, List.mem_append_right _ (List.mem_singleton_self _), rfl, rfl, hkindBound,
            request, hrequest, hrequestId, hcorrelation⟩
  bound := by
    obtain ⟨correlation, occurredAt, operationId⟩ := evidence
    intro row hrow hrowBound
    rcases List.mem_append.mp hrow with hrow | hrow
    · obtain ⟨link, hlink, hsequence⟩ := inv.bound row hrow hrowBound
      exact ⟨link, List.mem_append_left _ hlink, hsequence⟩
    · obtain rfl := List.mem_singleton.mp hrow
      cases operationId with
      | none =>
          change kind.requestBound = false at hbound
          change kind.requestBound = true at hrowBound
          rw [hbound] at hrowBound
          cases hrowBound
      | some operationId =>
          exact ⟨s.nextLink kind operationId, List.mem_append_right _ (List.mem_singleton_self _),
            rfl⟩

end AuditInv

end MycSigner
