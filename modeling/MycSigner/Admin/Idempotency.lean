import MycSigner.Admin.Runs
import MycSigner.Sessions.SoleSession

/-!
# Bounded idempotency

In every state that calls of the journal reach both bounds hold, so that a prepared operation
always finds a slot for its completion; a stored operation answers an equal request with its
response and refuses every other one; and the effect of an operation is committed once.
-/

namespace MycSigner.Admin

open Transaction

variable {models : ResponseModels}

/-! ## Equal requests -/

/-- The requests agree in everything that the digest binds. -/
structure SameRequest (left right : RequestDocument) : Prop where
  route : left.route = right.route
  parameter : left.parameter = right.parameter
  model : left.modelBytes = right.modelBytes

/-- On one route the byte string behind the digest determines the request. -/
theorem RequestDocument.hashed_injective {left right : RequestDocument}
    (hroute : left.route = right.route) (h : left.hashed = right.hashed) :
    SameRequest left right := by
  unfold RequestDocument.hashed at h
  rw [hroute] at h
  simp only [List.append_assoc] at h
  have h := List.append_cancel_left (List.append_cancel_left h)
  have hsized := left.parameter_sized
  have hsized' := right.parameter_sized
  cases hleft : left.parameter with
  | none =>
      cases hright : right.parameter with
      | none =>
          simp only [hleft, hright] at h
          exact ⟨hroute, hleft.trans hright.symm,
            lengthPrefixed_injective (List.append_cancel_left h)⟩
      | some pair => simp [hleft, hright] at h
  | some pair =>
      obtain ⟨name, value⟩ := pair
      cases hright : right.parameter with
      | none => simp [hleft, hright] at h
      | some pair =>
          obtain ⟨name', value'⟩ := pair
          simp only [hleft, hright, List.append_assoc] at h
          have h := List.append_cancel_left h
          obtain ⟨hname, hvalue⟩ := hsized name value hleft
          obtain ⟨hname', hvalue'⟩ := hsized' name' value' hright
          obtain ⟨hnames, hrest⟩ := lengthPrefixed_append_injective hname hname' h
          obtain ⟨hvalues, hmodel⟩ := lengthPrefixed_append_injective hvalue hvalue' hrest
          refine ⟨hroute, ?_, lengthPrefixed_injective hmodel⟩
          rw [hleft, hright, hnames, hvalues]

theorem SameRequest.digest {left right : RequestDocument} (h : SameRequest left right) :
    requestDigest left = requestDigest right := by
  unfold requestDigest RequestDocument.hashed
  rw [h.route, h.parameter, h.model]

/-! ## Answers of a stored operation -/

/-- An operation that is still in force at a time: prepared, or within its retention. -/
def OperationRow.InForce (row : OperationRow) (observedAt : OperationTime) : Prop :=
  ∀ completion, row.completion = some completion → observedAt.get < completion.expiresAt.get

/-- A request under the operation ID of a row. -/
structure Names (request : RequestDocument) (binding : RequestBinding) (row : OperationRow) :
    Prop where
  document : RequestBinding.fromDocument request = .ok binding
  operationId : binding.operationId = row.operationId

section

variable {s : AdminStore} {row : OperationRow} {first request : RequestDocument}
  {binding : RequestBinding} {observedAt : OperationTime} {completion : Completion}

theorem not_expired (h : row.InForce observedAt) : row.expiredBy observedAt = false := by
  cases hcompletion : row.completion with
  | none => simp [OperationRow.expiredBy, hcompletion]
  | some completion =>
      have hlater := h completion hcompletion
      simp only [OperationRow.expiredBy, hcompletion, Option.any_some, decide_eq_false_iff_not]
      omega

theorem JournalInv.lookup_inForce (inv : JournalInv models s) (hrow : row ∈ s.operations)
    (h : row.InForce observedAt) (hnames : Names request binding row) :
    (s.pruned observedAt).lookup binding.operationId = some row :=
  (inv.pruned observedAt).lookup_eq_some.mpr
    ⟨mem_pruned.mpr ⟨hrow, not_expired h⟩, hnames.operationId.symm⟩

/-- The answer of a stored operation, decided by the digest of the request. -/
theorem JournalInv.prepare_inForce (inv : JournalInv models s) (hrow : row ∈ s.operations)
    (h : row.InForce observedAt) (hnames : Names request binding row) :
    (prepareOperation models binding observedAt).run s =
      (answerStored models binding row).map fun answer => (answer, s.pruned observedAt) :=
  inv.prepare_known (inv.lookup_inForce hrow h hnames)

theorem WrittenFor.matches (hwritten : WrittenFor row first) (hsame : SameRequest first request)
    (hnames : Names request binding row) :
    row.route = binding.route ∧ row.requestSha256 = binding.requestSha256 := by
  obtain ⟨-, hroute, hdigest, -⟩ := fromDocument_eq_ok hnames.document
  exact ⟨hwritten.route.trans (hsame.route.trans hroute.symm),
    hwritten.digest.trans (hsame.digest.trans hdigest.symm)⟩

theorem WrittenFor.differs (hwritten : WrittenFor row first)
    (hinjective : CollisionFree [first.hashed, request.hashed])
    (hother : ¬ SameRequest first request) (hnames : Names request binding row) :
    ¬ (row.route = binding.route ∧ row.requestSha256 = binding.requestSha256) := by
  rintro ⟨hroute, hsha⟩
  obtain ⟨-, hroute', hdigest, -⟩ := fromDocument_eq_ok hnames.document
  have hequal : requestDigest first = requestDigest request :=
    hwritten.digest.symm.trans (hsha.trans hdigest)
  exact hother (RequestDocument.hashed_injective
    (hwritten.route.symm.trans (hroute.trans hroute'))
    (hinjective _ (.head _) _ (.tail _ (.head _)) hequal))

theorem answerStored_matching (hmatch : row.route = binding.route ∧
    row.requestSha256 = binding.requestSha256) (hsound : RowSound models row)
    (hcompletion : row.completion = some completion) :
    ∃ response : ResponseDocument models, response.route = row.route ∧
      response.canonicalBytes = completion.responseModel ∧
      answerStored models binding row = .ok (.exactReplay response) := by
  obtain ⟨hdigest, hadmitted⟩ := hsound.replayable completion hcompletion
  refine ⟨⟨row.route, completion.responseModel, hadmitted⟩, rfl, rfl, ?_⟩
  refine Except.bind_eq_ok_iff.mpr ⟨(), Except.require_eq_ok.mpr hmatch, ?_⟩
  simp only [hcompletion]
  refine Except.bind_eq_ok_iff.mpr ⟨(), Except.require_eq_ok.mpr hdigest.symm, ?_⟩
  exact Except.bind_eq_ok_iff.mpr ⟨_, Except.ofOption_eq_ok.mpr (dif_pos hadmitted), rfl⟩

theorem answerStored_prepared (hmatch : row.route = binding.route ∧
    row.requestSha256 = binding.requestSha256) (hcompletion : row.completion = none) :
    answerStored models binding row = .error .outcomeUnknown := by
  simp [answerStored, hcompletion, Except.require, hmatch, bind, Except.bind]

theorem answerStored_other (hother : ¬ (row.route = binding.route ∧
    row.requestSha256 = binding.requestSha256)) :
    answerStored models binding row = .error .conflict := by
  simp [answerStored, Except.require, hother, bind, Except.bind]

end

/-- How a row in force answers the requests under its operation ID. -/
structure Answers (models : ResponseModels) (s : AdminStore) (row : OperationRow)
    (first : RequestDocument) : Prop where
  /-- A completed operation replays its response to an equal request. -/
  replays : ∀ request binding observedAt completion, Names request binding row →
    row.completion = some completion → observedAt.get < completion.expiresAt.get →
    SameRequest first request → ∃ response : ResponseDocument models,
      response.route = row.route ∧ response.canonicalBytes = completion.responseModel ∧
      (prepareOperation models binding observedAt).run s =
        .ok (.exactReplay response, s.pruned observedAt)
  /-- A prepared operation has no outcome yet. -/
  unresolved : ∀ request binding observedAt, Names request binding row → row.completion = none →
    SameRequest first request →
    (prepareOperation models binding observedAt).run s = .error .outcomeUnknown
  /-- Any other request under the ID is refused. -/
  conflicts : ∀ request binding observedAt, Names request binding row →
    row.InForce observedAt → CollisionFree [first.hashed, request.hashed] →
    ¬ SameRequest first request →
    (prepareOperation models binding observedAt).run s = .error .conflict
  /-- Executing a database operation under the ID runs no effect. -/
  unexecuted : ∀ config request binding completedAt policy (operation : Effect models),
    Names request binding row → row.InForce completedAt →
    (Call.execute config request completedAt policy operation).committed s = none

theorem JournalInv.answers {s : AdminStore} {row : OperationRow} {first : RequestDocument}
    (inv : JournalInv models s) (hrow : row ∈ s.operations) (hwritten : WrittenFor row first) :
    Answers models s row first where
  replays := by
    intro request binding observedAt completion hnames hcompletion hlater hsame
    have hforce : row.InForce observedAt := by
      intro other hother
      rw [hcompletion] at hother
      cases hother
      exact hlater
    obtain ⟨response, hroute, hbytes, hanswer⟩ := answerStored_matching
      (hwritten.matches hsame hnames) (inv.sound row hrow) hcompletion
    refine ⟨response, hroute, hbytes, ?_⟩
    rw [inv.prepare_inForce hrow hforce hnames, hanswer]
    rfl
  unresolved := by
    intro request binding observedAt hnames hcompletion hsame
    have hforce : row.InForce observedAt := by
      intro other hother
      rw [hcompletion] at hother
      cases hother
    rw [inv.prepare_inForce hrow hforce hnames,
      answerStored_prepared (hwritten.matches hsame hnames) hcompletion]
    rfl
  conflicts := by
    intro request binding observedAt hnames hforce hinjective hother
    rw [inv.prepare_inForce hrow hforce hnames,
      answerStored_other (hwritten.differs hinjective hother hnames)]
    rfl
  unexecuted := by
    intro config request binding completedAt policy operation hnames hforce
    have hprepare := inv.prepare_inForce hrow hforce hnames
    cases hrun : (executeDatabaseAdminOperation config request completedAt policy
        operation).run s with
    | error e => simp only [Call.committed, hnames.document, hrun]
    | ok result =>
        cases hanswer : answerStored models binding row with
        | error e =>
            rw [hanswer] at hprepare
            simp only [Call.committed, hnames.document, hrun, hprepare, Except.map]
        | ok answer =>
            obtain ⟨response, rfl⟩ := answerStored_eq_ok hanswer
            rw [hanswer] at hprepare
            simp only [Call.committed, hnames.document, hrun, hprepare, Except.map]

/-- In every state that the calls reach, with any operation IDs, times and lost tokens: the
bounds hold, no completion is refused for want of space, every stored operation answers for
itself, and between two commits of one operation's effect the operation was pruned, as long as
no completion of a database operation repeats one that is recorded. -/
theorem journal_bounded_and_exact (models : ResponseModels) (store : Store)
    (calls : List (Call models)) :
    let s := Call.after store calls
    (readCounts s).2 ≤ preparedLimit ∧ (readCounts s).1 + (readCounts s).2 ≤ completedLimit ∧
      (∀ token response completedAt expiresAt,
        (completeOperation token response completedAt expiresAt).run s ≠
          .error .resourceExhausted) ∧
      (∀ row ∈ s.operations, ∃ first ∈ Call.requests calls, WrittenFor row first ∧
        Answers models s row first) ∧
      ∀ before first between later operationId,
        calls = (before ++ first :: between) ++ [later] →
        first.committed (Call.after store before) = some operationId →
        later.committed (Call.after store (before ++ first :: between)) = some operationId →
        Run.EveryStep Call.perform (fun s call => call.CompletesOnce s) ⟨store, []⟩ calls →
        ¬ Run.EveryStep Call.perform (fun s call => ¬ call.Prunes s operationId)
          (Call.after store (before ++ [first])) (between ++ [later]) := by
  have inv := journalInv_after store calls
  refine ⟨inv.prepared_few, ?_, fun _ _ _ _ => inv.complete_not_exhausted, ?_, ?_⟩
  · rw [completed_add_prepared]
    exact inv.few
  · intro row hrow
    obtain ⟨first, hfirst, hwritten⟩ := written_after store calls row hrow
    exact ⟨first, hfirst, hwritten, inv.answers hrow hwritten⟩
  · rintro before first between later operationId rfl hfirst hlater honce
    have hafter : Call.after store (before ++ [first]) =
        first.perform (Call.after store before) := Run.after_append ..
    have hbetween : Call.after store (before ++ first :: between) =
        Run.after Call.perform (first.perform (Call.after store before)) between :=
      Run.after_append ..
    rw [hafter]
    rw [hbetween] at hlater
    refine (journalInv_after store before).pruned_between hfirst hlater ?_
    rw [← hbetween]
    exact honce.at_step

/-! ## Publications that are committed twice -/

namespace SampleJournal

/-- The receipt of a publication. -/
def receiptBytes : Bytes :=
  ascii ("\x7b\"exact_bytes_digest\":" ++
    "\"1111111111111111111111111111111111111111111111111111111111111111\"," ++
    "\"generation\":1,\"operation_id\":\"publish-1\",\"target_count\":1,\"workflow_id\":" ++
    "\"2222222222222222222222222222222222222222222222222222222222222222\"\x7d")

def receipts : ResponseModels :=
  ⟨fun route bytes => route == .discoveryPublish && bytes == receiptBytes⟩

def receipt : ResponseDocument receipts := ⟨.discoveryPublish, receiptBytes, by decide +kernel⟩

/-- A request of a mutation without a parameter. -/
def request (route : Route) (operationId model : String)
    (sized : (ascii model).length < 2 ^ 64) : RequestDocument where
  route := route
  operationId := some (ascii operationId)
  parameter := none
  modelBytes := ascii model
  parameter_sized := nofun
  model_sized := sized

def publish : RequestDocument :=
  request .discoveryPublish "publish-1"
    "\x7b\"confirmation\":\"confirm\",\"expected_generation\":1\x7d" (by decide +kernel)

def publishId : OperationId := ⟨ascii "publish-1", by decide +kernel⟩

def time (ms : ℕ) : OperationTime := ⟨min ms i64Max, Nat.min_le_right _ _⟩

def sevenDays : JournalPolicy := ⟨604800000, by decide⟩

def token : PreparedOperation :=
  ⟨publishId, .discoveryPublish, requestDigest publish, time 1000⟩

/-- An effect that can be counted. -/
def advances : Effect receipts := fun s =>
  .ok (receipt, { s with nextAuditSequence := s.nextAuditSequence + 1 })

def store : Store := Store.initial SampleService.config.metadata 1

def prepares : Call receipts := .prepare SampleService.config publish (time 1000)

def completes : Call receipts :=
  .completePrepared SampleService.config token (time 2000) sevenDays advances

/-- The publication as a database operation. -/
def executes (completedAt : OperationTime) : Call receipts :=
  .execute SampleService.config publish completedAt sevenDays advances

/-- One evaluation of the publication: executed again after a week, and completed twice. -/
theorem publication_evaluates :
    ((executes (time 2000)).committed (Call.after store ([] : List (Call receipts))) =
          some publishId ∧
        (executes (time 604802001)).committed (Call.after store [executes (time 2000)]) =
          some publishId) ∧
      completes.committed (Call.after store [prepares]) = some publishId ∧
      completes.committed (Call.after store ([prepares] ++ [completes])) = some publishId ∧
      (Call.after store [prepares, completes, completes]).store.nextAuditSequence = 2 := by
  decide +kernel

end SampleJournal

open SampleJournal in
/-- An operation that is executed again after a week was pruned in between. -/
theorem executed_again_after_pruning :
    let before := Call.after store [executes (time 2000)]
    (executes (time 2000)).committed (Call.after store ([] : List (Call receipts))) = some publishId ∧
      (executes (time 604802001)).committed before = some publishId ∧
      ¬ Run.EveryStep Call.perform (fun s call => ¬ call.Prunes s publishId) before
        [executes (time 604802001)] := by
  obtain ⟨⟨hfirst, hlater⟩, -⟩ := publication_evaluates
  obtain ⟨-, -, -, -, hpruned⟩ := journal_bounded_and_exact receipts store
    [executes (time 2000), executes (time 604802001)]
  exact ⟨hfirst, hlater, hpruned [] _ [] _ publishId rfl hfirst hlater ⟨trivial, trivial, trivial⟩⟩

open SampleJournal in
/-- The token of a prepared operation, used twice, commits its effect twice. -/
theorem prepared_effect_committed_twice :
    completes.committed (Call.after store [prepares]) = some publishId ∧
      completes.committed (Call.after store ([prepares] ++ [completes])) = some publishId ∧
      (Call.after store [prepares, completes, completes]).store.nextAuditSequence = 2 ∧
      Run.EveryStep Call.perform (fun s call => ¬ call.Prunes s publishId)
        (Call.after store ([prepares] ++ [completes])) ([] ++ [completes]) := by
  obtain ⟨-, hfirst, hagain, haudited⟩ := publication_evaluates
  refine ⟨hfirst, hagain, haudited, ?_, trivial⟩
  rintro ⟨_, hnever, -⟩
  cases hnever

end MycSigner.Admin
