import MycSigner.Providers.Verification

/-!
# The provider executor

One call of the executor: the provider of the operation's role computes or answers while time
passes, and what comes back is verified.  The time of the verification is an argument that
the caller samples before the call.  A local signer has a timeout of its own, which starts
with the call and comes from its limits; a keystore has none.  So the deadline of an
operation is kept only where that timeout keeps it.
-/

namespace MycSigner.Provider

inductive ExecutionError where
  | binding
  | operation
  | cancelled
  | transport
  | verification
deriving DecidableEq

/-- What one call meets outside the executor. -/
structure Call where
  /-- The runtime is cancelled when the call begins. -/
  alreadyCancelled : Bool
  /-- The runtime is cancelled before the provider is done. -/
  cancelled : Bool
  /-- When the provider begins. -/
  startedAt : ℕ
  /-- When its result is there. -/
  arrivedAt : ℕ
  /-- What the keys of a keystore compute, unless the computation fails. -/
  computed : Option WireResult
  /-- What a local signer answers, unless the transport fails. -/
  answered : Option WireResponse
  started_le : startedAt ≤ arrivedAt

/-- `execute_encrypted`: the identity of an opened keystore is the one its binding expects. -/
def executeEncrypted (binding : Binding) (operation : Operation) (call : Call) :
    Except ExecutionError WireResult := do
  Except.require (operation.provider = .encryptedFile ∧
    operation.expectedIdentity = binding.expectedIdentity) .binding
  Except.ofOption .operation call.computed

/-- `MycLocalSignerClient::execute`, with its timeout around permit and transport. -/
def executeLocalSigner (binding : Binding) (limits : LocalSignerLimits) (operation : Operation)
    (call : Call) : Except ExecutionError WireResponse := do
  Except.require (operation.provider = .localSigner ∧ operation.role = binding.role ∧
    operation.expectedIdentity = binding.expectedIdentity) .transport
  Except.require (call.arrivedAt ≤ call.startedAt + limits.requestDeadlineMs) .transport
  Except.ofOption .transport call.answered

/-- The one error of a failed verification. -/
def verifiedOr : Except VerificationError Verified → Except ExecutionError Verified
  | .ok verified => .ok verified
  | .error _ => .error .verification

/-- `MycProviderExecutor::execute`, over the bindings the executor opened. -/
def execute (library : Library) (contract : Contract) (operation : Operation)
    (observedAt : TimeUnixMs) (call : Call) : Except ExecutionError Verified := do
  let binding ← Except.ofOption .binding (contract.binding operation.role)
  Except.require (call.alreadyCancelled = false) .cancelled
  Except.require (call.cancelled = false) .cancelled
  match binding.location with
  | .encryptedFile => do
      let result ← executeEncrypted binding operation call
      verifiedOr (verifyEncryptedProviderResponse library binding operation observedAt result)
  | .localSigner limits => do
      let response ← executeLocalSigner binding limits operation call
      verifiedOr (verifyResponse library binding operation observedAt response)

/-! ## Issued operations -/

/-- An operation bound to the assignment of a role, with its deadline a timeout after `wall`. -/
def issueOperation (contract : Contract) (role : Role) (operationId correlationId : Id32)
    (wall timeoutMs : ℕ) (input : Input) : Option Operation := do
  let binding ← contract.binding role
  let deadline ← TimeUnixMs.new (wall + timeoutMs)
  Operation.new binding operationId correlationId deadline input

/-- An operation as it reaches the executor, with the time its result is verified at.
Dispatch decrypts a request, executes its work, and encrypts and signs its response; it reads
the clock for the deadline and again just before the call.  The discovery route signs a
handler event and uses one reading for both. -/
inductive Issued (contract : Contract) : Operation → TimeUnixMs → Prop where
  | dispatch {operation : Operation} {observedAt : TimeUnixMs} (role : Role)
      (operationId correlationId : Id32) (wall timeoutMs : ℕ) (input : ProviderInput)
      (hrole : role ≠ .discovery)
      (h : issueOperation contract role operationId correlationId wall timeoutMs (.request input) =
        some operation) :
      Issued contract operation observedAt
  | discovery {operation : Operation} {now : TimeUnixMs} (operationId correlationId : Id32)
      (timeoutMs : ℕ) (unsigned : Bytes)
      (h : issueOperation contract .discovery operationId correlationId now.get timeoutMs
        (.request (.signEvent unsigned)) = some operation) :
      Issued contract operation now

/-- A binding the contract assigns has the role it is assigned to. -/
theorem Contract.role_of_binding {contract : Contract} {role : Role} {binding : Binding}
    (h : contract.binding role = some binding) : binding.role = role := by
  have := List.find?_some h
  simpa using this

theorem issueOperation_eq_some {contract : Contract} {role : Role} {operationId correlationId : Id32}
    {wall timeoutMs : ℕ} {input : Input} {operation : Operation}
    (h : issueOperation contract role operationId correlationId wall timeoutMs input =
      some operation) :
    ∃ binding, contract.binding operation.role = some binding ∧
      BoundTo binding binding.kind operation := by
  unfold issueOperation Operation.new at h
  obtain ⟨binding, hbinding, h⟩ := Option.bind_eq_some_iff.mp h
  obtain ⟨deadline, -, h⟩ := Option.bind_eq_some_iff.mp h
  obtain ⟨_, hcapable, h⟩ := Option.bind_eq_some_iff.mp h
  cases h
  have hrole := Contract.role_of_binding hbinding
  subst hrole
  refine ⟨binding, hbinding, rfl, rfl, rfl, rfl, ?_⟩
  simpa using hcapable

/-- An issued operation is bound to the assignment the executor finds for it. -/
theorem Issued.bound {contract : Contract} {operation : Operation} {observedAt : TimeUnixMs}
    (issued : Issued contract operation observedAt) :
    ∃ binding, contract.binding operation.role = some binding ∧
      BoundTo binding binding.kind operation := by
  cases issued with
  | dispatch role operationId correlationId wall timeoutMs input hrole h =>
      exact issueOperation_eq_some h
  | discovery operationId correlationId timeoutMs unsigned h => exact issueOperation_eq_some h

/-! ## What a call returns -/

section
variable {library : Library} {contract : Contract} {operation : Operation}
  {observedAt : TimeUnixMs} {call : Call} {binding : Binding} {verified : Verified}

theorem executeEncrypted_eq_ok {result : WireResult}
    (hbound : BoundTo binding .encryptedFile operation) :
    executeEncrypted binding operation call = .ok result ↔ call.computed = some result := by
  have hidentity : operation.provider = .encryptedFile ∧
      operation.expectedIdentity = binding.expectedIdentity := ⟨hbound.2.1, hbound.2.2.2.1⟩
  unfold executeEncrypted
  simp only [Except.bind_eq_ok_iff, Except.require_eq_ok, Except.ofOption_eq_ok, exists_const]
  exact ⟨fun h => h.2, fun h => ⟨hidentity, h⟩⟩

theorem executeLocalSigner_eq_ok {limits : LocalSignerLimits} {response : WireResponse}
    (hbound : BoundTo binding .localSigner operation) :
    executeLocalSigner binding limits operation call = .ok response ↔
      call.arrivedAt ≤ call.startedAt + limits.requestDeadlineMs ∧
        call.answered = some response := by
  have hvalid : operation.provider = .localSigner ∧ operation.role = binding.role ∧
      operation.expectedIdentity = binding.expectedIdentity :=
    ⟨hbound.2.1, hbound.2.2.1, hbound.2.2.2.1⟩
  unfold executeLocalSigner
  simp only [Except.bind_eq_ok_iff, Except.require_eq_ok, Except.ofOption_eq_ok, exists_const]
  exact ⟨fun h => h.2, fun h => ⟨hvalid, h⟩⟩

theorem verifiedOr_eq_ok {result : Except VerificationError Verified} :
    verifiedOr result = .ok verified ↔ result = .ok verified := by
  cases result with
  | ok value => simp [verifiedOr]
  | error kind => simp [verifiedOr]

/-- A keystore's call succeeds on what its keys computed, whenever that was. -/
theorem execute_encryptedFile_eq_ok (hbinding : contract.binding operation.role = some binding)
    (hlocation : binding.location = .encryptedFile)
    (hbound : BoundTo binding .encryptedFile operation) :
    execute library contract operation observedAt call = .ok verified ↔
      call.alreadyCancelled = false ∧ call.cancelled = false ∧
        ∃ result, call.computed = some result ∧ observedAt ≤ operation.deadline ∧
          verifyResult library binding operation result = .ok verified.result ∧
          verified.operation = operation := by
  unfold execute
  simp only [hbinding, hlocation, Except.bind_eq_ok_iff, Except.ofOption_eq_ok,
    Except.require_eq_ok, Option.some.injEq, exists_eq_left', exists_const, verifiedOr_eq_ok,
    executeEncrypted_eq_ok hbound, verifyEncryptedProviderResponse_eq_ok, hbound, true_and]

/-- A local signer's call succeeds on an answer that arrived within the signer's own timeout. -/
theorem execute_localSigner_eq_ok {limits : LocalSignerLimits}
    (hbinding : contract.binding operation.role = some binding)
    (hlocation : binding.location = .localSigner limits)
    (hbound : BoundTo binding .localSigner operation) :
    execute library contract operation observedAt call = .ok verified ↔
      call.alreadyCancelled = false ∧ call.cancelled = false ∧
        call.arrivedAt ≤ call.startedAt + limits.requestDeadlineMs ∧
        ∃ response, call.answered = some response ∧ observedAt ≤ operation.deadline ∧
          response.Repeats operation ∧
          verifyResult library binding operation response.result = .ok verified.result ∧
          verified.operation = operation := by
  unfold execute
  simp only [hbinding, hlocation, Except.bind_eq_ok_iff, Except.ofOption_eq_ok,
    Except.require_eq_ok, Option.some.injEq, exists_eq_left', exists_const, verifiedOr_eq_ok,
    executeLocalSigner_eq_ok hbound, verifyResponse_eq_ok, hbound, true_and]
  constructor
  · rintro ⟨hidle, hrunning, response, ⟨harrived, hanswered⟩, hrest⟩
    exact ⟨hidle, hrunning, harrived, response, hanswered, hrest⟩
  · rintro ⟨hidle, hrunning, harrived, response, hanswered, hrest⟩
    exact ⟨hidle, hrunning, response, ⟨harrived, hanswered⟩, hrest⟩

end

/-! ## The deadline -/

/-- Every result the executor returns arrived by the deadline, whatever the provider does in a
call that begins at `startedAt`. -/
def KeepsDeadline (library : Library) (contract : Contract) (operation : Operation)
    (observedAt : TimeUnixMs) (startedAt : ℕ) : Prop :=
  ∀ call : Call, call.startedAt = startedAt → ∀ verified,
    execute library contract operation observedAt call = .ok verified →
      call.arrivedAt ≤ operation.deadline.get

/-- The provider of the operation is a local signer whose own timeout ends by the deadline. -/
def TimeoutWithin (contract : Contract) (operation : Operation) (startedAt : ℕ) : Prop :=
  ∃ binding limits, contract.binding operation.role = some binding ∧
    binding.location = .localSigner limits ∧
    startedAt + limits.requestDeadlineMs ≤ operation.deadline.get

/-- Some result of the operation passes the verification of its content. -/
def Verifiable (library : Library) (contract : Contract) (operation : Operation) : Prop :=
  ∃ binding result content, contract.binding operation.role = some binding ∧
    verifyResult library binding operation result = .ok content

/-- The answer that repeats an operation around a result. -/
def answerOf (operation : Operation) (result : WireResult) : WireResponse where
  outerCorrelationId := hexText (Id32.bytes operation.correlationId)
  contractVersion := contractVersion
  providerInstance := operation.role
  role := operation.role
  operationId := hexText (Id32.bytes operation.operationId)
  correlationId := hexText (Id32.bytes operation.correlationId)
  absoluteDeadlineUnixMs := operation.deadline.get
  expectedIdentity := operation.expectedIdentity.asHex
  capability := operation.input.capability
  result := result

theorem answerOf_repeats (operation : Operation) (result : WireResult) :
    (answerOf operation result).Repeats operation :=
  ⟨rfl, rfl, rfl, rfl, rfl, rfl, rfl, rfl, rfl⟩

/-- An undisturbed call that returns a result at a time. -/
def callReturning (operation : Operation) (result : WireResult) {startedAt arrivedAt : ℕ}
    (h : startedAt ≤ arrivedAt) : Call where
  alreadyCancelled := false
  cancelled := false
  startedAt := startedAt
  arrivedAt := arrivedAt
  computed := some result
  answered := some (answerOf operation result)
  started_le := h

section
variable {library : Library} {contract : Contract} {operation : Operation}
  {observedAt : TimeUnixMs} {startedAt : ℕ}

/-- A returned result passed the verification, at the time the caller gave. -/
theorem Issued.of_ok (issued : Issued contract operation observedAt) {call : Call}
    {verified : Verified} (h : execute library contract operation observedAt call = .ok verified) :
    observedAt ≤ operation.deadline ∧ Verifiable library contract operation := by
  obtain ⟨binding, hbinding, hbound⟩ := issued.bound
  cases hlocation : binding.location with
  | encryptedFile =>
      have hkind : binding.kind = .encryptedFile := by simp [Binding.kind, hlocation]
      rw [hkind] at hbound
      obtain ⟨-, -, result, -, hintime, hcontent, -⟩ :=
        (execute_encryptedFile_eq_ok hbinding hlocation hbound).mp h
      exact ⟨hintime, binding, result, _, hbinding, hcontent⟩
  | localSigner limits =>
      have hkind : binding.kind = .localSigner := by simp [Binding.kind, hlocation]
      rw [hkind] at hbound
      obtain ⟨-, -, -, response, -, hintime, -, hcontent, -⟩ :=
        (execute_localSigner_eq_ok hbinding hlocation hbound).mp h
      exact ⟨hintime, binding, response.result, _, hbinding, hcontent⟩

/-- A signer's timeout that ends by the deadline keeps it. -/
theorem Issued.keepsDeadline_of_timeout (issued : Issued contract operation observedAt)
    (h : TimeoutWithin contract operation startedAt) :
    KeepsDeadline library contract operation observedAt startedAt := by
  rintro call rfl verified hok
  obtain ⟨binding, hbinding, hbound⟩ := issued.bound
  obtain ⟨binding', limits, hbinding', hlocation, hwithin⟩ := h
  rw [hbinding] at hbinding'
  cases hbinding'
  have hkind : binding.kind = .localSigner := by simp [Binding.kind, hlocation]
  rw [hkind] at hbound
  obtain ⟨-, -, harrived, -⟩ := (execute_localSigner_eq_ok hbinding hlocation hbound).mp hok
  exact harrived.trans hwithin

/-- Without that timeout a verifiable result is returned however late it comes. -/
theorem Issued.late_ok (issued : Issued contract operation observedAt)
    (htimeout : ¬ TimeoutWithin contract operation startedAt)
    (hintime : observedAt ≤ operation.deadline)
    (hverifiable : Verifiable library contract operation) :
    ∃ call : Call, call.startedAt = startedAt ∧ operation.deadline.get < call.arrivedAt ∧
      ∃ verified, execute library contract operation observedAt call = .ok verified := by
  obtain ⟨binding, hbinding, hbound⟩ := issued.bound
  obtain ⟨binding', result, content, hbinding', hcontent⟩ := hverifiable
  rw [hbinding] at hbinding'
  cases hbinding'
  cases hlocation : binding.location with
  | encryptedFile =>
      have hkind : binding.kind = .encryptedFile := by simp [Binding.kind, hlocation]
      rw [hkind] at hbound
      have hle : startedAt ≤ startedAt + operation.deadline.get + 1 := by omega
      refine ⟨callReturning operation result hle, rfl, ?_, ⟨operation, content⟩, ?_⟩
      · change _ < startedAt + operation.deadline.get + 1
        omega
      · exact (execute_encryptedFile_eq_ok hbinding hlocation hbound).mpr
          ⟨rfl, rfl, result, rfl, hintime, hcontent, rfl⟩
  | localSigner limits =>
      have hkind : binding.kind = .localSigner := by simp [Binding.kind, hlocation]
      rw [hkind] at hbound
      -- the last instant the signer's own timeout admits
      have hle : startedAt ≤ startedAt + limits.requestDeadlineMs := by omega
      refine ⟨callReturning operation result hle, rfl, ?_, ⟨operation, content⟩, ?_⟩
      · exact Nat.lt_of_not_le fun hwithin =>
          htimeout ⟨binding, limits, hbinding, hlocation, hwithin⟩
      · exact (execute_localSigner_eq_ok hbinding hlocation hbound).mpr
          ⟨rfl, rfl, Nat.le_refl _, answerOf operation result, rfl, hintime,
            answerOf_repeats operation result, hcontent, rfl⟩

/-- The executor keeps the deadline of an issued operation exactly when a local signer's own
timeout does, the operation was late before the call, or nothing a provider returns for it
is accepted. -/
theorem keepsDeadline_iff (issued : Issued contract operation observedAt) (startedAt : ℕ) :
    KeepsDeadline library contract operation observedAt startedAt ↔
      TimeoutWithin contract operation startedAt ∨ operation.deadline < observedAt ∨
        ¬ Verifiable library contract operation := by
  constructor
  · intro hkeeps
    by_contra hcon
    simp only [not_or, not_not] at hcon
    obtain ⟨htimeout, hlate, hverifiable⟩ := hcon
    have hintime : observedAt ≤ operation.deadline := by
      rw [TimeUnixMs.lt_def] at hlate
      rw [TimeUnixMs.le_def]
      omega
    obtain ⟨call, hstarted, hafter, verified, hok⟩ := issued.late_ok htimeout hintime hverifiable
    have hbefore := hkeeps call hstarted verified hok
    omega
  · rintro (htimeout | hlate | hnone)
    · exact issued.keepsDeadline_of_timeout htimeout
    · intro call _ verified hok
      have hintime := (issued.of_ok hok).1
      rw [TimeUnixMs.lt_def] at hlate
      rw [TimeUnixMs.le_def] at hintime
      omega
    · intro call _ verified hok
      exact absurd (issued.of_ok hok).2 hnone

end

/-! ## Two providers of one decryption -/

/-- Sixteen zero bytes in base64. -/
def sampleBlock : Bytes := ascii "AAAAAAAAAAAAAAAAAAAAAA=="

def sampleLibrary : Library where
  events := ⟨fun _ => none, fun _ => [], fun _ => false⟩
  unsigned := fun _ => none
  base64 := fun text => if text = sampleBlock then some (List.replicate 16 0) else none

def sampleInput : ProviderInput := .nip04Decrypt ⟨3⟩ (sampleBlock ++ ascii "?iv=" ++ sampleBlock)

/-- The transport identity at one location. -/
def sampleContract (location : Location) : Contract where
  bindings := [⟨.transport, ⟨7⟩, location⟩]
  roles_nodup := by simp

/-- The decryption of a request, with thirty seconds. -/
def sampleOperation (provider : Kind) : Operation where
  role := .transport
  provider := provider
  operationId := 1
  correlationId := 2
  deadline := ⟨1030000, by decide, by decide⟩
  expectedIdentity := ⟨7⟩
  input := .request sampleInput

def sampleObservedAt : TimeUnixMs := ⟨1000000, by decide, by decide⟩

def sampleLimits : LocalSignerLimits where
  requestDeadlineMs := 15000
  requestMaxBytes := 65536
  responseMaxBytes := 1048576
  concurrency := 8
  requestDeadlineMs_mem := by decide
  requestMaxBytes_mem := by decide
  responseMaxBytes_mem := by decide
  concurrency_mem := by decide

theorem sampleOperation_issued (location : Location) :
    Issued (sampleContract location)
      (sampleOperation (Binding.kind ⟨.transport, ⟨7⟩, location⟩)) sampleObservedAt :=
  .dispatch .transport 1 2 1000000 30000 sampleInput (by decide) rfl

/-- A signer with half of the operation's time keeps its deadline. -/
theorem signer_keeps_deadline :
    KeepsDeadline sampleLibrary (sampleContract (.localSigner sampleLimits))
      (sampleOperation .localSigner) sampleObservedAt 1000000 :=
  (keepsDeadline_iff (sampleOperation_issued (.localSigner sampleLimits)) 1000000).mpr
    (.inl ⟨⟨.transport, ⟨7⟩, .localSigner sampleLimits⟩, sampleLimits, rfl, rfl, by decide⟩)

/-- A keystore that is done an hour after the deadline. -/
def sampleLateCall : Call :=
  callReturning (sampleOperation .encryptedFile) (.nip04Decrypt (PublicKey.asHex ⟨3⟩) (ascii "ping"))
    (show 1000000 ≤ 4630000 by decide)

/-- A decryption that dispatch issued is returned an hour after its deadline. -/
theorem keystore_returns_late :
    Issued (sampleContract .encryptedFile) (sampleOperation .encryptedFile) sampleObservedAt ∧
      (sampleOperation .encryptedFile).deadline.get < sampleLateCall.arrivedAt ∧
      execute sampleLibrary (sampleContract .encryptedFile) (sampleOperation .encryptedFile)
        sampleObservedAt sampleLateCall =
          .ok ⟨sampleOperation .encryptedFile, .protectedPayload (ascii "ping") none⟩ := by
  refine ⟨sampleOperation_issued .encryptedFile, by decide, ?_⟩
  decide +kernel

end MycSigner.Provider
