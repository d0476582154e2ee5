import MycSigner.Configuration.Agreement
import MycSigner.Dispatch.Redelivery

/-!
# Work is bound to what its session allows

Every request but a connect is bound to work only under a live session of its client that grants
the permission of its method, and the user provider is asked for exactly what the request asks
for.  The protocol library spells the permission that a request needs; that it names the one of
the request's method, and of the event's own kind for a signature, is taken from it.
-/

namespace MycSigner

/-! ## What a request asks for -/

/-- The permission of a request's method; a signature has one for each kind of event. -/
def Request.permission (eventKind : Bytes → UInt32) : Request → Option Permission
  | .getPublicKey => some .getPublicKey
  | .getSessionCapability => some .getSessionCapability
  | .signEvent unsigned => some (.signEvent (eventKind unsigned))
  | .nip04Encrypt _ _ => some .nip04Encrypt
  | .nip04Decrypt _ _ => some .nip04Decrypt
  | .nip44Encrypt _ _ => some .nip44Encrypt
  | .nip44Decrypt _ _ => some .nip44Decrypt
  | .ping => some .ping
  | .switchRelays => some .switchRelays
  | .logout => some .logout
  | .connect _ _ _ | .custom _ => none

/-- What a request asks of the user provider: its own peer and payload. -/
def Request.providerInput : Request → Option ProviderInput
  | .signEvent unsigned => some (.signEvent unsigned)
  | .nip04Encrypt peer plaintext => some (.nip04Encrypt peer plaintext)
  | .nip04Decrypt peer ciphertext => some (.nip04Decrypt peer ciphertext)
  | .nip44Encrypt peer plaintext => some (.nip44Encrypt peer plaintext)
  | .nip44Decrypt peer ciphertext => some (.nip44Decrypt peer ciphertext)
  | .connect _ _ _ | .getPublicKey | .getSessionCapability | .ping | .switchRelays | .logout
  | .custom _ => none

/-- The library names the permission of a request's method, and asks for one wherever the user
provider is needed. -/
structure Protocol.NamesPermissions (protocol : Protocol) (eventKind : Bytes → UInt32) : Prop where
  named : ∀ request text, protocol.requiredPermission request = some text →
    ∃ permission, request.permission eventKind = some permission ∧ permission.code = text
  demanded : ∀ request, request.providerInput.isSome = true →
    (protocol.requiredPermission request).isSome = true

/-! ## Permission codes -/

/-- The digits of a number spell it. -/
theorem decimal_injective : Function.Injective decimal := by
  intro left right h
  have hdecode (n : ℕ) : (decimal n).map (fun byte => Char.ofNat byte.toNat) = Nat.toDigits 10 n := by
    unfold decimal
    rw [List.map_map]
    refine (List.map_congr_left fun digit hdigit => ?_).trans (List.map_id _)
    have hrange := Nat.isDigit_of_mem_toDigits (by decide) (by decide) hdigit
    have hlt : digit.toNat < 256 := by
      simp only [Char.isDigit, Bool.and_eq_true, decide_eq_true_eq] at hrange
      have hle := UInt32.le_iff_toNat_le.mp hrange.2
      exact lt_of_le_of_lt hle (by decide)
    simp [UInt8.toNat_ofNat', Nat.mod_eq_of_lt hlt]
  have hdigits : Nat.toDigits 10 left = Nat.toDigits 10 right := by
    rw [← hdecode, ← hdecode, h]
  rw [← Nat.ofDigitChars_ten_toDigits (n := left), hdigits, Nat.ofDigitChars_ten_toDigits]

/-- Only the code of a signature starts like one. -/
theorem Permission.code_starts {permission : Permission}
    (h : (ascii "sign_event:kind:").isPrefixOf permission.code = true) :
    ∃ kind, permission = .signEvent kind := by
  cases permission with
  | signEvent kind => exact ⟨kind, rfl⟩
  | getPublicKey | getSessionCapability | nip04Encrypt | nip04Decrypt | nip44Encrypt | nip44Decrypt
  | ping | switchRelays | logout => exact absurd h (by decide +kernel)

theorem Permission.code_signEvent_starts (kind : UInt32) :
    (ascii "sign_event:kind:").isPrefixOf (Permission.signEvent kind).code = true :=
  List.isPrefixOf_iff_prefix.mpr (List.prefix_append _ _)

theorem Permission.code_injective : Function.Injective Permission.code := by
  intro left right h
  by_cases hsign : (ascii "sign_event:kind:").isPrefixOf left.code = true
  · obtain ⟨kind, rfl⟩ := Permission.code_starts hsign
    rw [h] at hsign
    obtain ⟨other, rfl⟩ := Permission.code_starts hsign
    have hkinds := decimal_injective (List.append_cancel_left h)
    rw [UInt32.toNat_inj.mp hkinds]
  · have hright := hsign
    rw [h] at hright
    cases left with
    | signEvent kind => exact absurd (Permission.code_signEvent_starts kind) hsign
    | getPublicKey | getSessionCapability | nip04Encrypt | nip04Decrypt | nip44Encrypt
    | nip44Decrypt | ping | switchRelays | logout =>
        cases right with
        | signEvent kind => exact absurd (Permission.code_signEvent_starts kind) hright
        | getPublicKey | getSessionCapability | nip04Encrypt | nip04Decrypt | nip44Encrypt
        | nip44Decrypt | ping | switchRelays | logout =>
            first
            | rfl
            | exact absurd h (by decide +kernel)

/-! ## The parts of the work -/

theorem copyInput_eq_some {bytes copied : Bytes} {emptyAllowed : Bool}
    (h : copyInput bytes emptyAllowed = some copied) : copied = bytes := by
  unfold copyInput at h
  split at h
  next => cases h
  next => exact (Option.some.inj h).symm

/-- A session is returned as it was given: the client's own, live, and with the permission that
the library asks for. -/
theorem requireSession_authorizes {protocol : Protocol} {eventKind : Bytes → UInt32}
    {prepared : PreparedRequest} {found : Option ConnectionRecord} {observedAt : TimeUnixMs}
    {session : ConnectionRecord} (hnames : protocol.NamesPermissions eventKind)
    (h : requireSession protocol prepared found observedAt = .ok session) :
    found = some session ∧
      session.clientPublicKey = prepared.signerRequest.clientPublicKey ∧
      session.status = .active ∧ (∀ limit ∈ session.authorizedUntil, observedAt ≤ limit) ∧
      ∀ permission, prepared.request.permission eventKind = some permission →
        (protocol.requiredPermission prepared.request).isSome = true →
        permission ∈ session.grantedPermissions.permissions := by
  unfold requireSession at h
  obtain ⟨connection, hfound, h⟩ := Except.bind_eq_ok_iff.mp h
  obtain ⟨_, hclient, h⟩ := Except.bind_eq_ok_iff.mp h
  obtain ⟨_, hlive, h⟩ := Except.bind_eq_ok_iff.mp h
  obtain ⟨hactive, hserves⟩ := Except.require_eq_ok.mp hlive
  have hlimit : ∀ limit ∈ connection.authorizedUntil, observedAt ≤ limit := by
    intro limit hmem
    exact of_decide_eq_true ((Option.all_eq_true _ _).mp hserves limit hmem)
  cases hrequired : protocol.requiredPermission prepared.request with
  | none =>
      rw [hrequired] at h
      obtain rfl := Except.ok.inj h
      refine ⟨Except.ofOption_eq_ok.mp hfound, Except.require_eq_ok.mp hclient, hactive, hlimit, ?_⟩
      intro permission _ hsome
      cases hsome
  | some text =>
      rw [hrequired] at h
      obtain ⟨granted, hparsed, h⟩ := Except.bind_eq_ok_iff.mp h
      obtain ⟨_, hcontains, h⟩ := Except.bind_eq_ok_iff.mp h
      obtain rfl := Except.ok.inj h
      refine ⟨Except.ofOption_eq_ok.mp hfound, Except.require_eq_ok.mp hclient, hactive, hlimit, ?_⟩
      intro permission hpermission _
      obtain ⟨named, hnamed, hcode⟩ := hnames.named prepared.request text hrequired
      obtain rfl : permission = named := Option.some.inj (hpermission.symm.trans hnamed)
      have hspelled := Permission.code_of_parse (Except.ofOption_eq_ok.mp hparsed)
      rw [Permission.code_injective (hcode.trans hspelled.symm)]
      exact PermissionSet.contains_iff.mp (Except.require_eq_ok.mp hcontains)

/-- The operation that carries an input to the user provider for an admitted request. -/
structure ProviderOperation.Carries (operation : ProviderOperation) (metadata : PersistedMetadata)
    (record : RequestRecord) (observedAt : TimeUnixMs) (deadline : Option TimeUnixMs)
    (input : Option ProviderInput) : Prop where
  role : operation.role = .user
  operationId : operation.operationId = record.operationId
  correlationId : operation.correlationId = record.correlationId
  identity : operation.expectedIdentity = metadata.userPublicKey
  input : input = some operation.input
  deadline : deadline = some operation.deadline
  later : observedAt < operation.deadline

section Payload

variable {protocol : Protocol} {metadata : PersistedMetadata} {record : RequestRecord}
  {observedAt : TimeUnixMs} {deadline : Option TimeUnixMs}

theorem providerWork_carries {input : Option ProviderInput} {payload : WorkPayload}
    (h : providerWork metadata record observedAt deadline input = .ok payload) :
    ∃ operation, payload = .provider operation ∧
      operation.Carries metadata record observedAt deadline input := by
  unfold providerWork at h
  obtain ⟨limit, hdeadline, h⟩ := Except.bind_eq_ok_iff.mp h
  obtain ⟨_, hlater, h⟩ := Except.bind_eq_ok_iff.mp h
  obtain ⟨value, hinput, h⟩ := Except.bind_eq_ok_iff.mp h
  obtain rfl := Except.ok.inj h
  exact ⟨_, rfl, rfl, rfl, rfl, rfl, Except.ofOption_eq_ok.mp hinput,
    Except.ofOption_eq_ok.mp hdeadline, Except.require_eq_ok.mp hlater⟩

/-- The user provider is asked for the request's own input, and for nothing where the request
has none. -/
theorem sessionPayload_carries {request : Request} {payload : WorkPayload}
    (h : sessionPayload protocol metadata record observedAt deadline request = .ok payload) :
    (request.providerInput = none ∧ payload = .localWork) ∨
      ∃ operation, payload = .provider operation ∧
        operation.Carries metadata record observedAt deadline request.providerInput := by
  have hcopied {bytes : Bytes} {emptyAllowed : Bool} {wrap : Bytes → ProviderInput}
      {own : Option ProviderInput} (hown : own = some (wrap bytes))
      (hwork : providerWork metadata record observedAt deadline
        ((copyInput bytes emptyAllowed).map wrap) = .ok payload) :
      ∃ operation, payload = .provider operation ∧
        operation.Carries metadata record observedAt deadline own := by
    obtain ⟨operation, hpayload, hcarries⟩ := providerWork_carries hwork
    refine ⟨operation, hpayload, { hcarries with input := ?_ }⟩
    obtain ⟨copied, hsome, hwrapped⟩ := Option.map_eq_some_iff.mp hcarries.input
    rw [hown, ← hwrapped, copyInput_eq_some hsome]
  cases request with
  | getPublicKey | getSessionCapability | ping | switchRelays | logout =>
      obtain ⟨_, -, h⟩ := Except.bind_eq_ok_iff.mp h
      exact .inl ⟨rfl, (Except.ok.inj h).symm⟩
  | signEvent unsigned =>
      obtain ⟨input, hinput, h⟩ := Except.bind_eq_ok_iff.mp h
      unfold signEventInput at hinput
      obtain ⟨_, -, hinput⟩ := Except.bind_eq_ok_iff.mp hinput
      obtain ⟨_, -, hinput⟩ := Except.bind_eq_ok_iff.mp hinput
      rw [← Except.ofOption_eq_ok.mp hinput] at h
      exact .inr (hcopied rfl h)
  | nip04Encrypt peer plaintext => exact .inr (hcopied rfl h)
  | nip04Decrypt peer ciphertext => exact .inr (hcopied rfl h)
  | nip44Encrypt peer plaintext =>
      refine .inr ?_
      dsimp only [sessionPayload, ProviderInput.newNip44Encrypt] at h
      split at h
      next =>
        obtain ⟨operation, -, hcarries⟩ := providerWork_carries h
        cases hcarries.input
      next => exact hcopied rfl h
  | nip44Decrypt peer ciphertext => exact .inr (hcopied rfl h)
  | connect _ _ _ => cases h
  | custom _ => cases h

end Payload

/-! ## The work -/

/-- The work of a connect request has no session and no provider operation.  Any other request
has a session that was given, is the client's own, is active and has not ended, and grants the
permission that the library asks for; the user provider is asked for the request's own input
under the identifiers of its record, and only for requests that have one, whose permission the
session then grants. -/
theorem work_exactly_authorized (protocol : Protocol) (eventKind : Bytes → UInt32)
    (hnames : protocol.NamesPermissions eventKind) (metadata : PersistedMetadata)
    (prepared : PreparedRequest) (record : RequestRecord) (connection : Option ConnectionRecord)
    (observedAt : TimeUnixMs) (deadline : Option TimeUnixMs) (work : Work)
    (h : prepareWork protocol metadata prepared record connection observedAt deadline = .ok work) :
    (prepared.request.method = some .connect →
        work.connection = none ∧ work.providerOperation = none) ∧
      (prepared.request.method ≠ some .connect →
        ∃ session, connection = some session ∧ work.connection = some session ∧
          session.clientPublicKey = prepared.signerRequest.clientPublicKey ∧
          session.status = .active ∧ (∀ limit ∈ session.authorizedUntil, observedAt ≤ limit) ∧
          (∀ permission, prepared.request.permission eventKind = some permission →
            (protocol.requiredPermission prepared.request).isSome = true →
            permission ∈ session.grantedPermissions.permissions) ∧
          (work.providerOperation = none ↔ prepared.request.providerInput = none) ∧
          ∀ operation, work.providerOperation = some operation →
            operation.Carries metadata record observedAt deadline prepared.request.providerInput ∧
            ∃ permission, prepared.request.permission eventKind = some permission ∧
              permission ∈ session.grantedPermissions.permissions) := by
  unfold prepareWork at h
  obtain ⟨_, -, h⟩ := Except.bind_eq_ok_iff.mp h
  split at h
  next hrequest =>
    obtain ⟨_, -, h⟩ := Except.bind_eq_ok_iff.mp h
    obtain ⟨_, -, h⟩ := Except.bind_eq_ok_iff.mp h
    obtain ⟨_, -, h⟩ := Except.bind_eq_ok_iff.mp h
    obtain rfl := Except.ok.inj h
    refine ⟨fun _ => ⟨rfl, rfl⟩, fun hother => absurd ?_ hother⟩
    rw [hrequest]
    rfl
  next => cases h
  next request hconnect _ =>
    obtain ⟨session, hsession, h⟩ := Except.bind_eq_ok_iff.mp h
    obtain ⟨payload, hpayload, h⟩ := Except.bind_eq_ok_iff.mp h
    obtain rfl := Except.ok.inj h
    obtain ⟨hfound, hclient, hactive, hlimit, hgranted⟩ := requireSession_authorizes hnames hsession
    refine ⟨?_, fun _ => ⟨session, hfound, rfl, hclient, hactive, hlimit, hgranted, ?_⟩⟩
    · intro hmethod
      cases hcase : prepared.request with
      | connect remoteSigner secret requested =>
          exact absurd hcase (hconnect remoteSigner secret requested)
      | getPublicKey | getSessionCapability | signEvent _ | nip04Encrypt _ _ | nip04Decrypt _ _
      | nip44Encrypt _ _ | nip44Decrypt _ _ | ping | switchRelays | logout | custom _ =>
          rw [hcase] at hmethod
          cases hmethod
    · rcases sessionPayload_carries hpayload with ⟨hnone, rfl⟩ | ⟨operation, rfl, hcarries⟩
      · refine ⟨iff_of_true rfl hnone, ?_⟩
        intro operation hoperation
        cases hoperation
      · have hinput : prepared.request.providerInput.isSome = true := by
          rw [hcarries.input]
          rfl
        refine ⟨iff_of_false (by simp [Work.providerOperation]) ?_, ?_⟩
        · rw [hcarries.input]
          simp
        · intro other hother
          obtain rfl : operation = other := Option.some.inj hother
          have hdemanded := hnames.demanded prepared.request hinput
          obtain ⟨text, htext⟩ := Option.isSome_iff_exists.mp hdemanded
          obtain ⟨permission, hpermission, -⟩ := hnames.named prepared.request text htext
          exact ⟨hcarries, permission, hpermission, hgranted permission hpermission hdemanded⟩

namespace SampleService

/-- A library that asks for a permission wherever the user provider is needed. -/
def askingProtocol : Protocol :=
  { plainProtocol with
    requiredPermission := fun request =>
      if request.providerInput.isSome then (request.permission fun _ => 1).map Permission.code
      else none }

theorem askingProtocol_names : askingProtocol.NamesPermissions fun _ => 1 where
  named := by
    intro request text h
    simp only [askingProtocol] at h
    split at h
    next => exact Option.map_eq_some_iff.mp h
    next => cases h
  demanded := by
    intro request h
    simp only [askingProtocol, h, if_true, Option.isSome_map]
    cases request with
    | signEvent _ | nip04Encrypt _ _ | nip04Decrypt _ _ | nip44Encrypt _ _ | nip44Decrypt _ _ => rfl
    | connect _ _ _ | getPublicKey | getSessionCapability | ping | switchRelays | logout
    | custom _ => cases h

/-- A decryption under the session of the client. -/
def decryption : PreparedRequest :=
  ⟨request '4' 4 .nip44Decrypt (sampleTime 2000),
    .nip44Decrypt client (ascii "AmJu"), .nip44V2⟩

/-- The session that the client gets when it connects. -/
def session : ConnectionRecord where
  id := (admission firstConnect).connectionId
  clientPublicKey := client
  requestedPermissions := (admission firstConnect).requestedPermissions
  grantedPermissions := (admission firstConnect).requestedPermissions
  policyGeneration := (admission firstConnect).policyGeneration
  status := .active
  createdAt := sampleTime 1000
  updatedAt := sampleTime 1000
  authorizedUntil := none

end SampleService

open SampleService in
/-- A decryption that the session grants reaches the user provider with its own ciphertext. -/
theorem granted_decryption_carried :
    ∃ work operation, prepareWork askingProtocol config.metadata decryption
        (record decryption.signerRequest) (some session) (sampleTime 2000)
        (some (sampleTime 9000)) = .ok work ∧
      work.providerOperation = some operation ∧
      operation.Carries config.metadata (record decryption.signerRequest) (sampleTime 2000)
        (some (sampleTime 9000)) (some (.nip44Decrypt client (ascii "AmJu"))) := by
  have hok : (prepareWork askingProtocol config.metadata decryption
      (record decryption.signerRequest) (some session) (sampleTime 2000)
      (some (sampleTime 9000))).isOk = true := by
    decide +kernel
  obtain ⟨work, hwork⟩ := Except.exists_of_isOk hok
  obtain ⟨-, hsession⟩ := work_exactly_authorized askingProtocol (fun _ => 1) askingProtocol_names
    config.metadata decryption (record decryption.signerRequest) (some session)
    (sampleTime 2000) (some (sampleTime 9000)) work hwork
  obtain ⟨_, -, -, -, -, -, -, hnone, hcarries⟩ := hsession (by decide)
  cases hoperation : work.providerOperation with
  | none => cases hnone.mp hoperation
  | some operation => exact ⟨work, operation, hwork, hoperation, (hcarries operation hoperation).1⟩

end MycSigner
