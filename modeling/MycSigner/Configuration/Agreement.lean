import MycSigner.Configuration.Policies
import MycSigner.Lib.Traverse
import Mathlib.Data.List.Induction

/-!
# The two readings of a document

Admission checks a document against the schema and its relationships; the policy constructors
check it again.  They agree on everything but two points.  The schema counts a float without
a fraction as an integer while the constructors read integers only, and admission reads just
some of the numbers the way they do.  And admission looks at no more of a challenge URL than
its start, while the constructor wants it canonical.
-/

namespace MycSigner

/-! ## Numbers -/

/-- The number is written as an integer. -/
def Number.isWritten : Number → Bool
  | .integer _ => true
  | .float _ => false

theorem Number.isWritten_of_asU64 {number : Number} {n : ℕ} (h : number.asU64 = some n) :
    number.isWritten = true := by
  cases number with
  | integer value => rfl
  | float value => cases h

theorem Number.within_integer {value : ℤ} {minimum maximum : ℕ}
    (h : (Number.integer value).within minimum maximum = true) :
    (minimum : ℤ) ≤ value ∧ value ≤ (maximum : ℤ) := by
  obtain ⟨hrest, hhigh⟩ := Bool.and_eq_true_iff.mp h
  obtain ⟨-, hlow⟩ := Bool.and_eq_true_iff.mp hrest
  have hlow : ((minimum : ℤ) : ℚ) ≤ (value : ℚ) := of_decide_eq_true hlow
  have hhigh : (value : ℚ) ≤ ((maximum : ℤ) : ℚ) := of_decide_eq_true hhigh
  exact ⟨Rat.intCast_le_intCast.mp hlow, Rat.intCast_le_intCast.mp hhigh⟩

theorem Number.within_bounds {number : Number} {minimum maximum n : ℕ}
    (h : number.within minimum maximum = true) (hn : number.asU64 = some n) :
    minimum ≤ n ∧ n ≤ maximum := by
  cases number with
  | float value => cases hn
  | integer value =>
      simp only [Number.asU64] at hn
      split at hn
      next hnonneg =>
        obtain rfl := Option.some.inj hn
        have hbounds := Number.within_integer h
        omega
      next => cases hn

/-- A bounded number that is written as an integer is read as one within its bounds. -/
theorem Number.asU64_of_within {number : Number} {minimum maximum : ℕ}
    (h : number.within minimum maximum = true) (hwritten : number.isWritten = true) :
    ∃ n, number.asU64 = some n ∧ minimum ≤ n ∧ n ≤ maximum := by
  cases number with
  | float value => cases hwritten
  | integer value =>
      have hbounds := Number.within_integer h
      have hread : (Number.integer value).asU64 = some value.toNat := if_pos (by omega)
      exact ⟨value.toNat, hread, Number.within_bounds h hread⟩

theorem Number.asU32_of_asU64 {number : Number} {n : ℕ} (h : number.asU64 = some n)
    (hsmall : n < 2 ^ 32) : number.asU32 = some n := by
  unfold Number.asU32
  rw [h]
  exact Option.filter_eq_some_iff.mpr ⟨rfl, decide_eq_true hsmall⟩

theorem Number.asU64_of_asU32 {number : Number} {n : ℕ} (h : number.asU32 = some n) :
    number.asU64 = some n := (Option.filter_eq_some_iff.mp h).1

theorem Number.positive_of_asU64 {number : Number} {n : ℕ} (h : number.asU64 = some n)
    (hpos : 0 < n) (hle : n ≤ i64Max) : number.positive = some n := by
  unfold Number.positive
  rw [h]
  exact Option.filter_eq_some_iff.mpr ⟨rfl, by simp [hpos, hle]⟩

/-! ## Identifiers -/

/-- A letter or a digit of an identifier. -/
def isWordByte (byte : UInt8) : Bool := isAsciiLowercase byte || isAsciiDigit byte

theorem isWordByte_alphanumeric {byte : UInt8} (h : isWordByte byte = true) :
    isAsciiAlphanumeric byte = true := by
  unfold isAsciiAlphanumeric
  unfold isWordByte at h
  simp [h]

theorem isWordByte_ne_underscore {byte : UInt8} (h : isWordByte byte = true) :
    (byte == 95) = false := by
  by_contra heq
  have heq : byte = 95 := by simpa using heq
  rw [heq] at h
  exact absurd h (by decide)

/-- What `MycRateRelayId::new` asks of the bytes after the first. -/
structure SnakeShape (last : UInt8) (bytes : Bytes) : Prop where
  allowed : (bytes.all fun byte => isAsciiLowercase byte || isAsciiDigit byte || byte == 95) = true
  single : hasDoubleUnderscore (last :: bytes) = false
  ends : (last :: bytes).getLast?.any isAsciiAlphanumeric = true

theorem SnakeShape.cons {last byte : UInt8} {rest : Bytes} (h : SnakeShape byte rest)
    (hbyte : isWordByte byte = true ∨ byte = 95)
    (hpair : (last == 95 && byte == 95) = false) : SnakeShape last (byte :: rest) where
  allowed := by
    simp only [List.all_cons, Bool.and_eq_true]
    refine ⟨?_, h.allowed⟩
    rcases hbyte with hword | rfl
    · unfold isWordByte at hword
      simp [hword]
    · rfl
  single := by
    unfold hasDoubleUnderscore
    rw [hpair, h.single]
    rfl
  ends := by
    rw [List.getLast?_cons_cons]
    exact h.ends

/-- The bytes after a letter or digit, and the bytes after an underscore. -/
theorem snake_shape (bytes : Bytes) :
    (snakeRest bytes = true → ∀ last, isWordByte last = true → SnakeShape last bytes) ∧
      (snakeWord bytes = true → SnakeShape 95 bytes) := by
  induction bytes with
  | nil =>
      refine ⟨fun _ last hlast => ⟨rfl, rfl, ?_⟩, fun h => ?_⟩
      · simpa using isWordByte_alphanumeric hlast
      · simp [snakeWord] at h
  | cons byte rest ih =>
      constructor
      · intro h last hlast
        have hpair : (last == 95 && byte == 95) = false := by
          rw [isWordByte_ne_underscore hlast]
          rfl
        unfold snakeRest at h
        split at h
        next hunderscore =>
          have hbyte : byte = 95 := by simpa using hunderscore
          subst hbyte
          exact (ih.2 h).cons (.inr rfl) hpair
        next =>
          obtain ⟨hword, hrest⟩ := Bool.and_eq_true_iff.mp h
          exact (ih.1 hrest byte hword).cons (.inl hword) hpair
      · intro h
        unfold snakeWord at h
        obtain ⟨hword, hrest⟩ := Bool.and_eq_true_iff.mp h
        refine (ih.1 hrest byte hword).cons (.inl hword) ?_
        rw [isWordByte_ne_underscore hword, Bool.and_false]

/-- The schema's relay identifiers are those that the constructors accept. -/
theorem relayIdValid_of_schema {id : Bytes} (h : relayIdSchema id = true) :
    relayIdValid id = true := by
  unfold relayIdSchema at h
  obtain ⟨hlength, hsnake⟩ := Bool.and_eq_true_iff.mp h
  cases id with
  | nil => simp [isLowerSnake] at hsnake
  | cons byte rest =>
      unfold isLowerSnake at hsnake
      obtain ⟨hlower, hrest⟩ := Bool.and_eq_true_iff.mp hsnake
      have hword : isWordByte byte = true := by
        unfold isWordByte
        simp [hlower]
      have hshape := (snake_shape rest).1 hrest byte hword
      unfold relayIdValid
      simp only [Bool.and_eq_true, Bool.not_eq_true']
      refine ⟨⟨⟨⟨⟨rfl, hlength⟩, hlower⟩, hshape.ends⟩, ?_⟩, hshape.single⟩
      simp only [List.all_cons, Bool.and_eq_true]
      exact ⟨by simp [hlower], hshape.allowed⟩

theorem RelayId.new_of_schema {id : Bytes} (h : relayIdSchema id = true) :
    RelayId.new id = some ⟨id, relayIdValid_of_schema h⟩ := dif_pos (relayIdValid_of_schema h)

theorem RelayId.new_eq_some {id : Bytes} {relayId : RelayId} (h : RelayId.new id = some relayId) :
    relayId.bytes = id := by
  unfold RelayId.new at h
  split at h
  next =>
    obtain rfl := Option.some.inj h
    rfl
  next => cases h

/-! ## Permissions -/

theorem stripText_eq_some {start text rest : Bytes} (h : stripText start text = some rest) :
    text = start ++ rest := by
  unfold stripText at h
  split at h
  next hinitial =>
    obtain rfl := Option.some.inj h
    obtain ⟨tail, rfl⟩ := List.isPrefixOf_iff_prefix.mp hinitial
    simp
  next => cases h

/-- The value of a text of digits. -/
def digitsValue (digits : Bytes) : ℕ :=
  digits.foldl (fun value digit => value * 10 + (digit.toNat - 48)) 0

theorem digitsValue_append (digits : Bytes) (digit : UInt8) :
    digitsValue (digits ++ [digit]) = 10 * digitsValue digits + (digit.toNat - 48) := by
  unfold digitsValue
  rw [List.foldl_append]
  simp only [List.foldl_cons, List.foldl_nil]
  omega

/-- The digit of a byte is the byte. -/
theorem decimal_digit {digit : UInt8} (h : isAsciiDigit digit = true) :
    digit.toNat - 48 < 10 ∧ decimal (digit.toNat - 48) = [digit] := by
  have hbounds : 48 ≤ digit.toNat ∧ digit.toNat ≤ 57 := by
    simp only [isAsciiDigit, Bool.and_eq_true, decide_eq_true_eq] at h
    exact ⟨UInt8.le_iff_toNat_le.mp h.1, UInt8.le_iff_toNat_le.mp h.2⟩
  have hlt : digit.toNat - 48 < 10 := by omega
  refine ⟨hlt, ?_⟩
  have hchar : ∀ n < 10, UInt8.ofNat (Nat.digitChar n).toNat = UInt8.ofNat (48 + n) := by decide
  unfold decimal
  rw [Nat.toDigits_of_lt_base hlt, List.map_singleton, hchar _ hlt,
    Nat.add_sub_cancel' hbounds.1, UInt8.ofNat_toNat]

/-- Digits without a leading zero are the decimal text of their value. -/
theorem decimal_digitsValue {digits : Bytes} (hdigits : digits.all isAsciiDigit = true)
    (hnonempty : digits ≠ []) (hleading : digits.head? ≠ some 48) :
    decimal (digitsValue digits) = digits ∧ 0 < digitsValue digits := by
  induction digits using List.reverseRecOn with
  | nil => exact absurd rfl hnonempty
  | append_singleton digits digit ih =>
      simp only [List.all_append, List.all_cons, List.all_nil, Bool.and_true,
        Bool.and_eq_true] at hdigits
      obtain ⟨hlt, hdecimal⟩ := decimal_digit hdigits.2
      rw [digitsValue_append]
      cases digits with
      | nil => 
          have hne : digit.toNat ≠ 48 := fun heq => hleading (by
            rw [show digit = 48 from UInt8.toNat_inj.mp heq]
            rfl)
          have hlow : 48 ≤ digit.toNat := by
            have hdigit := hdigits.2
            simp only [isAsciiDigit, Bool.and_eq_true, decide_eq_true_eq] at hdigit
            exact UInt8.le_iff_toNat_le.mp hdigit.1
          simp only [digitsValue, List.foldl_nil, Nat.mul_zero, Nat.zero_add]
          exact ⟨hdecimal, by omega⟩
      | cons first rest =>
          have hhead : (first :: rest).head? ≠ some 48 := by simpa using hleading
          obtain ⟨hinitial, hpos⟩ := ih hdigits.1 (by simp) hhead
          refine ⟨?_, by omega⟩
          unfold decimal at hinitial hdecimal ⊢
          rw [← Nat.toDigits_append_toDigits (by decide) hpos hlt, List.map_append, hinitial,
            hdecimal]

/-- A kind of the schema is the decimal text of its value. -/
theorem decimal_of_schema {digits : Bytes} (h : kindSchema digits = true) :
    decimal (digitsValue digits) = digits := by
  unfold kindSchema at h
  rcases Bool.or_eq_true_iff.mp h with hzero | hcanonical
  · obtain rfl : digits = [48] := by simpa using hzero
    decide
  · simp only [Bool.and_eq_true, decide_eq_true_eq, bne_iff_ne] at hcanonical
    obtain ⟨⟨⟨hlength, -⟩, hdigits⟩, hleading⟩ := hcanonical
    refine (decimal_digitsValue hdigits ?_ hleading).1
    rintro rfl
    simp at hlength

theorem digits_of_schema {digits : Bytes} (h : kindSchema digits = true) :
    digits.all isAsciiDigit = true := by
  unfold kindSchema at h
  rcases Bool.or_eq_true_iff.mp h with hzero | hcanonical
  · obtain rfl : digits = [48] := by simpa using hzero
    decide
  · simp only [Bool.and_eq_true] at hcanonical
    exact hcanonical.1.2

theorem parseU32_unsigned {digits : Bytes} (hdigits : digits.all isAsciiDigit = true) :
    parseU32 digits = if digits.isEmpty || !digits.all isAsciiDigit then none
      else if digitsValue digits < 2 ^ 32 then some (UInt32.ofNat (digitsValue digits))
      else none := by
  unfold parseU32
  split
  next rest => simp [isAsciiDigit] at hdigits
  next => rfl

theorem parseU32_digits {digits : Bytes} {kind : UInt32} (hdigits : digits.all isAsciiDigit = true)
    (h : parseU32 digits = some kind) : kind.toNat = digitsValue digits := by
  rw [parseU32_unsigned hdigits] at h
  split at h
  next => cases h
  next =>
    split at h
    next hlt =>
      obtain rfl := Option.some.inj h
      exact UInt32.toNat_ofNat_of_lt' hlt
    next => cases h

/-- A kind of the schema within the range of a kind parses as one. -/
theorem parseKind_of_schema {digits : Bytes} {kind : UInt32} (h : kindSchema digits = true)
    (hparsed : parseU32 digits = some kind) : parseKind digits = some kind := by
  unfold parseKind
  rw [hparsed]
  refine Option.filter_eq_some_iff.mpr ⟨rfl, decide_eq_true ?_⟩
  rw [parseU32_digits (digits_of_schema h) hparsed]
  exact decimal_of_schema h

/-- A permission is spelled by its code. -/
theorem Permission.code_of_parse {text : Bytes} {permission : Permission}
    (h : Permission.parse text = some permission) : permission.code = text := by
  unfold Permission.parse at h
  repeat' split at h
  all_goals try (obtain rfl := Option.some.inj h; symm; assumption)
  obtain ⟨kind, hkind, rfl⟩ := Option.map_eq_some_iff.mp h
  obtain ⟨digits, hdigits, hparsed⟩ := Option.bind_eq_some_iff.mp hkind
  have hdecimal : decimal kind.toNat = digits :=
    of_decide_eq_true (Option.filter_eq_some_iff.mp hparsed).2
  rw [stripText_eq_some hdigits, ← hdecimal]
  rfl

/-- The permissions of the schema parse when their kinds do. -/
theorem Permission.parse_of_schema {text : Bytes} (h : permissionSchema text = true)
    (hkind : ∀ digits ∈ stripText (ascii "sign_event:kind:") text, (parseU32 digits).isSome = true) :
    (Permission.parse text).isSome = true := by
  unfold permissionSchema at h
  rcases Bool.or_eq_true_iff.mp h with hplain | hsign
  · have hparses : ∀ text ∈ [ascii "nip04_decrypt", ascii "nip04_encrypt", ascii "nip44_decrypt",
        ascii "nip44_encrypt", ascii "switch_relays"], (Permission.parse text).isSome = true := by
      decide +kernel
    exact hparses text (of_decide_eq_true hplain)
  · obtain ⟨digits, hdigits, hschema⟩ := (Option.any_eq_true _ _).mp hsign
    obtain ⟨kind, hparsed⟩ := Option.isSome_iff_exists.mp (hkind digits hdigits)
    have hlast : ((stripText (ascii "sign_event:kind:") text).bind parseKind).map
        Permission.signEvent = some (.signEvent kind) := by
      rw [hdigits, Option.bind_some, parseKind_of_schema hschema hparsed]
      rfl
    unfold Permission.parse
    repeat' split
    all_goals first | rfl | (rw [hlast]; rfl)

theorem Permission.rank_injective : Function.Injective Permission.rank := by
  intro left right h
  cases left <;> cases right <;> simp only [Permission.rank] at h <;> first | rfl | omega | skip
  case signEvent.signEvent kind other =>
    exact congrArg Permission.signEvent (UInt32.toNat_inj.mp (by omega))
  all_goals
    rename_i kind
    have hlt := kind.toNat_lt
    omega

/-- Distinct permissions, at most as many as a set holds, form a set. -/
theorem PermissionSet.new_isSome {permissions : List Permission} (hlength : permissions.length ≤ 64)
    (hnodup : permissions.Nodup) : (PermissionSet.new permissions).isSome = true := by
  have hperm := Table.ordered_perm (fun left right : Permission => left.rank ≤ right.rank) permissions
  have hsorted : (Table.ordered (fun left right : Permission => left.rank ≤ right.rank)
      permissions).Pairwise fun left right => left.rank ≤ right.rank := by
    have htotal : Std.Total fun left right : Permission =>
        decide (left.rank ≤ right.rank) = true :=
      ⟨fun left right => by simpa using Nat.le_total left.rank right.rank⟩
    have htrans : IsTrans Permission fun left right => decide (left.rank ≤ right.rank) = true :=
      ⟨fun first second third h₁ h₂ => by
        simp only [decide_eq_true_eq] at h₁ h₂ ⊢
        exact Nat.le_trans h₁ h₂⟩
    have hpairs := List.pairwise_insertionSort
      (fun left right : Permission => decide (left.rank ≤ right.rank) = true) permissions
    exact hpairs.imp fun h => of_decide_eq_true h
  have hdistinct := hperm.nodup_iff.mpr hnodup
  have hvalid : permissionsValid (Table.ordered
      (fun left right : Permission => left.rank ≤ right.rank) permissions) = true := by
    unfold permissionsValid
    simp only [Bool.and_eq_true, decide_eq_true_eq]
    refine ⟨by rw [hperm.length_eq]; exact hlength, ?_⟩
    refine (hsorted.and hdistinct).imp fun {left right} h => ?_
    exact Nat.lt_of_le_of_ne h.1 fun heq => h.2 (Permission.rank_injective heq)
  unfold PermissionSet.new
  dsimp only
  rw [dif_pos hvalid]
  rfl

/-! ## What admission establishes -/

/-- A rate limit whose periods are read as integers. -/
def RateLimitRelated (entry : RateLimitEntry) : Prop :=
  ∃ window retention, entry.windowMs.asU64 = some window ∧
    entry.retentionMs.asU64 = some retention ∧ window ≤ retention

/-- What the relationships of a document give its constructors. -/
structure Related (lib : ConfigLibrary) (document : ConfigDocument) : Prop where
  ids : (document.relays.map RelayEntry.id).Nodup
  writer : ∃ relay ∈ document.relays, relay.required = true ∧ relay.write = true
  keys : ∀ key ∈ document.roleKeys, lib.isXOnly key = true
  distinct : document.roleKeys.Nodup
  disjoint : ∀ key ∈ document.policy.trustedClients, key ∉ document.policy.deniedClients
  kinds : ∀ text ∈ document.policy.permissionCeiling,
    ∀ digits ∈ stripText (ascii "sign_event:kind:") text, (parseU32 digits).isSome = true
  challenges : ∀ entry ∈ document.policy.challenges, ∃ pending authorized,
    entry.pendingLifetimeMs.asU64 = some pending ∧
    entry.authorizedLifetimeMs.asU64 = some authorized ∧ pending ≤ authorized
  admission : RateLimitRelated document.connectionAdmission
  creation : RateLimitRelated document.challengeCreation
  authorization : RateLimitRelated document.challengeAuthorization
  backoff : ∃ initial maximum, document.publishRetry.initialBackoffMs.asU64 = some initial ∧
    document.publishRetry.maximumBackoffMs.asU64 = some maximum ∧ initial ≤ maximum
  quorum : ∀ number, document.deliveryPolicy = .requiredQuorum number →
    ∃ required, number.asU64 = some required ∧
      required ≤ (document.relays.filter fun relay => relay.required && relay.write).length
  discovery_bound : document.discovery.isSome = document.discoveryIdentity.isSome
  public_relays : ∀ entry ∈ document.discovery, ∀ id ∈ entry.publicRelayIds,
    ∃ relay ∈ document.relays, relay.id = id
  publish_relays : ∀ entry ∈ document.discovery, ∀ id ∈ entry.publishRelayIds,
    ∃ relay ∈ document.relays, relay.id = id ∧ relay.write = true

/-- The bounds of the schema on what the constructors read. -/
structure Bounded (document : ConfigDocument) : Prop where
  relays_nonempty : document.relays ≠ []
  relays_few : document.relays.length ≤ 32
  relay_ids : ∀ relay ∈ document.relays, relayIdSchema relay.id = true
  retry : document.publishRetry.schemaValid = true
  ceiling_few : document.policy.permissionCeiling.length ≤ 64
  ceiling_distinct : document.policy.permissionCeiling.Nodup
  ceiling : ∀ text ∈ document.policy.permissionCeiling, permissionSchema text = true
  challenges : ∀ entry ∈ document.policy.challenges, entry.schemaValid = true
  retention : ∀ number ∈ [document.policy.retention.terminalConnectionsMs,
    document.policy.retention.terminalChallengesMs, document.policy.retention.requestDedupMs,
    document.policy.retention.auditMs, document.policy.retention.completedOutboxMs],
    number.within 1 31536000000 = true
  admission : document.connectionAdmission.schemaValid = true
  creation : document.challengeCreation.schemaValid = true
  authorization : document.challengeAuthorization.schemaValid = true
  delivery : document.deliveryPolicy.schemaValid = true
  events : document.events.schemaValid = true
  outbox : document.outbox.within 1 65536 = true
  discovery : ∀ entry ∈ document.discovery, entry.schemaValid = true

theorem ConfigDocument.bounded {document : ConfigDocument} (h : document.schemaValid = true) :
    Bounded document := by
  unfold ConfigDocument.schemaValid PolicyEntry.schemaValid RetentionEntry.schemaValid at h
  simp only [Bool.and_eq_true, List.all_eq_true, decide_eq_true_eq, Option.all_eq_true,
    and_assoc] at h
  obtain ⟨-, -, -, hsome, hfew, hrelays, hdelivery, hretry, -, -, -, -, -, hceilingFew,
    hceilingDistinct, hceiling, -, -, -, -, hchallenges, hretention, hadmission, hcreation,
    hauthorization, hevents, houtbox, -, -, hdiscovery⟩ := h
  exact {
    relays_nonempty := List.length_pos_iff.mp hsome
    relays_few := hfew
    relay_ids := fun relay hrelay => (hrelays relay hrelay).1
    retry := hretry
    ceiling_few := hceilingFew
    ceiling_distinct := hceilingDistinct
    ceiling := hceiling
    challenges := hchallenges
    retention := hretention
    admission := hadmission
    creation := hcreation
    authorization := hauthorization
    delivery := hdelivery
    events := hevents
    outbox := houtbox
    discovery := hdiscovery }

theorem validateRelays_ids {lib : ConfigLibrary} {profile : ConfigProfile} {ids urls : List Bytes}
    {relays : List RelayEntry} (h : validateRelays lib profile ids urls relays = .ok ()) :
    (relays.map RelayEntry.id).Nodup ∧ ∀ relay ∈ relays, relay.id ∉ ids := by
  induction relays generalizing ids urls with
  | nil => simp
  | cons relay relays ih =>
      unfold validateRelays at h
      obtain ⟨_, -, h⟩ := Except.bind_eq_ok_iff.mp h
      obtain ⟨_, hfresh, h⟩ := Except.bind_eq_ok_iff.mp h
      obtain ⟨hid, -⟩ := Except.require_eq_ok.mp hfresh
      obtain ⟨hnodup, hothers⟩ := ih h
      refine ⟨List.nodup_cons.mpr ⟨?_, hnodup⟩, ?_⟩
      · intro hmem
        obtain ⟨other, hother, heq⟩ := List.mem_map.mp hmem
        exact hothers other hother (heq ▸ List.mem_cons_self)
      · intro other hother
        rcases List.mem_cons.mp hother with rfl | hother
        · exact hid
        · exact fun hmem => hothers other hother (List.mem_cons_of_mem _ hmem)

theorem integerField_eq_ok {number : Number} {n : ℕ} (h : number.integerField = .ok n) :
    number.asU64 = some n := Except.ofOption_eq_ok.mp h

theorem validateRateLimit_related {scope : RateScope} {entry : RateLimitEntry}
    (h : validateRateLimit scope entry = .ok ()) : RateLimitRelated entry := by
  unfold validateRateLimit at h
  obtain ⟨_, -, h⟩ := Except.bind_eq_ok_iff.mp h
  obtain ⟨retention, hretention, h⟩ := Except.bind_eq_ok_iff.mp h
  obtain ⟨window, hwindow, h⟩ := Except.bind_eq_ok_iff.mp h
  exact ⟨window, retention, integerField_eq_ok hwindow, integerField_eq_ok hretention,
    Except.require_eq_ok.mp h⟩

theorem validateChallenges_related {challenges : Option ChallengesEntry}
    (h : validateChallenges challenges = .ok ()) : ∀ entry ∈ challenges, ∃ pending authorized,
      entry.pendingLifetimeMs.asU64 = some pending ∧
      entry.authorizedLifetimeMs.asU64 = some authorized ∧ pending ≤ authorized := by
  rintro entry rfl
  unfold validateChallenges at h
  obtain ⟨authorized, hauthorized, h⟩ := Except.bind_eq_ok_iff.mp h
  obtain ⟨pending, hpending, h⟩ := Except.bind_eq_ok_iff.mp h
  exact ⟨pending, authorized, integerField_eq_ok hpending, integerField_eq_ok hauthorized,
    Except.require_eq_ok.mp h⟩

theorem validateClientPolicy_related {lib : ConfigLibrary} {policy : PolicyEntry}
    (h : validateClientPolicy lib policy = .ok ()) :
    (∀ key ∈ policy.trustedClients, key ∉ policy.deniedClients) ∧
      ∀ text ∈ policy.permissionCeiling,
        ∀ digits ∈ stripText (ascii "sign_event:kind:") text, (parseU32 digits).isSome = true := by
  unfold validateClientPolicy at h
  obtain ⟨_, hkeys, h⟩ := Except.bind_eq_ok_iff.mp h
  obtain ⟨kinds, hkinds, -⟩ := Except.bind_eq_ok_iff.mp h
  refine ⟨(Except.require_eq_ok.mp hkeys).2, fun text htext digits hdigits => ?_⟩
  have hmem : digits ∈ policy.permissionCeiling.filterMap (stripText (ascii "sign_event:kind:")) :=
    List.mem_filterMap.mpr ⟨text, htext, hdigits⟩
  obtain ⟨kind, hkind⟩ := Except.mapM_mem hkinds digits hmem
  obtain ⟨value, hvalue, -⟩ := Option.map_eq_some_iff.mp (Except.ofOption_eq_ok.mp hkind)
  simp [hvalue]

theorem validateTransport_related {document : ConfigDocument}
    (h : validateTransport document = .ok ()) :
    (∃ initial maximum, document.publishRetry.initialBackoffMs.asU64 = some initial ∧
      document.publishRetry.maximumBackoffMs.asU64 = some maximum ∧ initial ≤ maximum) ∧
    ∀ number, document.deliveryPolicy = .requiredQuorum number →
      ∃ required, number.asU64 = some required ∧
        required ≤ (document.relays.filter fun relay => relay.required && relay.write).length := by
  unfold validateTransport at h
  obtain ⟨initial, hinitial, h⟩ := Except.bind_eq_ok_iff.mp h
  obtain ⟨maximum, hmaximum, h⟩ := Except.bind_eq_ok_iff.mp h
  obtain ⟨_, hle, h⟩ := Except.bind_eq_ok_iff.mp h
  refine ⟨⟨initial, maximum, integerField_eq_ok hinitial, integerField_eq_ok hmaximum,
    Except.require_eq_ok.mp hle⟩, fun number hpolicy => ?_⟩
  rw [hpolicy] at h
  unfold validateQuorum at h
  obtain ⟨required, hrequired, h⟩ := Except.bind_eq_ok_iff.mp h
  exact ⟨required, integerField_eq_ok hrequired, Except.require_eq_ok.mp h⟩

theorem referencesRelays_mem {relays : List RelayEntry} {capability : RelayEntry → Bool}
    {ids : List Bytes} (h : referencesRelays relays capability ids = true) :
    ∀ id ∈ ids, ∃ relay ∈ relays, relay.id = id ∧ capability relay = true := by
  intro id hid
  obtain ⟨relay, hrelay, hboth⟩ := List.any_eq_true.mp (List.all_eq_true.mp h id hid)
  simp only [Bool.and_eq_true, beq_iff_eq] at hboth
  exact ⟨relay, hrelay, hboth.1, hboth.2⟩

theorem validateDiscovery_related {document : ConfigDocument}
    (h : validateDiscovery document = .ok ()) :
    document.discovery.isSome = document.discoveryIdentity.isSome ∧
      ∀ entry ∈ document.discovery,
        (∀ id ∈ entry.publicRelayIds, ∃ relay ∈ document.relays, relay.id = id) ∧
        ∀ id ∈ entry.publishRelayIds,
          ∃ relay ∈ document.relays, relay.id = id ∧ relay.write = true := by
  unfold validateDiscovery at h
  obtain ⟨_, hbound, h⟩ := Except.bind_eq_ok_iff.mp h
  refine ⟨Except.require_eq_ok.mp hbound, fun entry hentry => ?_⟩
  rw [Option.mem_def.mp hentry] at h
  obtain ⟨hpublic, hpublish⟩ := Except.require_eq_ok.mp h
  refine ⟨fun id hid => ?_, referencesRelays_mem hpublish⟩
  obtain ⟨relay, hrelay, hrelayId, -⟩ := referencesRelays_mem hpublic id hid
  exact ⟨relay, hrelay, hrelayId⟩

/-- An admitted document satisfies the relationships. -/
theorem ConfigDocument.related {lib : ConfigLibrary} {profile : ConfigProfile}
    {document : ConfigDocument} (h : document.validateRelationships lib profile = .ok ()) :
    Related lib document := by
  unfold ConfigDocument.validateRelationships at h
  obtain ⟨_, hrelays, h⟩ := Except.bind_eq_ok_iff.mp h
  obtain ⟨_, hcapable, h⟩ := Except.bind_eq_ok_iff.mp h
  obtain ⟨_, hkeys, h⟩ := Except.bind_eq_ok_iff.mp h
  obtain ⟨_, hclients, h⟩ := Except.bind_eq_ok_iff.mp h
  obtain ⟨_, hchallenges, h⟩ := Except.bind_eq_ok_iff.mp h
  obtain ⟨_, hadmission, h⟩ := Except.bind_eq_ok_iff.mp h
  obtain ⟨_, hcreation, h⟩ := Except.bind_eq_ok_iff.mp h
  obtain ⟨_, hauthorization, h⟩ := Except.bind_eq_ok_iff.mp h
  obtain ⟨_, htransport, hdiscovery⟩ := Except.bind_eq_ok_iff.mp h
  obtain ⟨-, -, -, hwriter⟩ := Except.require_eq_ok.mp hcapable
  obtain ⟨hxonly, hdistinct⟩ := Except.require_eq_ok.mp hkeys
  obtain ⟨hdisjoint, hkinds⟩ := validateClientPolicy_related hclients
  obtain ⟨hbackoff, hquorum⟩ := validateTransport_related htransport
  obtain ⟨hbound, hreferences⟩ := validateDiscovery_related hdiscovery
  obtain ⟨relay, hrelay, hboth⟩ := List.any_eq_true.mp hwriter
  exact {
    ids := (validateRelays_ids hrelays).1
    writer := ⟨relay, hrelay, Bool.and_eq_true_iff.mp hboth⟩
    keys := hxonly
    distinct := hdistinct
    disjoint := hdisjoint
    kinds := hkinds
    challenges := validateChallenges_related hchallenges
    admission := validateRateLimit_related hadmission
    creation := validateRateLimit_related hcreation
    authorization := validateRateLimit_related hauthorization
    backoff := hbackoff
    quorum := hquorum
    discovery_bound := hbound
    public_relays := fun entry hentry => (hreferences entry hentry).1
    publish_relays := fun entry hentry => (hreferences entry hentry).2 }

/-! ## The second reading -/

/-- The numbers that only the constructors read as integers. -/
def ConfigDocument.reread (document : ConfigDocument) : List Number :=
  [document.connectionAdmission.maxAttempts, document.connectionAdmission.maximumTrackedSubjects,
    document.challengeCreation.maxAttempts, document.challengeCreation.maximumTrackedSubjects,
    document.challengeAuthorization.maxAttempts,
    document.challengeAuthorization.maximumTrackedSubjects,
    document.policy.retention.auditMs, document.policy.retention.terminalConnectionsMs,
    document.policy.retention.terminalChallengesMs, document.policy.retention.requestDedupMs,
    document.policy.retention.completedOutboxMs, document.publishRetry.maxAttempts,
    document.publishRetry.attemptDeadlineMs, document.outbox, document.events.wireBytes,
    document.events.contentBytes, document.events.tagCount, document.events.tagTotalElements,
    document.events.tagElementBytes, document.events.tagTotalBytes,
    document.events.decryptedPlaintextBytes]

/-- The URL is the canonical text of an HTTPS URL (or of a loopback one) without credentials
and fragment. -/
def canonicalChallengeUrl (lib : ConfigLibrary) (value : Bytes) : Bool :=
  (lib.parseUrl value).any fun url =>
    (url.scheme == ascii "https" || (url.scheme == ascii "http" && url.host.any Host.isLoopback)) &&
      url.username == [] && url.password == none && url.fragment == none && url.text == value

/-- The constructors read the document as admission did: what they read as integers is written
so, and a challenge URL is canonical. -/
def ConfigDocument.writtenForConstructors (lib : ConfigLibrary) (document : ConfigDocument) : Bool :=
  document.reread.all Number.isWritten &&
    document.policy.challenges.all fun entry => canonicalChallengeUrl lib entry.url

/-! ## The constructors -/

theorem RateLimitPolicy.new_class {rateClass : RateLimitClass}
    {windowMs maxAttempts retentionMs maximumTrackedSubjects : ℕ} {policy : RateLimitPolicy}
    (h : RateLimitPolicy.new rateClass windowMs maxAttempts retentionMs maximumTrackedSubjects =
      some policy) : policy.rateClass = rateClass := by
  unfold RateLimitPolicy.new at h
  split at h
  next =>
    obtain rfl := Option.some.inj h
    rfl
  next => cases h

theorem rateLimitPolicy_class {rateClass : RateLimitClass} {entry : RateLimitEntry}
    {policy : RateLimitPolicy} (h : rateLimitPolicy rateClass entry = some policy) :
    policy.rateClass = rateClass := by
  unfold rateLimitPolicy at h
  obtain ⟨_, -, h⟩ := Option.bind_eq_some_iff.mp h
  obtain ⟨_, -, h⟩ := Option.bind_eq_some_iff.mp h
  obtain ⟨_, -, h⟩ := Option.bind_eq_some_iff.mp h
  obtain ⟨_, -, h⟩ := Option.bind_eq_some_iff.mp h
  exact RateLimitPolicy.new_class h

theorem rateLimitPolicy_iff {rateClass : RateLimitClass} {entry : RateLimitEntry}
    (hschema : entry.schemaValid = true) (hrelated : RateLimitRelated entry) :
    (∃ policy, rateLimitPolicy rateClass entry = some policy) ↔
      entry.maxAttempts.isWritten = true ∧ entry.maximumTrackedSubjects.isWritten = true := by
  unfold RateLimitEntry.schemaValid at hschema
  simp only [Bool.and_eq_true] at hschema
  obtain ⟨⟨⟨hwindow, hattempts⟩, hretention⟩, hsubjects⟩ := hschema
  obtain ⟨window, retention, hwindowRead, hretentionRead, hle⟩ := hrelated
  constructor
  · rintro ⟨policy, hpolicy⟩
    unfold rateLimitPolicy at hpolicy
    obtain ⟨_, -, hpolicy⟩ := Option.bind_eq_some_iff.mp hpolicy
    obtain ⟨_, hattemptsRead, hpolicy⟩ := Option.bind_eq_some_iff.mp hpolicy
    obtain ⟨_, -, hpolicy⟩ := Option.bind_eq_some_iff.mp hpolicy
    obtain ⟨_, hsubjectsRead, -⟩ := Option.bind_eq_some_iff.mp hpolicy
    exact ⟨Number.isWritten_of_asU64 (Number.asU64_of_asU32 hattemptsRead),
      Number.isWritten_of_asU64 (Number.asU64_of_asU32 hsubjectsRead)⟩
  · rintro ⟨hattemptsWritten, hsubjectsWritten⟩
    obtain ⟨attempts, hattemptsRead, hattemptsBounds⟩ :=
      Number.asU64_of_within hattempts hattemptsWritten
    obtain ⟨subjects, hsubjectsRead, hsubjectsBounds⟩ :=
      Number.asU64_of_within hsubjects hsubjectsWritten
    have hwindowBounds := Number.within_bounds hwindow hwindowRead
    have hretentionBounds := Number.within_bounds hretention hretentionRead
    have hvalid : rateLimitPolicyValid window attempts retention subjects = true := by
      simp only [rateLimitPolicyValid, Bool.and_eq_true, decide_eq_true_eq]
      omega
    refine ⟨⟨rateClass, window, attempts, retention, subjects, hvalid⟩, ?_⟩
    unfold rateLimitPolicy
    rw [hwindowRead, Number.asU32_of_asU64 hattemptsRead (by omega), hretentionRead,
      Number.asU32_of_asU64 hsubjectsRead (by omega)]
    exact dif_pos hvalid

/-- Every relay of an admitted document has an identifier. -/
theorem relayIds_exist {relays : List RelayEntry}
    (hschema : ∀ relay ∈ relays, relayIdSchema relay.id = true) :
    ∃ ids, (relays.mapM fun relay => RelayId.new relay.id) = some ids :=
  Option.exists_mapM fun relay hrelay => by rw [RelayId.new_of_schema (hschema relay hrelay)]; rfl

theorem governancePolicies_iff {lib : ConfigLibrary} {document : ConfigDocument}
    (hbounded : Bounded document) (hrelated : Related lib document) :
    (∃ policies, governancePolicies document = some policies) ↔
      (document.connectionAdmission.maxAttempts.isWritten = true ∧
        document.connectionAdmission.maximumTrackedSubjects.isWritten = true) ∧
      (document.challengeCreation.maxAttempts.isWritten = true ∧
        document.challengeCreation.maximumTrackedSubjects.isWritten = true) ∧
      (document.challengeAuthorization.maxAttempts.isWritten = true ∧
        document.challengeAuthorization.maximumTrackedSubjects.isWritten = true) ∧
      document.policy.retention.auditMs.isWritten = true := by
  constructor
  · rintro ⟨policies, h⟩
    unfold governancePolicies at h
    obtain ⟨_, -, h⟩ := Option.bind_eq_some_iff.mp h
    obtain ⟨admission, hadmission, h⟩ := Option.bind_eq_some_iff.mp h
    obtain ⟨creation, hcreation, h⟩ := Option.bind_eq_some_iff.mp h
    obtain ⟨authorization, hauthorization, h⟩ := Option.bind_eq_some_iff.mp h
    obtain ⟨_, haudit, -⟩ := Option.bind_eq_some_iff.mp h
    exact ⟨(rateLimitPolicy_iff hbounded.admission hrelated.admission).mp ⟨_, hadmission⟩,
      (rateLimitPolicy_iff hbounded.creation hrelated.creation).mp ⟨_, hcreation⟩,
      (rateLimitPolicy_iff hbounded.authorization hrelated.authorization).mp ⟨_, hauthorization⟩,
      Number.isWritten_of_asU64 haudit⟩
  · rintro ⟨hadmission, hcreation, hauthorization, haudit⟩
    obtain ⟨ids, hids⟩ := relayIds_exist hbounded.relay_ids
    obtain ⟨admission, hadmission⟩ : ∃ policy,
        rateLimitPolicy .connectionAdmission document.connectionAdmission = some policy :=
      (rateLimitPolicy_iff hbounded.admission hrelated.admission).mpr hadmission
    obtain ⟨creation, hcreation⟩ : ∃ policy,
        rateLimitPolicy .challengeCreation document.challengeCreation = some policy :=
      (rateLimitPolicy_iff hbounded.creation hrelated.creation).mpr hcreation
    obtain ⟨authorization, hauthorization⟩ : ∃ policy,
        rateLimitPolicy .challengeAuthorization document.challengeAuthorization = some policy :=
      (rateLimitPolicy_iff hbounded.authorization hrelated.authorization).mpr hauthorization
    obtain ⟨audit, haudit, hauditBounds⟩ :=
      Number.asU64_of_within (hbounded.retention _ (by simp)) haudit
    have hnonempty : ids ≠ [] := by
      rintro rfl
      exact hbounded.relays_nonempty (List.length_eq_zero_iff.mp (Option.length_of_mapM hids).symm)
    unfold governancePolicies
    rw [hids, hadmission, hcreation, hauthorization, haudit]
    exact ⟨_, dif_pos ⟨⟨rateLimitPolicy_class hadmission, rateLimitPolicy_class hcreation,
      rateLimitPolicy_class hauthorization⟩, hauditBounds, hnonempty⟩⟩

/-- The ceiling of an admitted document is a set of permissions. -/
theorem permissionCeiling_exists {lib : ConfigLibrary} {document : ConfigDocument}
    (hbounded : Bounded document) (hrelated : Related lib document) :
    ∃ permissions ceiling, document.policy.permissionCeiling.mapM Permission.parse =
      some permissions ∧ PermissionSet.new permissions = some ceiling := by
  obtain ⟨permissions, hparsed⟩ := Option.exists_mapM fun text htext =>
    Permission.parse_of_schema (hbounded.ceiling text htext) (hrelated.kinds text htext)
  have hcodes : permissions.map Permission.code = document.policy.permissionCeiling.map id :=
    Option.map_of_mapM hparsed fun text _ permission h => Permission.code_of_parse h
  have hdistinct : permissions.Nodup := by
    refine List.Nodup.of_map Permission.code ?_
    rw [hcodes, List.map_id]
    exact hbounded.ceiling_distinct
  have hfew : permissions.length ≤ 64 := by
    rw [Option.length_of_mapM hparsed]
    exact hbounded.ceiling_few
  obtain ⟨ceiling, hceiling⟩ :=
    Option.isSome_iff_exists.mp (PermissionSet.new_isSome hfew hdistinct)
  exact ⟨permissions, ceiling, hparsed, hceiling⟩

theorem challengeUrl_iff {lib : ConfigLibrary} {value : Bytes} (h : httpsUrlSchema value = true) :
    (∃ url, ChallengeUrl.new lib value = some url) ↔ canonicalChallengeUrl lib value = true := by
  unfold httpsUrlSchema at h
  simp only [Bool.and_eq_true, decide_eq_true_eq] at h
  unfold ChallengeUrl.new canonicalChallengeUrl
  cases lib.parseUrl value with
  | none => simp
  | some url => simp [h.1, and_assoc]

theorem challengePolicy_iff {lib : ConfigLibrary} {entry : ChallengesEntry}
    (hschema : entry.schemaValid = true)
    (hrelated : ∃ pending authorized, entry.pendingLifetimeMs.asU64 = some pending ∧
      entry.authorizedLifetimeMs.asU64 = some authorized ∧ pending ≤ authorized) :
    (∃ policy, challengePolicy lib entry = some policy) ↔
      canonicalChallengeUrl lib entry.url = true := by
  unfold ChallengesEntry.schemaValid at hschema
  simp only [Bool.and_eq_true] at hschema
  obtain ⟨⟨hurl, hpendingBound⟩, hauthorizedBound⟩ := hschema
  obtain ⟨pending, authorized, hpending, hauthorized, hle⟩ := hrelated
  have hpendingBounds := Number.within_bounds hpendingBound hpending
  have hauthorizedBounds := Number.within_bounds hauthorizedBound hauthorized
  have hmax : 2592000000 ≤ i64Max := by decide
  rw [← challengeUrl_iff hurl]
  constructor
  · rintro ⟨policy, h⟩
    unfold challengePolicy at h
    obtain ⟨url, hnew, -⟩ := Option.bind_eq_some_iff.mp h
    exact ⟨url, hnew⟩
  · rintro ⟨url, hnew⟩
    unfold challengePolicy
    rw [hnew, Number.positive_of_asU64 hpending (by omega) (by omega),
      Number.positive_of_asU64 hauthorized (by omega) (by omega)]
    exact ⟨_, dif_pos ⟨by omega, hle, by omega⟩⟩

theorem optionalChallenge_iff {lib : ConfigLibrary} {document : ConfigDocument}
    (hbounded : Bounded document) (hrelated : Related lib document) :
    (∃ challenge, optionalChallenge lib document.policy.challenges = some challenge) ↔
      (document.policy.challenges.all fun entry => canonicalChallengeUrl lib entry.url) = true := by
  cases hchallenges : document.policy.challenges with
  | none => simp [optionalChallenge]
  | some entry =>
      simp only [optionalChallenge, Option.map_eq_some_iff, Option.all_some]
      rw [← challengePolicy_iff (hbounded.challenges entry hchallenges)
        (hrelated.challenges entry hchallenges)]
      constructor
      · rintro ⟨_, policy, hpolicy, -⟩
        exact ⟨policy, hpolicy⟩
      · rintro ⟨policy, hpolicy⟩
        exact ⟨_, policy, hpolicy, rfl⟩

theorem Number.positive_iff {number : Number} (h : number.within 1 31536000000 = true) :
    (∃ n, number.positive = some n) ↔ number.isWritten = true := by
  constructor
  · rintro ⟨n, hn⟩
    exact Number.isWritten_of_asU64 (Option.filter_eq_some_iff.mp hn).1
  · intro hwritten
    obtain ⟨n, hn, hlow, hhigh⟩ := Number.asU64_of_within h hwritten
    have hmax : 31536000000 ≤ i64Max := by decide
    exact ⟨n, Number.positive_of_asU64 hn hlow (by omega)⟩

theorem retentionPolicy_iff {document : ConfigDocument} (hbounded : Bounded document) :
    (∃ periods, retentionPolicy document.policy.retention = some periods) ↔
      document.policy.retention.terminalConnectionsMs.isWritten = true ∧
      document.policy.retention.terminalChallengesMs.isWritten = true ∧
      document.policy.retention.requestDedupMs.isWritten = true ∧
      document.policy.retention.completedOutboxMs.isWritten = true := by
  rw [← Number.positive_iff (hbounded.retention document.policy.retention.terminalConnectionsMs
      (by simp)),
    ← Number.positive_iff (hbounded.retention document.policy.retention.terminalChallengesMs
      (by simp)),
    ← Number.positive_iff (hbounded.retention document.policy.retention.requestDedupMs (by simp)),
    ← Number.positive_iff (hbounded.retention document.policy.retention.completedOutboxMs
      (by simp))]
  unfold retentionPolicy
  constructor
  · rintro ⟨periods, h⟩
    obtain ⟨connections, hconnections, h⟩ := Option.bind_eq_some_iff.mp h
    obtain ⟨challenges, hchallenges, h⟩ := Option.bind_eq_some_iff.mp h
    obtain ⟨dedup, hdedup, h⟩ := Option.bind_eq_some_iff.mp h
    obtain ⟨outbox, houtbox, -⟩ := Option.bind_eq_some_iff.mp h
    exact ⟨⟨_, hconnections⟩, ⟨_, hchallenges⟩, ⟨_, hdedup⟩, ⟨_, houtbox⟩⟩
  · rintro ⟨⟨connections, hconnections⟩, ⟨challenges, hchallenges⟩, ⟨dedup, hdedup⟩,
      outbox, houtbox⟩
    rw [hconnections, hchallenges, hdedup, houtbox]
    exact ⟨_, rfl⟩

theorem connectionPolicies_iff {lib : ConfigLibrary} {document : ConfigDocument}
    (hbounded : Bounded document) (hrelated : Related lib document) :
    (∃ policies, connectionPolicies lib document.policy = some policies) ↔
      (document.policy.challenges.all fun entry => canonicalChallengeUrl lib entry.url) = true ∧
      document.policy.retention.terminalConnectionsMs.isWritten = true ∧
      document.policy.retention.terminalChallengesMs.isWritten = true ∧
      document.policy.retention.requestDedupMs.isWritten = true ∧
      document.policy.retention.completedOutboxMs.isWritten = true := by
  rw [← optionalChallenge_iff hbounded hrelated, ← retentionPolicy_iff hbounded]
  unfold connectionPolicies
  constructor
  · rintro ⟨policies, h⟩
    obtain ⟨_, -, h⟩ := Option.bind_eq_some_iff.mp h
    obtain ⟨_, -, h⟩ := Option.bind_eq_some_iff.mp h
    obtain ⟨challenge, hchallenge, h⟩ := Option.bind_eq_some_iff.mp h
    obtain ⟨periods, hperiods, -⟩ := Option.bind_eq_some_iff.mp h
    exact ⟨⟨challenge, hchallenge⟩, periods, hperiods⟩
  · rintro ⟨⟨challenge, hchallenge⟩, periods, hperiods⟩
    obtain ⟨permissions, ceiling, hparsed, hceiling⟩ := permissionCeiling_exists hbounded hrelated
    rw [hparsed, hchallenge, hperiods]
    simp only [Option.bind_eq_bind, Option.bind_some, hceiling]
    exact ⟨_, dif_pos hrelated.disjoint⟩

/-- The targets of an admitted document: its write relays, each once. -/
theorem targets_exist {document : ConfigDocument} (hbounded : Bounded document) :
    ∃ targets, (document.relays.filter RelayEntry.write).mapM targetPolicy = some targets ∧
      targets.map (fun target => target.relayId.bytes) =
        (document.relays.filter RelayEntry.write).map RelayEntry.id ∧
      targets.map TargetPolicy.required =
        (document.relays.filter RelayEntry.write).map RelayEntry.required := by
  obtain ⟨targets, htargets⟩ :
      ∃ targets, (document.relays.filter RelayEntry.write).mapM targetPolicy = some targets := by
    refine Option.exists_mapM fun relay hrelay => ?_
    unfold targetPolicy
    rw [RelayId.new_of_schema (hbounded.relay_ids relay (List.mem_of_mem_filter hrelay))]
    rfl
  refine ⟨targets, htargets, Option.map_of_mapM htargets fun relay _ target h => ?_,
    Option.map_of_mapM htargets fun relay _ target h => ?_⟩
  · obtain ⟨id, hid, rfl⟩ := Option.map_eq_some_iff.mp h
    exact RelayId.new_eq_some hid
  · obtain ⟨id, -, rfl⟩ := Option.map_eq_some_iff.mp h
    rfl

/-- What `MycDeliveryPolicies::new` requires, on the targets in any order. -/
theorem DeliveryPolicies.new_exists {mode : PolicyMode} {quorum : Option ℕ}
    {maxAttempts initialBackoffMs maximumBackoffMs attemptDeadlineMs outboxMaximum : ℕ}
    {targets : List TargetPolicy} (hfew : targets.length ≤ 32)
    (hdistinct : (targets.map TargetPolicy.relayId).Nodup)
    (hrequired : 1 ≤ (targets.filter TargetPolicy.required).length)
    (hquorum : mode = .requiredQuorum → ∃ required, quorum = some required ∧ 1 ≤ required ∧
      required ≤ (targets.filter TargetPolicy.required).length)
    (hattempts : 1 ≤ maxAttempts ∧ maxAttempts ≤ 32)
    (hbackoff : 1 ≤ initialBackoffMs ∧ initialBackoffMs ≤ maximumBackoffMs ∧
      maximumBackoffMs ≤ 300000)
    (hdeadline : 1 ≤ attemptDeadlineMs ∧ attemptDeadlineMs ≤ 30000)
    (houtbox : 1 ≤ outboxMaximum ∧ outboxMaximum ≤ 65536) :
    ∃ policies, DeliveryPolicies.new mode quorum maxAttempts initialBackoffMs maximumBackoffMs
      attemptDeadlineMs outboxMaximum targets = some policies := by
  have hperm := Table.ordered_perm
    (fun left right : TargetPolicy => left.relayId.bytes ≤ right.relayId.bytes) targets
  have hcount := (hperm.filter TargetPolicy.required).length_eq
  have hlength := hperm.length_eq
  have hsorted := (hperm.map TargetPolicy.relayId).nodup_iff.mpr hdistinct
  have hle := List.length_filter_le TargetPolicy.required targets
  unfold DeliveryPolicies.new
  generalize Table.ordered _ targets = ordered at hcount hlength hsorted
  have hnonempty : ordered ≠ [] := by
    rintro rfl
    simp only [List.length_nil] at hlength
    omega
  have hvalid : ∀ acknowledgements, 1 ≤ acknowledgements →
      acknowledgements ≤ (ordered.filter TargetPolicy.required).length →
      deliveryPolicyValid acknowledgements maxAttempts initialBackoffMs maximumBackoffMs
        attemptDeadlineMs outboxMaximum ordered = true := by
    intro acknowledgements hpos hbound
    simp only [deliveryPolicyValid, Bool.and_eq_true, decide_eq_true_eq, bne_iff_ne,
      Bool.not_eq_true', List.isEmpty_eq_false_iff]
    refine ⟨⟨⟨⟨⟨⟨⟨⟨⟨⟨⟨⟨hnonempty, by omega⟩, hsorted⟩, by omega⟩, by omega⟩, by omega⟩,
      hattempts⟩, by omega⟩, by omega⟩, by omega⟩, by omega⟩, by omega⟩, houtbox⟩
  cases mode with
  | allRequired =>
      exact ⟨_, dif_pos (hvalid (ordered.filter TargetPolicy.required).length (by omega) le_rfl)⟩
  | atLeastOneRequired => exact ⟨_, dif_pos (hvalid 1 le_rfl (by omega))⟩
  | requiredQuorum =>
      obtain ⟨required, rfl, hpos, hbound⟩ := hquorum rfl
      exact ⟨_, dif_pos (hvalid required hpos (by omega))⟩

/-- The configured quorum of an admitted document is read as it was checked. -/
theorem quorum_exists {lib : ConfigLibrary} {document : ConfigDocument}
    (hbounded : Bounded document) (hrelated : Related lib document) :
    ∃ quorum, document.deliveryPolicy.quorum = some quorum ∧
      (document.deliveryPolicy.mode = .requiredQuorum → ∃ required, quorum = some required ∧
        1 ≤ required ∧
        required ≤ (document.relays.filter fun relay => relay.required && relay.write).length) := by
  have hschema := hbounded.delivery
  have hquorum := hrelated.quorum
  cases hpolicy : document.deliveryPolicy with
  | allRequired => exact ⟨none, rfl, fun h => by cases h⟩
  | atLeastOneRequired => exact ⟨none, rfl, fun h => by cases h⟩
  | requiredQuorum number =>
      obtain ⟨required, hread, hle⟩ := hquorum number hpolicy
      rw [hpolicy] at hschema
      have hbounds := Number.within_bounds hschema hread
      refine ⟨some required, ?_, fun _ => ⟨required, rfl, hbounds.1, hle⟩⟩
      simp only [DeliveryPolicyEntry.quorum, Number.asU32_of_asU64 hread (by omega), Option.map_some]

theorem deliveryPolicies_iff {lib : ConfigLibrary} {document : ConfigDocument}
    (hbounded : Bounded document) (hrelated : Related lib document) :
    (∃ policies, deliveryPolicies document = some policies) ↔
      document.publishRetry.maxAttempts.isWritten = true ∧
      document.publishRetry.attemptDeadlineMs.isWritten = true ∧
      document.outbox.isWritten = true := by
  have hretry := hbounded.retry
  unfold PublishRetry.schemaValid at hretry
  simp only [Bool.and_eq_true] at hretry
  obtain ⟨⟨⟨hattempts, hinitial⟩, hmaximum⟩, hdeadline⟩ := hretry
  constructor
  · rintro ⟨policies, h⟩
    unfold deliveryPolicies at h
    obtain ⟨_, -, h⟩ := Option.bind_eq_some_iff.mp h
    obtain ⟨_, -, h⟩ := Option.bind_eq_some_iff.mp h
    obtain ⟨_, hattemptsRead, h⟩ := Option.bind_eq_some_iff.mp h
    obtain ⟨_, -, h⟩ := Option.bind_eq_some_iff.mp h
    obtain ⟨_, -, h⟩ := Option.bind_eq_some_iff.mp h
    obtain ⟨_, hdeadlineRead, h⟩ := Option.bind_eq_some_iff.mp h
    obtain ⟨_, houtboxRead, -⟩ := Option.bind_eq_some_iff.mp h
    exact ⟨Number.isWritten_of_asU64 (Number.asU64_of_asU32 hattemptsRead),
      Number.isWritten_of_asU64 hdeadlineRead, Number.isWritten_of_asU64 houtboxRead⟩
  · rintro ⟨hattemptsWritten, hdeadlineWritten, houtboxWritten⟩
    obtain ⟨quorum, hquorum, hacknowledgements⟩ := quorum_exists hbounded hrelated
    obtain ⟨targets, htargets, hids, hmarks⟩ := targets_exist hbounded
    obtain ⟨attempts, hattemptsRead, hattemptsBounds⟩ :=
      Number.asU64_of_within hattempts hattemptsWritten
    obtain ⟨initial, maximum, hinitialRead, hmaximumRead, hle⟩ := hrelated.backoff
    obtain ⟨deadline, hdeadlineRead, hdeadlineBounds⟩ :=
      Number.asU64_of_within hdeadline hdeadlineWritten
    obtain ⟨outbox, houtboxRead, houtboxBounds⟩ :=
      Number.asU64_of_within hbounded.outbox houtboxWritten
    have hinitialBounds := Number.within_bounds hinitial hinitialRead
    have hmaximumBounds := Number.within_bounds hmaximum hmaximumRead
    have hcount := List.length_filter_eq_of_map hmarks
    rw [List.filter_filter] at hcount
    have hfew : targets.length ≤ 32 := by
      rw [Option.length_of_mapM htargets]
      exact (List.length_filter_le _ _).trans hbounded.relays_few
    have hdistinct : (targets.map TargetPolicy.relayId).Nodup := by
      refine List.Nodup.of_map RelayId.bytes ?_
      rw [List.map_map]
      refine (congrArg List.Nodup hids).mpr ?_
      exact hrelated.ids.sublist (List.filter_sublist.map _)
    have hrequired : 1 ≤ (targets.filter TargetPolicy.required).length := by
      obtain ⟨relay, hrelay, hboth⟩ := hrelated.writer
      rw [hcount]
      exact List.length_pos_of_mem (List.mem_filter.mpr ⟨hrelay, by simp [hboth]⟩)
    unfold deliveryPolicies
    rw [hquorum, htargets, Number.asU32_of_asU64 hattemptsRead (by omega), hinitialRead,
      hmaximumRead, hdeadlineRead, houtboxRead]
    refine DeliveryPolicies.new_exists hfew hdistinct hrequired (fun hmode => ?_) hattemptsBounds
      ⟨hinitialBounds.1, hle, hmaximumBounds.2⟩ hdeadlineBounds houtboxBounds
    rw [hcount]
    exact hacknowledgements hmode

theorem expectedIdentities_eq {lib : ConfigLibrary} {document : ConfigDocument}
    (hrelated : Related lib document) : expectedIdentities lib document =
      some ⟨document.transport.expectedPublicKey, document.user.expectedPublicKey,
        document.discoveryIdentity.map ProviderEntry.expectedPublicKey⟩ :=
  if_pos (List.all_eq_true.mpr hrelated.keys)

/-- The parsers accept the URLs of the document: those of its relays, and the URL that is
rendered for its handler. -/
structure UrlsAccepted (lib : ConfigLibrary) (document : ConfigDocument) : Prop where
  relays : ∀ relay ∈ document.relays, lib.isRelayUrl relay.url = true
  rendered : ∀ entry ∈ document.discovery, ∀ urls,
    entry.publicRelayIds.mapM (publicRelayUrl lib document.relays) = some urls →
    (renderNostrconnectUrl lib entry.nostrconnectUrlTemplate document.user.expectedPublicKey
      urls).isSome = true

theorem publicRelayUrl_isSome {lib : ConfigLibrary} {relays : List RelayEntry} {id : Bytes}
    (haccepted : ∀ relay ∈ relays, lib.isRelayUrl relay.url = true)
    (hlisted : ∃ relay ∈ relays, relay.id = id) :
    (publicRelayUrl lib relays id).isSome = true := by
  obtain ⟨relay, hrelay, hid⟩ := hlisted
  have hfound : (relays.reverse.find? fun relay => relay.id == id).isSome = true := by
    rw [List.find?_isSome]
    exact ⟨relay, List.mem_reverse.mpr hrelay, by simp [hid]⟩
  obtain ⟨found, hfound⟩ := Option.isSome_iff_exists.mp hfound
  have hmem := List.mem_reverse.mp (List.mem_of_find?_eq_some hfound)
  unfold publicRelayUrl
  rw [hfound, Option.map_some, Option.filter_some, if_pos (haccepted found hmem)]
  rfl

theorem discoveryPolicy_iff {lib : ConfigLibrary} {document : ConfigDocument}
    {identities : ExpectedIdentities} {entry : DiscoveryEntry} {author : PublicKey}
    {urls : List Bytes} {url : Bytes} (hauthor : identities.discovery = some author)
    (hurls : entry.publicRelayIds.mapM (publicRelayUrl lib document.relays) = some urls)
    (hsome : urls ≠ []) (hurl : renderNostrconnectUrl lib entry.nostrconnectUrlTemplate
      (ConfigDocument.advertisedSigner identities) urls = some url)
    (hnamed : entry.domain ≠ [] ∧ entry.handlerIdentifier ≠ [])
    (hwire : document.events.wireBytes.within 1 524288 = true) :
    (∃ policy, document.discoveryPolicy lib identities entry = some policy) ↔
      document.events.wireBytes.isWritten = true := by
  constructor
  · rintro ⟨policy, h⟩
    unfold ConfigDocument.discoveryPolicy at h
    obtain ⟨_, -, h⟩ := Option.bind_eq_some_iff.mp h
    obtain ⟨_, -, h⟩ := Option.bind_eq_some_iff.mp h
    obtain ⟨_, -, h⟩ := Option.bind_eq_some_iff.mp h
    obtain ⟨_, -, h⟩ := Option.bind_eq_some_iff.mp h
    obtain ⟨_, hwireRead, -⟩ := Option.bind_eq_some_iff.mp h
    exact Number.isWritten_of_asU64 hwireRead
  · intro hwritten
    obtain ⟨wireBytes, hwireRead, hwireBounds⟩ := Number.asU64_of_within hwire hwritten
    unfold ConfigDocument.discoveryPolicy
    rw [hauthor, hurls, hwireRead]
    simp only [Option.bind_eq_bind, Option.bind_some, guard, if_pos hsome, if_pos hnamed, pure,
      hurl]
    exact ⟨_, dif_pos hwireBounds⟩

theorem discoveryPolicies_iff {lib : ConfigLibrary} {document : ConfigDocument}
    {identities : ExpectedIdentities} (hbounded : Bounded document)
    (hrelated : Related lib document) (haccepted : UrlsAccepted lib document)
    (hidentities : expectedIdentities lib document = some identities) :
    (∃ policies, document.discoveryPolicies lib identities = some policies) ↔
      (document.discovery.isSome = true → document.events.wireBytes.isWritten = true) := by
  rw [expectedIdentities_eq hrelated] at hidentities
  have hread := Option.some.inj hidentities
  have huser : identities.user = document.user.expectedPublicKey := by rw [← hread]
  unfold ConfigDocument.discoveryPolicies
  cases hdiscovery : document.discovery with
  | none => simp
  | some entry =>
      have hbound := hrelated.discovery_bound
      rw [hdiscovery, Option.isSome_some] at hbound
      obtain ⟨provider, hprovider⟩ := Option.isSome_iff_exists.mp hbound.symm
      have hauthor : identities.discovery = some provider.expectedPublicKey := by
        rw [← hread, hprovider]
        rfl
      have hschema := hbounded.discovery entry hdiscovery
      unfold DiscoveryEntry.schemaValid at hschema
      simp only [Bool.and_eq_true, decide_eq_true_eq, and_assoc] at hschema
      obtain ⟨hdomain, -, -, -, hhandler, hpublic, -⟩ := hschema
      have hevents := hbounded.events
      unfold EventLimitsEntry.schemaValid at hevents
      simp only [Bool.and_eq_true, and_assoc] at hevents
      obtain ⟨urls, hurls⟩ := Option.exists_mapM fun id hid =>
        publicRelayUrl_isSome haccepted.relays (hrelated.public_relays entry hdiscovery id hid)
      obtain ⟨url, hurl⟩ :=
        Option.isSome_iff_exists.mp (haccepted.rendered entry hdiscovery urls hurls)
      rw [← huser] at hurl
      have hsome : urls ≠ [] := by
        rintro rfl
        have hlength := Option.length_of_mapM hurls
        simp only [List.length_nil] at hlength
        omega
      have hhandled : entry.handlerIdentifier ≠ [] := by
        intro hempty
        rw [hempty] at hhandler
        cases hhandler
      simp only [Option.map_eq_some_iff, Option.isSome_some, forall_const]
      rw [← discoveryPolicy_iff hauthor hurls hsome hurl
        ⟨List.length_pos_iff.mp hdomain, hhandled⟩ hevents.1]
      constructor
      · rintro ⟨_, policy, hpolicy, -⟩
        exact ⟨policy, hpolicy⟩
      · rintro ⟨policy, hpolicy⟩
        exact ⟨_, policy, hpolicy, rfl⟩

theorem relayBindings_exist {document : ConfigDocument} (hbounded : Bounded document) :
    ∃ bindings, document.relayBindings = some bindings := by
  refine Option.exists_mapM fun relay hrelay => ?_
  rw [RelayId.new_of_schema (hbounded.relay_ids relay hrelay)]
  rfl

theorem configLimit_iff {number : Number} {maximum : ℕ} (h : number.within 1 maximum = true) :
    (∃ limit, configLimit number = some limit) ↔ number.isWritten = true := by
  constructor
  · rintro ⟨limit, hlimit⟩
    exact Number.isWritten_of_asU64 (Option.filter_eq_some_iff.mp hlimit).1
  · intro hwritten
    obtain ⟨limit, hread, hpos, -⟩ := Number.asU64_of_within h hwritten
    exact ⟨limit, Option.filter_eq_some_iff.mpr ⟨hread, decide_eq_true hpos⟩⟩

theorem AdmissionLimits.fromConfig_iff {events : EventLimitsEntry}
    (hschema : events.schemaValid = true) :
    (∃ limits, AdmissionLimits.fromConfig events = some limits) ↔
      [events.wireBytes, events.contentBytes, events.tagCount, events.tagTotalElements,
        events.tagElementBytes, events.tagTotalBytes, events.decryptedPlaintextBytes].all
        Number.isWritten = true := by
  unfold EventLimitsEntry.schemaValid at hschema
  simp only [Bool.and_eq_true, and_assoc] at hschema
  obtain ⟨hwire, hcontent, hcount, helements, helement, htotal, hplaintext⟩ := hschema
  simp only [List.all_cons, List.all_nil, Bool.and_true, Bool.and_eq_true]
  rw [← configLimit_iff hwire, ← configLimit_iff hcontent, ← configLimit_iff hcount,
    ← configLimit_iff helements, ← configLimit_iff helement, ← configLimit_iff htotal,
    ← configLimit_iff hplaintext]
  unfold AdmissionLimits.fromConfig
  constructor
  · rintro ⟨limits, h⟩
    obtain ⟨_, hwire, h⟩ := Option.bind_eq_some_iff.mp h
    obtain ⟨_, hcontent, h⟩ := Option.bind_eq_some_iff.mp h
    obtain ⟨_, hcount, h⟩ := Option.bind_eq_some_iff.mp h
    obtain ⟨_, helements, h⟩ := Option.bind_eq_some_iff.mp h
    obtain ⟨_, helement, h⟩ := Option.bind_eq_some_iff.mp h
    obtain ⟨_, htotal, h⟩ := Option.bind_eq_some_iff.mp h
    obtain ⟨_, hplaintext, -⟩ := Option.bind_eq_some_iff.mp h
    exact ⟨⟨_, hwire⟩, ⟨_, hcontent⟩, ⟨_, hcount⟩, ⟨_, helements⟩, ⟨_, helement⟩, ⟨_, htotal⟩,
      _, hplaintext⟩
  · rintro ⟨⟨_, hwire⟩, ⟨_, hcontent⟩, ⟨_, hcount⟩, ⟨_, helements⟩, ⟨_, helement⟩, ⟨_, htotal⟩,
      _, hplaintext⟩
    rw [hwire, hcontent, hcount, helements, helement, htotal, hplaintext]
    exact ⟨_, rfl⟩

theorem stateMetadata_iff {lib : ConfigLibrary} {profile : ConfigProfile} {document : ConfigDocument}
    (hbounded : Bounded document) :
    (∃ config, document.stateMetadata lib profile = some config) ↔
      (∃ policies, governancePolicies document = some policies) ∧
      (∃ policies, connectionPolicies lib document.policy = some policies) ∧
      (∃ policies, deliveryPolicies document = some policies) ∧
      ∃ identities policies, expectedIdentities lib document = some identities ∧
        document.discoveryPolicies lib identities = some policies := by
  obtain ⟨bindings, hbindings⟩ := relayBindings_exist hbounded
  unfold ConfigDocument.stateMetadata
  constructor
  · rintro ⟨config, h⟩
    obtain ⟨governance, hgovernance, h⟩ := Option.bind_eq_some_iff.mp h
    obtain ⟨connection, hconnection, h⟩ := Option.bind_eq_some_iff.mp h
    obtain ⟨identities, hidentities, h⟩ := Option.bind_eq_some_iff.mp h
    obtain ⟨delivery, hdelivery, h⟩ := Option.bind_eq_some_iff.mp h
    obtain ⟨discovery, hdiscovery, -⟩ := Option.bind_eq_some_iff.mp h
    exact ⟨⟨_, hgovernance⟩, ⟨_, hconnection⟩, ⟨_, hdelivery⟩, _, _, hidentities, hdiscovery⟩
  · rintro ⟨⟨governance, hgovernance⟩, ⟨connection, hconnection⟩, ⟨delivery, hdelivery⟩, identities,
      discovery, hidentities, hdiscovery⟩
    rw [hgovernance, hconnection, hidentities, hdelivery, hbindings]
    simp only [Option.bind_eq_bind, Option.bind_some, hdiscovery]
    exact ⟨_, rfl⟩

/-- An admitted document is opened exactly if the constructors find it written as they read
it. -/
theorem admitted_opens_iff_written {lib : ConfigLibrary} {profile : ConfigProfile}
    {document : ConfigDocument} (hadmitted : document.admitted lib profile = true)
    (haccepted : UrlsAccepted lib document) :
    ((∃ config, document.stateMetadata lib profile = some config) ∧
      ∃ limits, AdmissionLimits.fromConfig document.events = some limits) ↔
      document.writtenForConstructors lib = true := by
  unfold ConfigDocument.admitted at hadmitted
  simp only [Bool.and_eq_true, and_assoc] at hadmitted
  have hbounded := ConfigDocument.bounded hadmitted.1
  obtain ⟨_, hrelationships⟩ := Except.exists_of_isOk hadmitted.2.1
  have hrelated := ConfigDocument.related hrelationships
  have hidentities := expectedIdentities_eq hrelated
  rw [stateMetadata_iff hbounded, governancePolicies_iff hbounded hrelated,
    connectionPolicies_iff hbounded hrelated, deliveryPolicies_iff hbounded hrelated,
    AdmissionLimits.fromConfig_iff hbounded.events]
  have hdiscovery : (∃ identities policies, expectedIdentities lib document = some identities ∧
      document.discoveryPolicies lib identities = some policies) ↔
      (document.discovery.isSome = true → document.events.wireBytes.isWritten = true) := by
    rw [← discoveryPolicies_iff hbounded hrelated haccepted hidentities]
    constructor
    · rintro ⟨identities, policies, hread, hpolicies⟩
      obtain rfl := Option.some.inj (hread.symm.trans hidentities)
      exact ⟨policies, hpolicies⟩
    · rintro ⟨policies, hpolicies⟩
      exact ⟨_, policies, hidentities, hpolicies⟩
  rw [hdiscovery]
  simp only [ConfigDocument.writtenForConstructors, ConfigDocument.reread, List.all_cons,
    List.all_nil, Bool.and_true, Bool.and_eq_true]
  tauto

/-! ## The example configuration -/

/-- A key whose bytes are all the same. -/
def repeatedKey (byte : ℕ) : PublicKey := ⟨BitVec.ofNat 256 (byte * (2 ^ 256 / 255))⟩

/-- The URL of a host and a path, as the parser returns it. -/
def plainUrl (scheme host path : String) : Url where
  text := ascii scheme ++ ascii "://" ++ ascii host ++ ascii path
  scheme := ascii scheme
  host := some (.domain (ascii host))
  hostText := some (ascii host)
  username := []
  password := none
  fragment := none

/-- The libraries on the URLs of the example configuration. -/
def exampleLibrary : ConfigLibrary where
  parseUrl text :=
    if text = ascii "https://myc.example.test" then some (plainUrl "https" "myc.example.test" "/")
    else [plainUrl "wss" "relay-primary.example.test" "/",
      plainUrl "wss" "relay-secondary.example.test" "/",
      plainUrl "https" "myc.example.test" "/auth/challenge"].find? fun url => url.text == text
  isRelayUrl := startsWith (ascii "wss://")
  isUrl := startsWith (ascii "https://")
  bunkerUri := some
  isXOnly key := key ∈ [repeatedKey 0x22, repeatedKey 0x33, repeatedKey 0x44, repeatedKey 0x77,
    repeatedKey 0x88]
  isCredentialName _ := true
  metadataJson _ _ _ _ _ := ascii "\x7b\x7d"
  projection _ _ _ _ := ascii "\x7b\x7d"
  encode document := document.otherSections

/-- A rate limit of the example configuration. -/
def exampleRateLimit (scope : RateScope) (windowMs maxAttempts retentionMs subjects : ℤ) :
    RateLimitEntry where
  scope := scope
  windowMs := .integer windowMs
  maxAttempts := .integer maxAttempts
  retentionMs := .integer retentionMs
  maximumTrackedSubjects := .integer subjects

/-- The example configuration of the contract. -/
def exampleDocument : ConfigDocument where
  transport :=
    { location := .encryptedFile (ascii "/var/lib/transport.identity.ncrypt")
        (ascii "transport_wrapping_key")
      expectedPublicKey := repeatedKey 0x44 }
  user :=
    { location := .localSigner (ascii "/run/user-signer.sock") (.integer 15000) (.integer 65536)
        (.integer 1048576) (.integer 32)
      expectedPublicKey := repeatedKey 0x22 }
  discoveryIdentity := some
    { location := .encryptedFile (ascii "/var/lib/discovery.identity.ncrypt")
        (ascii "discovery_wrapping_key")
      expectedPublicKey := repeatedKey 0x33 }
  relays :=
    [⟨ascii "primary", ascii "wss://relay-primary.example.test/", true, true, true, .required⟩,
      ⟨ascii "secondary", ascii "wss://relay-secondary.example.test/", true, true, true, .required⟩]
  deliveryPolicy := .allRequired
  publishRetry := ⟨.integer 5, .integer 250, .integer 30000, .integer 15000⟩
  policy :=
    { trustedClients := [repeatedKey 0x77]
      deniedClients := [repeatedKey 0x88]
      permissionCeiling := [ascii "nip04_decrypt", ascii "nip04_encrypt", ascii "nip44_decrypt",
        ascii "nip44_encrypt", ascii "sign_event:kind:1"]
      allowedSignEventKinds := [.integer 1]
      challenges := some ⟨ascii "https://myc.example.test/auth/challenge", .integer 900000,
        .integer 3600000⟩
      retention := ⟨.integer 604800000, .integer 86400000, .integer 604800000, .integer 2592000000,
        .integer 604800000⟩ }
  connectionAdmission := exampleRateLimit .globalAndRelay 60000 10 3600000 4096
  challengeCreation := exampleRateLimit .connection 120000 5 86400000 16384
  challengeAuthorization := exampleRateLimit .connection 120000 5 86400000 16384
  events := ⟨.integer 262144, .integer 131072, .integer 1024, .integer 4096, .integer 4096,
    .integer 131072, .integer 262144⟩
  outbox := .integer 4096
  workerThreads := .integer 4
  blockingThreads := .integer 8
  discovery := some
    { domain := ascii "myc.example.test"
      handlerIdentifier := ascii "myc"
      publicRelayIds := [ascii "primary", ascii "secondary"]
      publishRelayIds := [ascii "primary", ascii "secondary"]
      nostrconnectUrlTemplate := ascii "https://myc.example.test/connect?uri=<nostrconnect>"
      metadata := ⟨"myc".toList, "Radroots Myc".toList, "NIP-46 signer".toList,
        "https://myc.example.test/".toList, "https://myc.example.test/myc.png".toList⟩ }
  otherSections := []

/-- The parsers accept the URLs of every document with the relays, the user and the handler of
the example. -/
theorem exampleUrls_accepted {document : ConfigDocument}
    (hrelays : document.relays = exampleDocument.relays)
    (huser : document.user = exampleDocument.user)
    (hdiscovery : document.discovery = exampleDocument.discovery) :
    UrlsAccepted exampleLibrary document := by
  have hread : ∀ entry ∈ exampleDocument.discovery,
      entry.publicRelayIds.mapM (publicRelayUrl exampleLibrary exampleDocument.relays) =
        some [ascii "wss://relay-primary.example.test/",
          ascii "wss://relay-secondary.example.test/"] ∧
      (renderNostrconnectUrl exampleLibrary entry.nostrconnectUrlTemplate
        exampleDocument.user.expectedPublicKey [ascii "wss://relay-primary.example.test/",
          ascii "wss://relay-secondary.example.test/"]).isSome = true := by
    decide +kernel
  refine ⟨?_, fun entry hentry urls hurls => ?_⟩
  · rw [hrelays]
    decide +kernel
  · rw [hdiscovery] at hentry
    obtain ⟨hexpected, hrendered⟩ := hread entry hentry
    rw [hrelays] at hurls
    obtain rfl := Option.some.inj (hurls.symm.trans hexpected)
    rw [huser]
    exact hrendered

/-- The example is admitted, and opened. -/
theorem exampleDocument_opens : exampleDocument.writtenForConstructors exampleLibrary = true ∧
    ((∃ config, exampleDocument.stateMetadata exampleLibrary .production = some config) ∧
      ∃ limits, AdmissionLimits.fromConfig exampleDocument.events = some limits) := by
  have hwritten : exampleDocument.writtenForConstructors exampleLibrary = true := by decide +kernel
  have hadmitted : exampleDocument.admitted exampleLibrary .production = true := by decide +kernel
  exact ⟨hwritten, (admitted_opens_iff_written hadmitted
    (exampleUrls_accepted rfl rfl rfl)).mpr hwritten⟩

/-- The example with a queue of `4096.0`. -/
def floatDocument : ConfigDocument := { exampleDocument with outbox := .float 4096 }

/-- The example with a challenge URL that the parser completes by a slash. -/
def bareUrlDocument : ConfigDocument :=
  { exampleDocument with
    policy := { exampleDocument.policy with
      challenges := some ⟨ascii "https://myc.example.test", .integer 900000, .integer 3600000⟩ } }

/-- Both documents are admitted, with URLs that every parser accepts, and cannot be opened. -/
theorem admitted_documents_not_opened :
    (floatDocument.admitted exampleLibrary .production = true ∧
      UrlsAccepted exampleLibrary floatDocument ∧
      ¬ ∃ config, floatDocument.stateMetadata exampleLibrary .production = some config) ∧
    bareUrlDocument.admitted exampleLibrary .production = true ∧
      UrlsAccepted exampleLibrary bareUrlDocument ∧
      ¬ ∃ config, bareUrlDocument.stateMetadata exampleLibrary .production = some config := by
  have hchecked : ∀ document ∈ [floatDocument, bareUrlDocument],
      document.admitted exampleLibrary .production = true ∧
        document.stateMetadata exampleLibrary .production = none := by
    decide +kernel
  have hclosed : ∀ document ∈ [floatDocument, bareUrlDocument],
      ¬ ∃ config, document.stateMetadata exampleLibrary .production = some config := by
    rintro document hdocument ⟨config, hconfig⟩
    rw [(hchecked document hdocument).2] at hconfig
    cases hconfig
  refine ⟨⟨?_, exampleUrls_accepted rfl rfl rfl, ?_⟩, ?_, exampleUrls_accepted rfl rfl rfl, ?_⟩
  · exact (hchecked floatDocument (by simp)).1
  · exact hclosed floatDocument (by simp)
  · exact (hchecked bareUrlDocument (by simp)).1
  · exact hclosed bareUrlDocument (by simp)

end MycSigner
