import MycSigner.Encoding
import MycSigner.Store
import MycSigner.Governance
import Mathlib.Tactic.NormNum
import Mathlib.Tactic.Ring

/-!
# Cursors of the administrator's lists

A cursor is a byte string of fixed offsets behind a keyed digest, written in URL-safe base64.
It names the list that it continues: a list of connections by the code of its state filter, the
audit log by the digest of its filter.
-/

namespace MycSigner

/-- The `URL_SAFE_NO_PAD` engine. -/
structure CursorText where
  encode : Bytes → Bytes
  decode : Bytes → Option Bytes
  decode_encode : ∀ bytes, decode (encode bytes) = some bytes

/-- The handler errors of a list. -/
inductive AdminHandlerError where
  | internal
  | invalidCursor
deriving DecidableEq

/-- `u64::from_be_bytes` -/
def fromBigEndian (bytes : Bytes) : ℕ :=
  bytes.foldl (fun value byte => value * 256 + byte.toNat) 0

/-- `constant_time_equal` -/
def constantTimeEqual (left right : Bytes) : Bool :=
  left.length == right.length &&
    (left.zip right).foldl (fun difference pair => difference ||| (pair.1 ^^^ pair.2)) 0 == 0

/-- `cursor_mac` -/
def cursorMac (key : Id32) (payload : Bytes) : Id32 :=
  Sha256.digest (domain "radroots.myc.admin.cursor.v1" ++ key.bytes ++ u64Bytes payload.length ++
    payload)

/-- The payload with its keyed digest, as text. -/
def sealCursor (text : CursorText) (key : Id32) (payload : Bytes) : Bytes :=
  text.encode (payload ++ (cursorMac key payload).bytes)

/-! ## The list of connections -/

/-- `connection_state_code` -/
def connectionStateCode : Option ConnectionStatus → UInt8
  | none => 0
  | some .pending => 1
  | some .active => 2
  | some .denied => 3
  | some .expired => 4

structure ConnectionCursor where
  snapshot : TimeUnixMs
  before : TimeUnixMs
  id : Id32
deriving DecidableEq

def connectionCursorPayload (snapshot before : TimeUnixMs) (id : Id32)
    (status : Option ConnectionStatus) : Bytes :=
  [1, 1] ++ u64Bytes snapshot.get ++ u64Bytes before.get ++ id.bytes ++
    [connectionStateCode status]

/-- `encode_connection_cursor` -/
def encodeConnectionCursor (text : CursorText) (snapshot before : TimeUnixMs) (id : Id32)
    (status : Option ConnectionStatus) (key : Id32) : Bytes :=
  sealCursor text key (connectionCursorPayload snapshot before id status)

/-- `decode_connection_cursor` -/
def decodeConnectionCursor (text : CursorText) (encoded : Bytes)
    (status : Option ConnectionStatus) (key : Id32) :
    Except AdminHandlerError ConnectionCursor := do
  let bytes ← .ofOption .invalidCursor (text.decode encoded)
  .require (bytes.length = 83 ∧ bytes.take 2 = [1, 1] ∧
    bytes[50]? = some (connectionStateCode status) ∧
    constantTimeEqual (bytes.drop 51) (cursorMac key (bytes.take 51)).bytes = true) .invalidCursor
  let snapshot ← .ofOption .invalidCursor
    (TimeUnixMs.new (fromBigEndian ((bytes.drop 2).take 8)))
  let before ← .ofOption .invalidCursor
    (TimeUnixMs.new (fromBigEndian ((bytes.drop 10).take 8)))
  .ok { snapshot, before, id := BitVec.ofNat 256 (fromBigEndian ((bytes.drop 18).take 32)) }

/-! ## The audit log -/

/-- `u64::MAX`, which stands for a bound that is absent. -/
def absentBound : ℕ := 2 ^ 64 - 1

/-- `MycAuditOutcome::as_str` -/
def AuditOutcome.asStr : AuditOutcome → String
  | .succeeded => "succeeded"
  | .rejected => "rejected"
  | .failed => "failed"

/-- The filter of an audit list; `seconds_as_millis` has checked its bounds. -/
@[ext]
structure AuditFilter where
  fromUnixMs : Option ℕ
  toUnixMs : Option ℕ
  kind : Option AuditKind
  outcome : Option AuditOutcome
  from_sqlite : ∀ bound ∈ fromUnixMs, bound ≤ i64Max
  to_sqlite : ∀ bound ∈ toUnixMs, bound ≤ i64Max
deriving DecidableEq

/-- The bytes that `audit_query_digest` hashes. -/
def AuditFilter.hashed (filter : AuditFilter) : Bytes :=
  domain "radroots.myc.admin.audit_query.v1" ++ u64Bytes (filter.fromUnixMs.getD absentBound) ++
    u64Bytes (filter.toUnixMs.getD absentBound) ++
    ascii ((filter.kind.map AuditKind.asStr).getD "") ++ [0] ++
    ascii ((filter.outcome.map AuditOutcome.asStr).getD "")

/-- `audit_query_digest` -/
def auditQueryDigest (filter : AuditFilter) : Id32 := Sha256.digest filter.hashed

structure AuditCursor where
  snapshot : ℕ
  before : ℕ
deriving DecidableEq

def auditCursorPayload (snapshot before : ℕ) (queryDigest : Id32) : Bytes :=
  [1, 2] ++ u64Bytes snapshot ++ u64Bytes before ++ queryDigest.bytes

/-- `encode_audit_cursor` -/
def encodeAuditCursor (text : CursorText) (snapshot before : ℕ) (queryDigest key : Id32) : Bytes :=
  sealCursor text key (auditCursorPayload snapshot before queryDigest)

/-- `decode_audit_cursor` -/
def decodeAuditCursor (text : CursorText) (encoded : Bytes) (queryDigest key : Id32) :
    Except AdminHandlerError AuditCursor := do
  let bytes ← .ofOption .invalidCursor (text.decode encoded)
  .require (bytes.length = 82 ∧ bytes.take 2 = [1, 2] ∧
    (bytes.drop 18).take 32 = queryDigest.bytes ∧
    constantTimeEqual (bytes.drop 50) (cursorMac key (bytes.take 50)).bytes = true) .invalidCursor
  .ok { snapshot := fromBigEndian ((bytes.drop 2).take 8)
        before := fromBigEndian ((bytes.drop 10).take 8) }

/-! ## Round trips -/

theorem fromBigEndian_bigEndian (width n : ℕ) :
    fromBigEndian (Sha256.bigEndian width n) = n % 256 ^ width := by
  have hfold : ∀ (bytes : Bytes) (value : ℕ),
      bytes.foldl (fun value byte => value * 256 + byte.toNat) value =
        value * 256 ^ bytes.length + fromBigEndian bytes := by
    intro bytes
    induction bytes with
    | nil => simp [fromBigEndian]
    | cons byte rest ih =>
        intro value
        rw [fromBigEndian, List.foldl_cons, List.foldl_cons, ih, ih, List.length_cons]
        ring
  induction width with
  | zero => simp [Sha256.bigEndian, fromBigEndian, Nat.mod_one]
  | succ width ih =>
      rw [Sha256.bigEndian, fromBigEndian, List.foldl_cons, hfold, ih, length_bigEndian,
        Nat.mod_pow_succ]
      simp
      ring

theorem fromBigEndian_u64Bytes {n : ℕ} (h : n < 2 ^ 64) : fromBigEndian (u64Bytes n) = n := by
  rw [u64Bytes, fromBigEndian_bigEndian]
  exact Nat.mod_eq_of_lt h

theorem fromBigEndian_id (id : Id32) : BitVec.ofNat 256 (fromBigEndian id.bytes) = id := by
  rw [Id32.bytes, fromBigEndian_bigEndian]
  have hwidth : (256 : ℕ) ^ 32 = 2 ^ 256 := by norm_num
  rw [hwidth, Nat.mod_eq_of_lt id.isLt]
  simp

theorem constantTimeEqual_self (bytes : Bytes) : constantTimeEqual bytes bytes = true := by
  have hfold : ∀ bytes : Bytes,
      (bytes.zip bytes).foldl (fun difference pair => difference ||| (pair.1 ^^^ pair.2)) 0 =
        (0 : UInt8) := by
    intro bytes
    induction bytes with
    | nil => rfl
    | cons byte rest ih => simpa using ih
  simp [constantTimeEqual, hfold]

theorem length_u64Bytes (n : ℕ) : (u64Bytes n).length = 8 := length_bigEndian ..


theorem drop_u64Bytes {n count : ℕ} (h : 8 ≤ count) : (u64Bytes n).drop count = [] :=
  List.drop_eq_nil_of_le (by rwa [length_u64Bytes])

theorem TimeUnixMs.new_get (time : TimeUnixMs) : TimeUnixMs.new time.get = some time :=
  TimeUnixMs.new_of_le time.pos time.sqlite

theorem fromBigEndian_time (time : TimeUnixMs) : fromBigEndian (u64Bytes time.get) = time.get :=
  fromBigEndian_u64Bytes (Nat.lt_of_le_of_lt time.sqlite (by decide))

theorem connectionStateCode_injective : Function.Injective connectionStateCode := by
  intro left right h
  rcases left with _ | _ | _ <;> rcases right with _ | _ | _ <;> first | rfl | cases h

theorem length_connectionCursorPayload (snapshot before : TimeUnixMs) (id : Id32)
    (status : Option ConnectionStatus) :
    (connectionCursorPayload snapshot before id status).length = 51 := by
  simp [connectionCursorPayload, length_u64Bytes, Id32.length_bytes]

theorem length_auditCursorPayload (snapshot before : ℕ) (queryDigest : Id32) :
    (auditCursorPayload snapshot before queryDigest).length = 50 := by
  simp [auditCursorPayload, length_u64Bytes, Id32.length_bytes]

section
variable (text : CursorText) (key : Id32)

/-- A cursor opens under the state that it was made for, and under no other. -/
theorem decodeConnectionCursor_encode (snapshot before : TimeUnixMs) (id : Id32)
    (status asked : Option ConnectionStatus) :
    decodeConnectionCursor text (encodeConnectionCursor text snapshot before id status key) asked
      key = if status = asked then .ok ⟨snapshot, before, id⟩ else .error .invalidCursor := by
  have hlength := length_connectionCursorPayload snapshot before id status
  unfold decodeConnectionCursor encodeConnectionCursor sealCursor
  rw [text.decode_encode]
  by_cases h : status = asked
  · subst h
    simp [Except.ofOption, Except.require, bind, Except.bind, hlength, Id32.length_bytes,
      List.take_append, List.drop_append, constantTimeEqual_self]
    simp [connectionCursorPayload, length_u64Bytes, Id32.length_bytes, List.take_append,
      List.drop_append, drop_u64Bytes, fromBigEndian_time, TimeUnixMs.new_get, fromBigEndian_id]
  · have hcode : connectionStateCode status ≠ connectionStateCode asked := fun heq =>
      h (connectionStateCode_injective heq)
    simp [Except.ofOption, Except.require, bind, Except.bind, hlength, Id32.length_bytes]
    simp [connectionCursorPayload, length_u64Bytes, Id32.length_bytes, h, hcode]

/-- A cursor opens under the digest that it was made for, and under no other. -/
theorem decodeAuditCursor_encode {snapshot before : ℕ} (hsnapshot : snapshot < 2 ^ 64)
    (hbefore : before < 2 ^ 64) (queryDigest asked : Id32) :
    decodeAuditCursor text (encodeAuditCursor text snapshot before queryDigest key) asked key =
      if queryDigest = asked then .ok ⟨snapshot, before⟩ else .error .invalidCursor := by
  have hlength := length_auditCursorPayload snapshot before queryDigest
  have hread := fromBigEndian_u64Bytes hsnapshot
  have hread' := fromBigEndian_u64Bytes hbefore
  unfold decodeAuditCursor encodeAuditCursor sealCursor
  rw [text.decode_encode]
  by_cases h : queryDigest = asked
  · subst h
    simp [Except.ofOption, Except.require, bind, Except.bind, hlength, Id32.length_bytes,
      List.take_append, List.drop_append, constantTimeEqual_self]
    simp [auditCursorPayload, length_u64Bytes, List.take_append, List.drop_append, drop_u64Bytes,
      hread, hread']
  · have hfield : ((auditCursorPayload snapshot before queryDigest ++ (cursorMac key
        (auditCursorPayload snapshot before queryDigest)).bytes).drop 18).take 32 =
          queryDigest.bytes := by
      rw [List.drop_append, List.take_append, hlength]
      simp [auditCursorPayload, length_u64Bytes, Id32.length_bytes, List.drop_append,
        drop_u64Bytes, List.take_of_length_le]
    simp only [Except.ofOption, Except.require, bind, Except.bind]
    rw [if_neg h, if_neg fun hchecked => h (Id32.bytes_injective (hfield.symm.trans hchecked.2.2.1))]

end

/-! ## The digest of a filter -/

theorem getD_absentBound_injective {left right : Option ℕ} (hleft : ∀ bound ∈ left, bound ≤ i64Max)
    (hright : ∀ bound ∈ right, bound ≤ i64Max)
    (h : u64Bytes (left.getD absentBound) = u64Bytes (right.getD absentBound)) : left = right := by
  have hmax : i64Max < absentBound := by decide
  have hwide : absentBound < 2 ^ 64 := by decide
  have hlt : ∀ {bound : Option ℕ}, (∀ value ∈ bound, value ≤ i64Max) →
      bound.getD absentBound < 2 ^ 64 := by
    intro bound hbound
    cases bound with
    | none => exact hwide
    | some value =>
        have := hbound value rfl
        simp only [Option.getD_some]
        omega
  have hnumber : left.getD absentBound = right.getD absentBound := by
    rw [← fromBigEndian_u64Bytes (hlt hleft), h, fromBigEndian_u64Bytes (hlt hright)]
  cases left with
  | none =>
      cases right with
      | none => rfl
      | some bound =>
          have := hright bound rfl
          simp only [Option.getD_none, Option.getD_some] at hnumber
          omega
  | some value =>
      have hvalue := hleft value rfl
      cases right with
      | none =>
          simp only [Option.getD_none, Option.getD_some] at hnumber
          omega
      | some bound => exact congrArg some hnumber

/-- The kind has no zero byte, so that the one after it separates the two texts. -/
theorem kindOutcome_injective {kind kind' : Option AuditKind} {outcome outcome' : Option AuditOutcome}
    (h : ascii ((kind.map AuditKind.asStr).getD "") ++
        0 :: ascii ((outcome.map AuditOutcome.asStr).getD "") =
      ascii ((kind'.map AuditKind.asStr).getD "") ++
        0 :: ascii ((outcome'.map AuditOutcome.asStr).getD "")) :
    kind = kind' ∧ outcome = outcome' := by
  have hkindZero : (0 : UInt8) ∉ ascii ((kind.map AuditKind.asStr).getD "") := by
    rcases kind with _ | _ | _ <;> decide +kernel
  have houtcomeZero : (0 : UInt8) ∉ ascii ((outcome.map AuditOutcome.asStr).getD "") := by
    rcases outcome with _ | _ | _ <;> decide +kernel
  obtain ⟨hkind, -, houtcome⟩ := (List.append_cons_inj_of_notMem hkindZero houtcomeZero).mp h
  constructor
  · revert hkind
    rcases kind with _ | _ | _ <;> rcases kind' with _ | _ | _ <;> decide +kernel
  · revert houtcome
    rcases outcome with _ | _ | _ <;> rcases outcome' with _ | _ | _ <;> decide +kernel

theorem AuditFilter.hashed_injective : Function.Injective AuditFilter.hashed := by
  intro left right h
  unfold AuditFilter.hashed at h
  simp only [List.append_assoc] at h
  replace h := List.append_cancel_left h
  obtain ⟨hfrom, h⟩ := List.append_inj h (by rw [length_u64Bytes, length_u64Bytes])
  obtain ⟨hto, h⟩ := List.append_inj h (by rw [length_u64Bytes, length_u64Bytes])
  obtain ⟨hkind, houtcome⟩ := kindOutcome_injective h
  exact AuditFilter.ext (getD_absentBound_injective left.from_sqlite right.from_sqlite hfrom)
    (getD_absentBound_injective left.to_sqlite right.to_sqlite hto) hkind houtcome

/-- Where the hash does not collide on their bytes, two filters with one digest are one. -/
theorem auditQueryDigest_injective {left right : AuditFilter}
    (hfree : CollisionFree [left.hashed, right.hashed])
    (h : auditQueryDigest left = auditQueryDigest right) : left = right :=
  AuditFilter.hashed_injective (hfree _ (by simp) _ (by simp) h)

end MycSigner
