import Mathlib
import MycSigner.Admission.JsonString
import MycSigner.Configuration.Policies
import MycSigner.Lib.Traverse

/-!
# The bounds of admission

A relay event and a decrypted request are admitted before anything of them is allocated.  The
text is split into the raw texts of its fields; strings are measured where they stand, and the
tags or the parameters are visited one by one against a budget that the elements visited so far
have used up.

How a text is split at its top level is left to `SerdeJson`.  A raw text is split again when a
visitor descends into it.
-/

namespace MycSigner

/-! ## Texts and how they are split -/

namespace Str

/-- `std::str::from_utf8` -/
def fromUtf8 (bytes : Bytes) : Option Str :=
  match String.fromUTF8? bytes.toByteArray with
  | some text =>
      if bounded : (utf8 text.toList).length < 2 ^ 63 then some ⟨text.toList, bounded⟩ else none
  | none => none

end Str

/-- What a text is at its top level: the keys of an object are decoded, the members and the
elements are raw texts. -/
inductive JsonShape where
  | object (members : List (List Char × Str))
  | array (elements : List Str)
  | unsigned (value : ℕ)
  | other

/-- The library `serde_json`. -/
structure SerdeJson where
  /-- The value that a whole text is. -/
  parse : Str → Option JsonShape
  /-- `from_str` of a `String`. -/
  parseString : Str → Option (List Char)
  /-- The message for a text that is no array, given what was expected. -/
  invalidType : Str → List Char → List Char

/-- A string literal is decoded as RFC 8259 says. -/
def SerdeJson.DecodesStrings (serde : SerdeJson) : Prop :=
  ∀ (raw : Str) (text : List Char), JsonString raw.text text → serde.parseString raw = some text

/-! ## Limits and errors -/

/-- `MycNip46AdmissionLimits`: the counters and their limits are `usize`. -/
structure Nip46AdmissionLimits extends AdmissionLimits where
  elements_bounded : eventTagTotalElements < usizeRange
  bytes_bounded : eventTagTotalBytes < usizeRange

/-- The limits of the request library. -/
structure RequestLimits where
  requestIdMaxBytes : ℕ
  methodMaxBytes : ℕ
  requestParamCountMax : ℕ
  requestParamMaxBytes : ℕ
  requestParamsMaxBytes : ℕ
  params_bounded : requestParamsMaxBytes < usizeRange

inductive AdmissionErrorKind where
  | emptyEvent
  | eventTooLarge
  | invalidEventUtf8
  | malformedEvent
  | eventIdentifierTooLarge
  | eventContentTooLarge
  | tooManyTags
  | tooManyTagElements
  | tagElementTooLarge
  | tagsTooLarge
  | emptyPlaintext
  | plaintextTooLarge
  | invalidPlaintextUtf8
  | malformedRequest
  | requestIdentifierTooLarge
  | requestMethodTooLarge
  | tooManyRequestParameters
  | requestParameterTooLarge
  | requestParametersTooLarge
deriving DecidableEq

def tagCountSentinel : List Char := "myc-tag-count-limit".toList

def tagElementCountSentinel : List Char := "myc-tag-element-count-limit".toList

def tagElementBytesSentinel : List Char := "myc-tag-element-bytes-limit".toList

def tagTotalBytesSentinel : List Char := "myc-tag-total-bytes-limit".toList

def paramCountSentinel : List Char := "myc-param-count-limit".toList

def paramBytesSentinel : List Char := "myc-param-bytes-limit".toList

def paramTotalBytesSentinel : List Char := "myc-param-total-bytes-limit".toList

/-- The kind of the first sentinel that a message contains. -/
def classify (kinds : List (List Char × AdmissionErrorKind)) (malformed : AdmissionErrorKind)
    (rendered : List Char) : AdmissionErrorKind :=
  ((kinds.find? fun entry => entry.1 <:+: rendered).map Prod.snd).getD malformed

/-- `classify_tag_error` -/
def classifyTagError : List Char → AdmissionErrorKind :=
  classify [(tagCountSentinel, .tooManyTags), (tagElementCountSentinel, .tooManyTagElements),
    (tagElementBytesSentinel, .tagElementTooLarge), (tagTotalBytesSentinel, .tagsTooLarge)]
    .malformedEvent

/-- `classify_param_error` -/
def classifyParamError : List Char → AdmissionErrorKind :=
  classify [(paramCountSentinel, .tooManyRequestParameters),
    (paramBytesSentinel, .requestParameterTooLarge),
    (paramTotalBytesSentinel, .requestParametersTooLarge)] .malformedRequest

/-! ## Fields -/

/-- The derived `visit_map` of a struct that denies unknown fields: every key names a field, none
comes twice, and none is missing. -/
def visitMap (names : List (List Char)) (members : List (List Char × Str)) : Option (List Str) :=
  if (∀ member ∈ members, member.1 ∈ names) ∧ (members.map Prod.fst).Nodup then
    names.mapM fun name => members.lookup name
  else none

/-- The derived `deserialize` of a struct: an object by its keys, and an array by its order. -/
def deserializeStruct (names : List (List Char)) : JsonShape → Option (List Str)
  | .object members => visitMap names members
  | .array elements => if elements.length = names.length then some elements else none
  | _ => none

/-- The raw texts of an event. -/
structure RawEvent where
  id : Str
  pubkey : Str
  createdAt : Str
  kind : Str
  tags : Str
  content : Str
  sig : Str

namespace RawEvent

def names : List (List Char) :=
  ["id".toList, "pubkey".toList, "created_at".toList, "kind".toList, "tags".toList,
    "content".toList, "sig".toList]

def values (raw : RawEvent) : List Str :=
  [raw.id, raw.pubkey, raw.createdAt, raw.kind, raw.tags, raw.content, raw.sig]

def deserialize (shape : JsonShape) : Option RawEvent :=
  match deserializeStruct names shape with
  | some [id, pubkey, createdAt, kind, tags, content, sig] =>
      some { id, pubkey, createdAt, kind, tags, content, sig }
  | _ => none

end RawEvent

/-- The raw texts of a request. -/
structure RawRequest where
  id : Str
  method : Str
  params : Str

namespace RawRequest

def names : List (List Char) := ["id".toList, "method".toList, "params".toList]

def values (raw : RawRequest) : List Str := [raw.id, raw.method, raw.params]

def deserialize (shape : JsonShape) : Option RawRequest :=
  match deserializeStruct names shape with
  | some [id, method, params] => some { id, method, params }
  | _ => none

end RawRequest

/-- `validate_bounded_string` -/
def validateBoundedString (raw : Str) (maximum : ℕ) (tooLarge malformed : AdmissionErrorKind) :
    Except AdmissionErrorKind ℕ := do
  let length ← .ofOption malformed (decodedJsonStringUtf8Bytes raw)
  .require (length ≤ maximum) tooLarge
  .ok length

/-- `decode_bounded_string` -/
def decodeBoundedString (serde : SerdeJson) (raw : Str) (maximum : ℕ)
    (tooLarge malformed : AdmissionErrorKind) : Except AdmissionErrorKind (List Char) := do
  let _ ← validateBoundedString raw maximum tooLarge malformed
  .ofOption malformed (serde.parseString raw)

/-- `parse_scalar` of a `u64`. -/
def parseScalar (serde : SerdeJson) (raw : Str) (malformed : AdmissionErrorKind) :
    Except AdmissionErrorKind ℕ :=
  match serde.parse raw with
  | some (.unsigned value) => if value < 2 ^ 64 then .ok value else .error malformed
  | _ => .error malformed

/-! ## Visitors -/

structure Measurement where
  count : ℕ
  elements : ℕ
  bytes : ℕ
deriving DecidableEq

/-- `StringLengthSeed::deserialize` -/
def stringLength (maximum : ℕ) (sentinel : List Char) (raw : Str) : Except (List Char) ℕ := do
  let length ← .ofOption "invalid type: non-string, expected a JSON string".toList
    (decodedJsonStringUtf8Bytes raw)
  .require (length ≤ maximum) sentinel
  .ok length

/-- The end of a visitor that has used up its budget: one element more is one too many. -/
def lookAhead (sentinel : List Char) (result : Measurement) :
    List Str → Except (List Char) Measurement
  | [] => .ok result
  | _ :: _ => .error sentinel

/-- The loop of `TagVisitor::visit_seq`. -/
def visitTag (maximumElements maximumElementBytes : ℕ) (result : Measurement)
    (sequence : List Str) : Except (List Char) Measurement :=
  if result.elements < maximumElements then
    match sequence with
    | [] => .ok result
    | raw :: rest => do
        let length ← stringLength maximumElementBytes tagElementBytesSentinel raw
        let bytes ← .ofOption tagTotalBytesSentinel (checkedAdd result.bytes length)
        visitTag maximumElements maximumElementBytes
          { result with elements := result.elements + 1, bytes } rest
  else lookAhead tagElementCountSentinel result sequence

/-- `TagSeed::deserialize` -/
def deserializeTag (serde : SerdeJson) (maximumElements maximumElementBytes : ℕ) (raw : Str) :
    Except (List Char) Measurement :=
  match serde.parse raw with
  | some (.array elements) =>
      visitTag maximumElements maximumElementBytes { count := 1, elements := 0, bytes := 0 }
        elements
  | _ => .error (serde.invalidType raw "a bounded Nostr tag".toList)

/-- The loop of `TagsVisitor::visit_seq`.  The elements that earlier tags left over are the budget
of the next one. -/
def visitTags (serde : SerdeJson) (limits : AdmissionLimits) (result : Measurement)
    (sequence : List Str) : Except (List Char) Measurement :=
  if result.count < limits.eventTagCount then do
    .require (result.elements ≤ limits.eventTagTotalElements) tagElementCountSentinel
    match sequence with
    | [] => .ok result
    | raw :: rest => do
        let tag ← deserializeTag serde (limits.eventTagTotalElements - result.elements)
          limits.eventTagElementBytes raw
        let elements ← .ofOption tagElementCountSentinel (checkedAdd result.elements tag.elements)
        let bytes ← .ofOption tagTotalBytesSentinel (checkedAdd result.bytes tag.bytes)
        .require (bytes ≤ limits.eventTagTotalBytes) tagTotalBytesSentinel
        visitTags serde limits { count := result.count + 1, elements, bytes } rest
  else lookAhead tagCountSentinel result sequence

/-- `measure_tags` -/
def measureTags (serde : SerdeJson) (raw : Str) (limits : AdmissionLimits) :
    Except AdmissionErrorKind Measurement :=
  Except.mapError classifyTagError <|
    match serde.parse raw with
    | some (.array elements) =>
        visitTags serde limits { count := 0, elements := 0, bytes := 0 } elements
    | _ => .error (serde.invalidType raw "a bounded array of Nostr tags".toList)

/-- The loop of `StringSequenceVisitor::visit_seq`. -/
def visitStrings (limits : RequestLimits) (result : Measurement) (sequence : List Str) :
    Except (List Char) Measurement :=
  if result.count < limits.requestParamCountMax then
    match sequence with
    | [] => .ok result
    | raw :: rest => do
        let length ← stringLength limits.requestParamMaxBytes paramBytesSentinel raw
        let bytes ← .ofOption paramTotalBytesSentinel (checkedAdd result.bytes length)
        .require (bytes ≤ limits.requestParamsMaxBytes) paramTotalBytesSentinel
        visitStrings limits { count := result.count + 1, elements := result.count + 1, bytes } rest
  else lookAhead paramCountSentinel result sequence

/-- `measure_parameters` -/
def measureParameters (serde : SerdeJson) (limits : RequestLimits) (raw : Str) :
    Except AdmissionErrorKind Measurement :=
  Except.mapError classifyParamError <|
    match serde.parse raw with
    | some (.array elements) =>
        visitStrings limits { count := 0, elements := 0, bytes := 0 } elements
    | _ => .error (serde.invalidType raw "a bounded array of strings".toList)

/-! ## Admission -/

structure BoundedNip46Event where
  original : Bytes
  encryptedContent : List Char
  tagCount : ℕ
  tagElementCount : ℕ
  tagBytes : ℕ
deriving DecidableEq

/-- `admit_myc_nip46_event` -/
def admitMycNip46Event (serde : SerdeJson) (limits : AdmissionLimits) (original : Bytes) :
    Except AdmissionErrorKind BoundedNip46Event := do
  .require (original ≠ []) .emptyEvent
  .require (original.length ≤ limits.eventWireBytes) .eventTooLarge
  let source ← .ofOption .invalidEventUtf8 (Str.fromUtf8 original)
  let raw ← .ofOption .malformedEvent ((serde.parse source).bind RawEvent.deserialize)
  let _ ← validateBoundedString raw.id 64 .eventIdentifierTooLarge .malformedEvent
  let _ ← validateBoundedString raw.pubkey 64 .eventIdentifierTooLarge .malformedEvent
  let _ ← validateBoundedString raw.sig 128 .eventIdentifierTooLarge .malformedEvent
  let _ ← parseScalar serde raw.createdAt .malformedEvent
  let _ ← parseScalar serde raw.kind .malformedEvent
  let encryptedContent ← decodeBoundedString serde raw.content limits.eventContentBytes
    .eventContentTooLarge .malformedEvent
  let tags ← measureTags serde raw.tags limits
  .ok { original, encryptedContent, tagCount := tags.count, tagElementCount := tags.elements,
        tagBytes := tags.bytes }

structure BoundedNip46Request where
  plaintext : Bytes
  requestIdBytes : ℕ
  methodBytes : ℕ
  parameterCount : ℕ
  parameterBytes : ℕ
deriving DecidableEq

/-- `admit_myc_nip46_request` -/
def admitMycNip46Request (serde : SerdeJson) (limits : AdmissionLimits)
    (requestLimits : RequestLimits) (plaintext : Bytes) :
    Except AdmissionErrorKind BoundedNip46Request := do
  .require (plaintext ≠ []) .emptyPlaintext
  .require (plaintext.length ≤ limits.decryptedPlaintextBytes) .plaintextTooLarge
  let source ← .ofOption .invalidPlaintextUtf8 (Str.fromUtf8 plaintext)
  let raw ← .ofOption .malformedRequest ((serde.parse source).bind RawRequest.deserialize)
  let requestIdBytes ← validateBoundedString raw.id requestLimits.requestIdMaxBytes
    .requestIdentifierTooLarge .malformedRequest
  let methodBytes ← validateBoundedString raw.method requestLimits.methodMaxBytes
    .requestMethodTooLarge .malformedRequest
  let parameters ← measureParameters serde requestLimits raw.params
  .ok { plaintext, requestIdBytes, methodBytes, parameterCount := parameters.count,
        parameterBytes := parameters.bytes }

/-! ## What is within the bounds -/

/-- The bytes of a list of texts. -/
def textBytes (texts : List (List Char)) : ℕ := (texts.map fun text => (utf8 text).length).sum

/-- The raw texts are literals of these strings. -/
def Literals : List Str → List (List Char) → Prop :=
  List.Forall₂ fun raw text => JsonString raw.text text

/-- A raw text is an array of strings. -/
def SerdeJson.StringArray (serde : SerdeJson) (raw : Str) (texts : List (List Char)) : Prop :=
  ∃ elements, serde.parse raw = some (.array elements) ∧ Literals elements texts

/-- A raw text is an array of arrays of strings. -/
def SerdeJson.TagArray (serde : SerdeJson) (raw : Str) (tags : List (List (List Char))) : Prop :=
  ∃ elements, serde.parse raw = some (.array elements) ∧
    List.Forall₂ serde.StringArray elements tags

theorem textBytes_cons (text : List Char) (texts : List (List Char)) :
    textBytes (text :: texts) = (utf8 text).length + textBytes texts := by
  rw [textBytes, List.map_cons, List.sum_cons, textBytes]

theorem textBytes_append (left right : List (List Char)) :
    textBytes (left ++ right) = textBytes left + textBytes right := by
  rw [textBytes, List.map_append, List.sum_append, textBytes, textBytes]

theorem lookAhead_eq_ok {sentinel : List Char} {result m : Measurement} {sequence : List Str} :
    lookAhead sentinel result sequence = .ok m ↔ sequence = [] ∧ result = m := by
  cases sequence with
  | nil => simp [lookAhead]
  | cons raw rest => simp [lookAhead]

theorem stringLength_eq_ok {maximum n : ℕ} {sentinel : List Char} {raw : Str} :
    stringLength maximum sentinel raw = .ok n ↔
      ∃ text, JsonString raw.text text ∧ (utf8 text).length ≤ maximum ∧
        n = (utf8 text).length := by
  simp only [stringLength, Except.bind_eq_ok_iff, Except.ofOption_eq_ok, decoded_iff,
    Except.require_eq_ok, Except.ok.injEq]
  constructor
  · rintro ⟨n, ⟨text, hstring, rfl⟩, -, hmaximum, rfl⟩
    exact ⟨text, hstring, hmaximum, rfl⟩
  · rintro ⟨text, hstring, hmaximum, rfl⟩
    exact ⟨_, ⟨text, hstring, rfl⟩, (), hmaximum, rfl⟩

/-- A visitor of strings that fits its budget. -/
theorem visitTag_eq_ok {maximumElements maximumElementBytes : ℕ} {result m : Measurement}
    {sequence : List Str} (helements : result.elements ≤ maximumElements)
    (hbytes : result.bytes < usizeRange) :
    visitTag maximumElements maximumElementBytes result sequence = .ok m ↔
      ∃ texts, Literals sequence texts ∧ result.elements + texts.length ≤ maximumElements ∧
        (∀ text ∈ texts, (utf8 text).length ≤ maximumElementBytes) ∧
        result.bytes + textBytes texts < usizeRange ∧
        m = { result with
              elements := result.elements + texts.length,
              bytes := result.bytes + textBytes texts } := by
  induction sequence generalizing result with
  | nil =>
      have hvisit : visitTag maximumElements maximumElementBytes result [] = .ok result := by
        unfold visitTag
        split
        · rfl
        · rfl
      rw [hvisit]
      constructor
      · intro h
        obtain rfl := Except.ok.inj h
        exact ⟨[], .nil, helements, nofun, hbytes, rfl⟩
      · rintro ⟨texts, hliterals, -, -, -, rfl⟩
        cases hliterals
        rfl
  | cons raw rest ih =>
      unfold visitTag
      split
      next hbudget =>
        simp only [Except.bind_eq_ok_iff, stringLength_eq_ok, Except.ofOption_eq_ok,
          checkedAdd_eq_some]
        constructor
        · rintro ⟨n, ⟨text, hstring, hmaximum, rfl⟩, bytes, ⟨rfl, hsum⟩, hrest⟩
          obtain ⟨texts, hliterals, hcount, hall, htotal, rfl⟩ :=
            (ih (Nat.succ_le_of_lt hbudget) hsum).mp hrest
          refine ⟨text :: texts, .cons hstring hliterals, ?_, ?_, ?_, ?_⟩
          · simp only [List.length_cons] at hcount ⊢
            omega
          · exact List.forall_mem_cons.mpr ⟨hmaximum, hall⟩
          · rw [textBytes_cons]
            simp only at htotal
            omega
          · simp only [textBytes_cons, List.length_cons, Measurement.mk.injEq, true_and]
            omega
        · rintro ⟨texts, hliterals, hcount, hall, htotal, rfl⟩
          cases hliterals with
          | cons hstring hliterals =>
              rename_i text texts
              obtain ⟨hmaximum, hall⟩ := List.forall_mem_cons.mp hall
              rw [textBytes_cons] at htotal
              rw [List.length_cons] at hcount
              have hsum : result.bytes + (utf8 text).length < usizeRange := by omega
              refine ⟨_, ⟨text, hstring, hmaximum, rfl⟩, _, ⟨rfl, hsum⟩, ?_⟩
              refine (ih (Nat.succ_le_of_lt hbudget) hsum).mpr
                ⟨texts, hliterals, ?_, hall, ?_, ?_⟩
              · simp only
                omega
              · simp only
                omega
              · simp only [textBytes_cons, List.length_cons, Measurement.mk.injEq, true_and]
                omega
      next hbudget =>
        rw [lookAhead_eq_ok]
        constructor
        · rintro ⟨hnil, -⟩
          cases hnil
        · rintro ⟨texts, hliterals, hcount, -⟩
          cases hliterals with
          | cons =>
              rw [List.length_cons] at hcount
              omega

theorem deserializeTag_eq_ok {serde : SerdeJson} {maximumElements maximumElementBytes : ℕ}
    {raw : Str} {m : Measurement} :
    deserializeTag serde maximumElements maximumElementBytes raw = .ok m ↔
      ∃ texts, serde.StringArray raw texts ∧ texts.length ≤ maximumElements ∧
        (∀ text ∈ texts, (utf8 text).length ≤ maximumElementBytes) ∧
        textBytes texts < usizeRange ∧
        m = { count := 1, elements := texts.length, bytes := textBytes texts } := by
  unfold deserializeTag SerdeJson.StringArray
  split
  next elements hparse =>
    rw [visitTag_eq_ok (Nat.zero_le _) (by decide), hparse]
    simp only [Nat.zero_add, Option.some.injEq, JsonShape.array.injEq, exists_eq_left']
  next hparse =>
    constructor
    · intro h
      cases h
    · rintro ⟨texts, ⟨elements, harray, -⟩, -⟩
      exact absurd harray (hparse elements)

/-- The visitor of tags accepts exactly the tags that fit what is left of each limit. -/
theorem visitTags_eq_ok {serde : SerdeJson} {limits : Nip46AdmissionLimits}
    {result m : Measurement} {sequence : List Str} (hcount : result.count ≤ limits.eventTagCount)
    (helements : result.elements ≤ limits.eventTagTotalElements)
    (hbytes : result.bytes ≤ limits.eventTagTotalBytes) :
    visitTags serde limits.toAdmissionLimits result sequence = .ok m ↔
      ∃ tags, List.Forall₂ serde.StringArray sequence tags ∧
        result.count + tags.length ≤ limits.eventTagCount ∧
        result.elements + tags.flatten.length ≤ limits.eventTagTotalElements ∧
        (∀ text ∈ tags.flatten, (utf8 text).length ≤ limits.eventTagElementBytes) ∧
        result.bytes + textBytes tags.flatten ≤ limits.eventTagTotalBytes ∧
        m = { count := result.count + tags.length,
              elements := result.elements + tags.flatten.length,
              bytes := result.bytes + textBytes tags.flatten } := by
  have hrange := limits.bytes_bounded
  have hrange' := limits.elements_bounded
  induction sequence generalizing result with
  | nil =>
      have hvisit : visitTags serde limits.toAdmissionLimits result [] = .ok result := by
        unfold visitTags
        split
        · rw [Except.require, if_pos helements]
          rfl
        · rfl
      rw [hvisit]
      constructor
      · intro h
        obtain rfl := Except.ok.inj h
        exact ⟨[], .nil, hcount, helements, fun _ h => absurd h List.not_mem_nil, hbytes, rfl⟩
      · rintro ⟨tags, harrays, -, -, -, -, rfl⟩
        cases harrays
        rfl
  | cons raw rest ih =>
      unfold visitTags
      split
      next hbudget =>
        simp only [Except.bind_eq_ok_iff, deserializeTag_eq_ok, Except.ofOption_eq_ok,
          Except.require_eq_ok, checkedAdd_eq_some]
        constructor
        · rintro ⟨-, -, tag, ⟨texts, harray, htexts, hall, htag, rfl⟩, elements, ⟨rfl, -⟩, bytes,
            ⟨rfl, -⟩, -, htotal, hrest⟩
          obtain ⟨tags, harrays, hcounts, hsum, halls, hbound, rfl⟩ :=
            (ih (Nat.succ_le_of_lt hbudget) (by simp only; omega) htotal).mp hrest
          refine ⟨texts :: tags, .cons harray harrays, ?_, ?_, ?_, ?_, ?_⟩
          · simp only [List.length_cons] at hcounts ⊢
            omega
          · simp only [List.flatten_cons, List.length_append] at hsum ⊢
            omega
          · rw [List.flatten_cons]
            exact List.forall_mem_append.mpr ⟨hall, halls⟩
          · simp only [List.flatten_cons, textBytes_append] at hbound ⊢
            omega
          · simp only [List.flatten_cons, List.length_append, textBytes_append, List.length_cons,
              Measurement.mk.injEq]
            omega
        · rintro ⟨tags, harrays, hcounts, hsum, halls, hbound, rfl⟩
          cases harrays with
          | cons harray harrays =>
              rename_i texts tags
              rw [List.flatten_cons] at hsum halls hbound
              obtain ⟨hall, halls⟩ := List.forall_mem_append.mp halls
              rw [textBytes_append] at hbound
              rw [List.length_append] at hsum
              rw [List.length_cons] at hcounts
              have hfit : texts.length ≤ limits.eventTagTotalElements - result.elements := by omega
              have htag : textBytes texts < usizeRange := by omega
              have hadd : result.elements + texts.length < usizeRange := by omega
              have hadd' : result.bytes + textBytes texts < usizeRange := by omega
              have htotal : result.bytes + textBytes texts ≤ limits.eventTagTotalBytes := by omega
              refine ⟨(), helements, _, ⟨texts, harray, hfit, hall, htag, rfl⟩, _, ⟨rfl, hadd⟩, _,
                ⟨rfl, hadd'⟩, (), htotal, ?_⟩
              refine (ih (Nat.succ_le_of_lt hbudget) (by simp only; omega)
                (by simp only; omega)).mpr ⟨tags, harrays, ?_, ?_, halls, ?_, ?_⟩
              · simp only
                omega
              · simp only
                omega
              · simp only
                omega
              · simp only [List.flatten_cons, List.length_append, textBytes_append,
                  List.length_cons, Measurement.mk.injEq]
                omega
      next hbudget =>
        rw [lookAhead_eq_ok]
        constructor
        · rintro ⟨hnil, -⟩
          cases hnil
        · rintro ⟨tags, harrays, hcounts, -⟩
          cases harrays with
          | cons =>
              rw [List.length_cons] at hcounts
              omega

theorem mapError_eq_ok {ε ε' α : Type} {f : ε → ε'} {x : Except ε α} {a : α} :
    Except.mapError f x = .ok a ↔ x = .ok a := by
  cases x with
  | error e => simp [Except.mapError]
  | ok b => simp [Except.mapError]

/-- The tags of an event within the limits. -/
def Nip46AdmissionLimits.TagsWithin (limits : Nip46AdmissionLimits)
    (tags : List (List (List Char))) : Prop :=
  tags.length ≤ limits.eventTagCount ∧ tags.flatten.length ≤ limits.eventTagTotalElements ∧
    (∀ text ∈ tags.flatten, (utf8 text).length ≤ limits.eventTagElementBytes) ∧
    textBytes tags.flatten ≤ limits.eventTagTotalBytes

theorem measureTags_eq_ok {serde : SerdeJson} {limits : Nip46AdmissionLimits} {raw : Str}
    {m : Measurement} :
    measureTags serde raw limits.toAdmissionLimits = .ok m ↔
      ∃ tags, serde.TagArray raw tags ∧ limits.TagsWithin tags ∧
        m = { count := tags.length, elements := tags.flatten.length,
              bytes := textBytes tags.flatten } := by
  unfold measureTags SerdeJson.TagArray Nip46AdmissionLimits.TagsWithin
  rw [mapError_eq_ok]
  split
  next elements hparse =>
    rw [visitTags_eq_ok (Nat.zero_le _) (Nat.zero_le _) (Nat.zero_le _), hparse]
    simp only [Nat.zero_add, Option.some.injEq, JsonShape.array.injEq, exists_eq_left', and_assoc]
  next hparse =>
    constructor
    · intro h
      cases h
    · rintro ⟨tags, ⟨elements, harray, -⟩, -⟩
      exact absurd harray (hparse elements)

/-- The visitor of parameters accepts exactly the strings that fit what is left of each limit. -/
theorem visitStrings_eq_ok {limits : RequestLimits} {result m : Measurement}
    {sequence : List Str} (hcount : result.count ≤ limits.requestParamCountMax)
    (hsame : result.elements = result.count)
    (hbytes : result.bytes ≤ limits.requestParamsMaxBytes) :
    visitStrings limits result sequence = .ok m ↔
      ∃ texts, Literals sequence texts ∧
        result.count + texts.length ≤ limits.requestParamCountMax ∧
        (∀ text ∈ texts, (utf8 text).length ≤ limits.requestParamMaxBytes) ∧
        result.bytes + textBytes texts ≤ limits.requestParamsMaxBytes ∧
        m = { count := result.count + texts.length, elements := result.count + texts.length,
              bytes := result.bytes + textBytes texts } := by
  have hrange := limits.params_bounded
  induction sequence generalizing result with
  | nil =>
      have hvisit : visitStrings limits result [] = .ok result := by
        unfold visitStrings
        split
        · rfl
        · rfl
      rw [hvisit]
      constructor
      · intro h
        obtain rfl := Except.ok.inj h
        obtain ⟨count, elements, bytes⟩ := result
        obtain rfl : elements = count := hsame
        exact ⟨[], .nil, hcount, nofun, hbytes, rfl⟩
      · rintro ⟨texts, hliterals, -, -, -, rfl⟩
        obtain ⟨count, elements, bytes⟩ := result
        obtain rfl : elements = count := hsame
        cases hliterals
        rfl
  | cons raw rest ih =>
      unfold visitStrings
      split
      next hbudget =>
        simp only [Except.bind_eq_ok_iff, stringLength_eq_ok, Except.ofOption_eq_ok,
          Except.require_eq_ok, checkedAdd_eq_some]
        constructor
        · rintro ⟨n, ⟨text, hstring, hmaximum, rfl⟩, bytes, ⟨rfl, -⟩, -, htotal, hrest⟩
          obtain ⟨texts, hliterals, hcounts, hall, hbound, rfl⟩ :=
            (ih (Nat.succ_le_of_lt hbudget) rfl htotal).mp hrest
          refine ⟨text :: texts, .cons hstring hliterals, ?_, ?_, ?_, ?_⟩
          · simp only [List.length_cons] at hcounts ⊢
            omega
          · exact List.forall_mem_cons.mpr ⟨hmaximum, hall⟩
          · rw [textBytes_cons]
            simp only at hbound
            omega
          · simp only [textBytes_cons, List.length_cons, Measurement.mk.injEq]
            omega
        · rintro ⟨texts, hliterals, hcounts, hall, hbound, rfl⟩
          cases hliterals with
          | cons hstring hliterals =>
              rename_i text texts
              obtain ⟨hmaximum, hall⟩ := List.forall_mem_cons.mp hall
              rw [textBytes_cons] at hbound
              rw [List.length_cons] at hcounts
              refine ⟨_, ⟨text, hstring, hmaximum, rfl⟩, _, ⟨rfl, by omega⟩, (), by omega, ?_⟩
              refine (ih (Nat.succ_le_of_lt hbudget) rfl (by simp only; omega)).mpr
                ⟨texts, hliterals, ?_, hall, ?_, ?_⟩
              · simp only
                omega
              · simp only
                omega
              · simp only [textBytes_cons, List.length_cons, Measurement.mk.injEq]
                omega
      next hbudget =>
        rw [lookAhead_eq_ok]
        constructor
        · rintro ⟨hnil, -⟩
          cases hnil
        · rintro ⟨texts, hliterals, hcounts, -⟩
          cases hliterals with
          | cons =>
              rw [List.length_cons] at hcounts
              omega

/-- The parameters of a request within the limits. -/
def RequestLimits.ParametersWithin (limits : RequestLimits) (texts : List (List Char)) : Prop :=
  texts.length ≤ limits.requestParamCountMax ∧
    (∀ text ∈ texts, (utf8 text).length ≤ limits.requestParamMaxBytes) ∧
    textBytes texts ≤ limits.requestParamsMaxBytes

theorem measureParameters_eq_ok {serde : SerdeJson} {limits : RequestLimits} {raw : Str}
    {m : Measurement} :
    measureParameters serde limits raw = .ok m ↔
      ∃ texts, serde.StringArray raw texts ∧ limits.ParametersWithin texts ∧
        m = { count := texts.length, elements := texts.length, bytes := textBytes texts } := by
  unfold measureParameters SerdeJson.StringArray RequestLimits.ParametersWithin
  rw [mapError_eq_ok]
  split
  next elements hparse =>
    rw [visitStrings_eq_ok (Nat.zero_le _) rfl (Nat.zero_le _), hparse]
    simp only [Nat.zero_add, Option.some.injEq, JsonShape.array.injEq, exists_eq_left', and_assoc]
  next hparse =>
    constructor
    · intro h
      cases h
    · rintro ⟨texts, ⟨elements, harray, -⟩, -⟩
      exact absurd harray (hparse elements)

/-! ## Fields of an object -/

theorem lookup_eq_some_iff {α β : Type} [BEq α] [LawfulBEq α] {members : List (α × β)}
    {key : α} {value : β} (hkeys : (members.map Prod.fst).Nodup) :
    members.lookup key = some value ↔ (key, value) ∈ members := by
  induction members with
  | nil => simp
  | cons member members ih =>
      obtain ⟨key', value'⟩ := member
      rw [List.map_cons, List.nodup_cons] at hkeys
      obtain ⟨hfresh, hkeys⟩ := hkeys
      rw [List.lookup_cons, List.mem_cons, Prod.mk.injEq]
      by_cases hkey : key = key'
      · subst hkey
        have hother : (key, value) ∉ members := fun hmem =>
          hfresh (List.mem_map.mpr ⟨(key, value), hmem, rfl⟩)
        simp [hother, eq_comm]
      · have hbeq : (key == key') = false := beq_false_of_ne hkey
        rw [hbeq]
        simp [hkey, ih hkeys]

/-- An object has these fields exactly when its members are the fields in some order. -/
theorem visitMap_eq_some {names : List (List Char)} (hnames : names.Nodup)
    {members : List (List Char × Str)} {values : List Str} :
    visitMap names members = some values ↔
      values.length = names.length ∧ members.Perm (names.zip values) := by
  have hfields : values.length = names.length → (names.zip values).map Prod.fst = names :=
    fun hlength => List.map_fst_zip (Nat.le_of_eq hlength.symm)
  unfold visitMap
  constructor
  · intro h
    split at h
    next hmembers =>
      obtain ⟨hknown, hkeys⟩ := hmembers
      obtain ⟨hlength, hlookup⟩ := List.forall₂_iff_zip.mp (Option.mapM_eq_some_iff.mp h)
      replace hlength := hlength.symm
      refine ⟨hlength, (List.perm_ext_iff_of_nodup (List.Nodup.of_map _ hkeys) ?_).mpr ?_⟩
      · exact List.Nodup.of_map Prod.fst (by rw [hfields hlength]; exact hnames)
      · rintro ⟨name, value⟩
        constructor
        · intro hmember
          have hname : name ∈ (names.zip values).map Prod.fst := by
            rw [hfields hlength]
            exact hknown _ hmember
          obtain ⟨⟨_, value'⟩, hfield, rfl⟩ := List.mem_map.mp hname
          have hfound := (hlookup hfield).symm.trans ((lookup_eq_some_iff hkeys).mpr hmember)
          obtain rfl := Option.some.inj hfound
          exact hfield
        · intro hfield
          exact (lookup_eq_some_iff hkeys).mp (hlookup hfield)
    next => cases h
  · rintro ⟨hlength, hperm⟩
    have hkeys : (members.map Prod.fst).Nodup := by
      rw [(hperm.map Prod.fst).nodup_iff, hfields hlength]
      exact hnames
    have hknown : ∀ member ∈ members, member.1 ∈ names := by
      intro member hmember
      rw [← hfields hlength]
      exact List.mem_map_of_mem (hperm.mem_iff.mp hmember)
    rw [if_pos ⟨hknown, hkeys⟩, Option.mapM_eq_some_iff, List.forall₂_iff_zip]
    refine ⟨hlength.symm, fun hfield => ?_⟩
    exact (lookup_eq_some_iff hkeys).mpr (hperm.mem_iff.mpr hfield)

/-- A text is a struct with these fields: an object that has them in any order, or an array of
their values in theirs. -/
def SerdeJson.IsStruct (serde : SerdeJson) (source : Str) (names : List (List Char))
    (values : List Str) : Prop :=
  (∃ members, serde.parse source = some (.object members) ∧ members.Perm (names.zip values)) ∨
    serde.parse source = some (.array values)

theorem deserializeStruct_eq_some {serde : SerdeJson} {source : Str} {names : List (List Char)}
    (hnames : names.Nodup) {values : List Str} (hlength : values.length = names.length) :
    (serde.parse source).bind (deserializeStruct names) = some values ↔
      serde.IsStruct source names values := by
  unfold SerdeJson.IsStruct
  cases serde.parse source with
  | none => simp
  | some shape =>
      cases shape with
      | object members => simp [deserializeStruct, visitMap_eq_some hnames, hlength]
      | array elements =>
          simp only [Option.bind_some, deserializeStruct, Option.some.injEq, JsonShape.array.injEq,
            reduceCtorEq, false_and, exists_false, false_or]
          constructor
          · intro h
            split at h
            next => exact Option.some.inj h
            next => cases h
          · rintro rfl
            rw [if_pos hlength]
      | unsigned value => simp [deserializeStruct]
      | other => simp [deserializeStruct]

theorem RawEvent.deserialize_eq_some {serde : SerdeJson} {source : Str} {raw : RawEvent} :
    (serde.parse source).bind RawEvent.deserialize = some raw ↔
      serde.IsStruct source RawEvent.names raw.values := by
  rw [← deserializeStruct_eq_some (by decide) rfl]
  cases serde.parse source with
  | none => simp
  | some shape =>
      rw [Option.bind_some, Option.bind_some, RawEvent.deserialize]
      constructor
      · intro h
        split at h
        next hvalues =>
          obtain rfl := Option.some.inj h
          exact hvalues
        next => cases h
      · intro hvalues
        rw [hvalues]
        rfl

theorem RawRequest.deserialize_eq_some {serde : SerdeJson} {source : Str} {raw : RawRequest} :
    (serde.parse source).bind RawRequest.deserialize = some raw ↔
      serde.IsStruct source RawRequest.names raw.values := by
  rw [← deserializeStruct_eq_some (by decide) rfl]
  cases serde.parse source with
  | none => simp
  | some shape =>
      rw [Option.bind_some, Option.bind_some, RawRequest.deserialize]
      constructor
      · intro h
        split at h
        next hvalues =>
          obtain rfl := Option.some.inj h
          exact hvalues
        next => cases h
      · intro hvalues
        rw [hvalues]
        rfl

/-! ## Admission is exact -/

/-- A byte array is the encoding of a text exactly when the text is read from it. -/
theorem fromUTF8_eq_some {bytes : ByteArray} {text : String} :
    String.fromUTF8? bytes = some text ↔ text.toByteArray = bytes := by
  unfold String.fromUTF8?
  constructor
  · intro h
    split at h
    next hvalid =>
      obtain rfl := Option.some.inj h
      rfl
    next => cases h
  · rintro rfl
    rw [dif_pos text.isValidUTF8]
    rfl

theorem utf8_toList (text : String) : (utf8 text.toList).toByteArray = text.toByteArray := by
  change text.toList.utf8Encode = text.toByteArray
  rw [← String.toByteArray_ofList, String.ofList_toList]

theorem Str.fromUtf8_eq_some {bytes : Bytes} {source : Str} :
    Str.fromUtf8 bytes = some source ↔ source.asBytes = bytes := by
  unfold Str.fromUtf8
  constructor
  · intro h
    split at h
    next text htext =>
      split at h
      next hbounded =>
        obtain rfl := Option.some.inj h
        refine List.toByteArray_inj.mp ?_
        rw [Str.asBytes, utf8_toList, fromUTF8_eq_some.mp htext]
      next => cases h
    next => cases h
  · rintro rfl
    have htext : String.fromUTF8? source.asBytes.toByteArray = some (String.ofList source.text) :=
      fromUTF8_eq_some.mpr String.toByteArray_ofList
    rw [htext]
    simp only [String.toList_ofList]
    exact dif_pos source.bounded

/-- A raw text is a string of at most this many bytes. -/
def StringWithin (raw : Str) (maximum : ℕ) (text : List Char) : Prop :=
  JsonString raw.text text ∧ (utf8 text).length ≤ maximum

theorem validateBoundedString_eq_ok {raw : Str} {maximum n : ℕ}
    {tooLarge malformed : AdmissionErrorKind} :
    validateBoundedString raw maximum tooLarge malformed = .ok n ↔
      ∃ text, StringWithin raw maximum text ∧ n = (utf8 text).length := by
  simp only [validateBoundedString, StringWithin, Except.bind_eq_ok_iff, Except.ofOption_eq_ok,
    decoded_iff, Except.require_eq_ok, Except.ok.injEq]
  constructor
  · rintro ⟨n, ⟨text, hstring, rfl⟩, -, hmaximum, rfl⟩
    exact ⟨text, ⟨hstring, hmaximum⟩, rfl⟩
  · rintro ⟨text, ⟨hstring, hmaximum⟩, rfl⟩
    exact ⟨_, ⟨text, hstring, rfl⟩, (), hmaximum, rfl⟩

theorem decodeBoundedString_eq_ok {serde : SerdeJson} (hstrings : serde.DecodesStrings)
    {raw : Str} {maximum : ℕ} {tooLarge malformed : AdmissionErrorKind} {text : List Char} :
    decodeBoundedString serde raw maximum tooLarge malformed = .ok text ↔
      StringWithin raw maximum text := by
  simp only [decodeBoundedString, Except.bind_eq_ok_iff, validateBoundedString_eq_ok,
    Except.ofOption_eq_ok]
  constructor
  · rintro ⟨_, ⟨text', ⟨hstring, hmaximum⟩, -⟩, hdecoded⟩
    obtain rfl := Option.some.inj ((hstrings raw text' hstring).symm.trans hdecoded)
    exact ⟨hstring, hmaximum⟩
  · intro hwithin
    exact ⟨_, ⟨text, hwithin, rfl⟩, hstrings raw text hwithin.1⟩

/-- A raw text is a number of 64 bits without a sign. -/
def SerdeJson.IsU64 (serde : SerdeJson) (raw : Str) : Prop :=
  ∃ value < 2 ^ 64, serde.parse raw = some (.unsigned value)

theorem exists_parseScalar_eq_ok {serde : SerdeJson} {raw : Str} {malformed : AdmissionErrorKind} :
    (∃ value, parseScalar serde raw malformed = .ok value) ↔ serde.IsU64 raw := by
  unfold parseScalar SerdeJson.IsU64
  split
  next value hparse =>
    rw [hparse]
    by_cases hvalue : value < 2 ^ 64
    · simp only [if_pos hvalue, Except.ok.injEq, exists_eq', true_iff]
      exact ⟨value, hvalue, rfl⟩
    · simp only [if_neg hvalue, reduceCtorEq, exists_false, false_iff]
      rintro ⟨value', hvalue', hsome⟩
      obtain rfl : value = value' := by simpa using hsome
      exact hvalue hvalue'
  next hparse =>
    constructor
    · rintro ⟨value, h⟩
      cases h
    · rintro ⟨value, -, hsome⟩
      exact absurd hsome (hparse value)

/-- The raw fields of an event within the limits, with its content and its tags. -/
structure RawEvent.Within (serde : SerdeJson) (limits : Nip46AdmissionLimits) (raw : RawEvent)
    (content : List Char) (tags : List (List (List Char))) : Prop where
  id : ∃ text, StringWithin raw.id 64 text
  pubkey : ∃ text, StringWithin raw.pubkey 64 text
  sig : ∃ text, StringWithin raw.sig 128 text
  createdAt : serde.IsU64 raw.createdAt
  kind : serde.IsU64 raw.kind
  contentWithin : StringWithin raw.content limits.eventContentBytes content
  tagArray : serde.TagArray raw.tags tags
  tagsWithin : limits.TagsWithin tags

/-- The raw fields of a request within the limits, with its texts. -/
structure RawRequest.Within (serde : SerdeJson) (limits : RequestLimits) (raw : RawRequest)
    (id method : List Char) (params : List (List Char)) : Prop where
  idWithin : StringWithin raw.id limits.requestIdMaxBytes id
  methodWithin : StringWithin raw.method limits.methodMaxBytes method
  stringArray : serde.StringArray raw.params params
  parametersWithin : limits.ParametersWithin params

theorem admitMycNip46Event_eq_ok {serde : SerdeJson} (hstrings : serde.DecodesStrings)
    {limits : Nip46AdmissionLimits} {original : Bytes} {event : BoundedNip46Event} :
    admitMycNip46Event serde limits.toAdmissionLimits original = .ok event ↔
      original ≠ [] ∧ original.length ≤ limits.eventWireBytes ∧
      ∃ (source : Str) (raw : RawEvent) (content : List Char) (tags : List (List (List Char))),
        source.asBytes = original ∧
        serde.IsStruct source RawEvent.names raw.values ∧ raw.Within serde limits content tags ∧
        event = { original, encryptedContent := content, tagCount := tags.length,
                  tagElementCount := tags.flatten.length, tagBytes := textBytes tags.flatten } := by
  simp only [admitMycNip46Event, Except.bind_eq_ok_iff, Except.require_eq_ok,
    Except.ofOption_eq_ok, Str.fromUtf8_eq_some, RawEvent.deserialize_eq_some,
    validateBoundedString_eq_ok, decodeBoundedString_eq_ok hstrings, measureTags_eq_ok,
    Except.ok.injEq]
  constructor
  · rintro ⟨-, hne, -, hwire, source, hsource, raw, hstruct, _, ⟨id, hid, -⟩, _,
      ⟨pubkey, hpubkey, -⟩, _, ⟨sig, hsig, -⟩, createdAt, hcreatedAt, kind, hkind, content, hcontent, _,
      ⟨tags, harray, hwithin, rfl⟩, rfl⟩
    exact ⟨hne, hwire, source, raw, content, tags, hsource, hstruct,
      ⟨⟨id, hid⟩, ⟨pubkey, hpubkey⟩, ⟨sig, hsig⟩, exists_parseScalar_eq_ok.mp ⟨_, hcreatedAt⟩,
        exists_parseScalar_eq_ok.mp ⟨_, hkind⟩, hcontent, harray, hwithin⟩, rfl⟩
  · rintro ⟨hne, hwire, source, raw, content, tags, hsource, hstruct, h, rfl⟩
    obtain ⟨id, hid⟩ := h.id
    obtain ⟨pubkey, hpubkey⟩ := h.pubkey
    obtain ⟨sig, hsig⟩ := h.sig
    obtain ⟨createdAt, hcreatedAt⟩ := exists_parseScalar_eq_ok.mpr h.createdAt
    obtain ⟨kind, hkind⟩ := exists_parseScalar_eq_ok.mpr h.kind
    exact ⟨(), hne, (), hwire, source, hsource, raw, hstruct, _, ⟨id, hid, rfl⟩, _,
      ⟨pubkey, hpubkey, rfl⟩, _, ⟨sig, hsig, rfl⟩, createdAt, hcreatedAt, kind, hkind, content,
      h.contentWithin, _, ⟨tags, h.tagArray, h.tagsWithin, rfl⟩, rfl⟩

theorem admitMycNip46Request_eq_ok {serde : SerdeJson} {limits : AdmissionLimits}
    {requestLimits : RequestLimits} {plaintext : Bytes} {request : BoundedNip46Request} :
    admitMycNip46Request serde limits requestLimits plaintext = .ok request ↔
      plaintext ≠ [] ∧ plaintext.length ≤ limits.decryptedPlaintextBytes ∧
      ∃ (source : Str) (raw : RawRequest) (id method : List Char) (params : List (List Char)),
        source.asBytes = plaintext ∧
        serde.IsStruct source RawRequest.names raw.values ∧
        raw.Within serde requestLimits id method params ∧
        request = { plaintext, requestIdBytes := (utf8 id).length,
                    methodBytes := (utf8 method).length, parameterCount := params.length,
                    parameterBytes := textBytes params } := by
  simp only [admitMycNip46Request, Except.bind_eq_ok_iff, Except.require_eq_ok,
    Except.ofOption_eq_ok, Str.fromUtf8_eq_some, RawRequest.deserialize_eq_some,
    validateBoundedString_eq_ok, measureParameters_eq_ok, Except.ok.injEq]
  constructor
  · rintro ⟨-, hne, -, hwire, source, hsource, raw, hstruct, _, ⟨id, hid, rfl⟩, _,
      ⟨method, hmethod, rfl⟩, _, ⟨params, harray, hwithin, rfl⟩, rfl⟩
    exact ⟨hne, hwire, source, raw, id, method, params, hsource, hstruct,
      ⟨hid, hmethod, harray, hwithin⟩, rfl⟩
  · rintro ⟨hne, hwire, source, raw, id, method, params, hsource, hstruct, h, rfl⟩
    exact ⟨(), hne, (), hwire, source, hsource, raw, hstruct, _, ⟨id, h.idWithin, rfl⟩, _,
      ⟨method, h.methodWithin, rfl⟩, _, ⟨params, h.stringArray, h.parametersWithin, rfl⟩, rfl⟩

/-- Admission accepts exactly the texts within the limits that are an event, or a request, with
exactly its fields, and records their true measures.  Besides an object with the fields in any
order it takes an array of their values in the declared order. -/
theorem admission_exact (serde : SerdeJson) (hstrings : serde.DecodesStrings)
    (limits : Nip46AdmissionLimits) (requestLimits : RequestLimits) :
    (∀ (original : Bytes) (event : BoundedNip46Event),
      admitMycNip46Event serde limits.toAdmissionLimits original = .ok event ↔
        original ≠ [] ∧ original.length ≤ limits.eventWireBytes ∧
        ∃ (source : Str) (raw : RawEvent) (content : List Char) (tags : List (List (List Char))),
          source.asBytes = original ∧ serde.IsStruct source RawEvent.names raw.values ∧
          raw.Within serde limits content tags ∧
          event = { original, encryptedContent := content, tagCount := tags.length,
                    tagElementCount := tags.flatten.length,
                    tagBytes := textBytes tags.flatten }) ∧
    (∀ (plaintext : Bytes) (request : BoundedNip46Request),
      admitMycNip46Request serde limits.toAdmissionLimits requestLimits plaintext = .ok request ↔
        plaintext ≠ [] ∧ plaintext.length ≤ limits.decryptedPlaintextBytes ∧
        ∃ (source : Str) (raw : RawRequest) (id method : List Char) (params : List (List Char)),
          source.asBytes = plaintext ∧ serde.IsStruct source RawRequest.names raw.values ∧
          raw.Within serde requestLimits id method params ∧
          request = { plaintext, requestIdBytes := (utf8 id).length,
                      methodBytes := (utf8 method).length, parameterCount := params.length,
                      parameterBytes := textBytes params }) :=
  ⟨fun _ _ => admitMycNip46Event_eq_ok hstrings, fun _ _ => admitMycNip46Request_eq_ok⟩

/-! ## An event in an object and in an array -/

namespace SampleJson

def empty : Str := ⟨"\"\"".toList, by decide⟩

def zero : Str := ⟨"0".toList, by decide⟩

def element : Str := ⟨"\"p\"".toList, by decide⟩

def tag : Str := ⟨"[\"p\"]".toList, by decide⟩

def tags : Str := ⟨"[[\"p\"]]".toList, by decide⟩

def raw : RawEvent where
  id := empty
  pubkey := empty
  createdAt := zero
  kind := zero
  tags := tags
  content := empty
  sig := empty

/-- The event as an object, the content before the tags. -/
def object : Str :=
  ⟨("\x7b\"id\":\"\",\"pubkey\":\"\",\"created_at\":0,\"kind\":0,\"content\":\"\"," ++
    "\"tags\":[[\"p\"]],\"sig\":\"\"\x7d").toList, by decide +kernel⟩

def members : List (List Char × Str) :=
  [("id".toList, empty), ("pubkey".toList, empty), ("created_at".toList, zero),
    ("kind".toList, zero), ("content".toList, empty), ("tags".toList, tags),
    ("sig".toList, empty)]

/-- The values of the event in an array. -/
def array : Str :=
  ⟨"[\"\",\"\",0,0,[[\"p\"]],\"\",\"\"]".toList, by decide⟩

/-- What the library finds in these texts. -/
def parse (text : Str) : Option JsonShape :=
  if text = object then some (.object members)
  else if text = array then some (.array raw.values)
  else if text = tags then some (.array [tag])
  else if text = tag then some (.array [element])
  else if text = zero then some (.unsigned 0)
  else some .other

open scoped Classical in
/-- What the library reads in a literal. -/
noncomputable def parseString (text : Str) : Option (List Char) :=
  if h : ∃ decoded, JsonString text.text decoded then some h.choose else none

noncomputable def serde : SerdeJson where
  parse := parse
  parseString := parseString
  invalidType _ expected := "invalid type, expected ".toList ++ expected

theorem serde_decodes : serde.DecodesStrings := by
  intro text decoded hstring
  change parseString text = some decoded
  unfold parseString
  rw [dif_pos ⟨decoded, hstring⟩]
  exact congrArg some (JsonString.unique (Exists.choose_spec _) hstring)

theorem parse_object : serde.parse object = some (.object members) := rfl

theorem parse_array : serde.parse array = some (.array raw.values) := rfl

theorem parse_tags : serde.parse tags = some (.array [tag]) := rfl

theorem parse_tag : serde.parse tag = some (.array [element]) := rfl

theorem parse_zero : serde.parse zero = some (.unsigned 0) := rfl

def limits : Nip46AdmissionLimits where
  eventWireBytes := 131072
  eventContentBytes := 65536
  eventTagCount := 1
  eventTagTotalElements := 1
  eventTagElementBytes := 1
  eventTagTotalBytes := 1
  decryptedPlaintextBytes := 65536
  elements_bounded := by decide
  bytes_bounded := by decide

def event (source : Str) : BoundedNip46Event where
  original := source.asBytes
  encryptedContent := []
  tagCount := 1
  tagElementCount := 1
  tagBytes := 1

theorem raw_within : raw.Within serde limits [] [[['p']]] := by
  have hempty : JsonString empty.text [] := .quoted .close
  have helement : JsonString element.text ['p'] :=
    .quoted (.char (.unescaped (by decide) (by decide) (by decide)) .close)
  have hzero : serde.IsU64 zero := ⟨0, by decide, parse_zero⟩
  exact ⟨⟨[], hempty, by decide⟩, ⟨[], hempty, by decide⟩, ⟨[], hempty, by decide⟩, hzero, hzero,
    ⟨hempty, by decide⟩,
    ⟨[tag], parse_tags, .cons ⟨[element], parse_tag, .cons helement .nil⟩ .nil⟩,
    ⟨by decide, by decide, by decide, by decide⟩⟩

end SampleJson

open SampleJson in
/-- An event that fills each limit of its tags is admitted. -/
theorem object_admitted :
    admitMycNip46Event serde limits.toAdmissionLimits object.asBytes = .ok (event object) := by
  refine ((admission_exact serde serde_decodes limits ⟨0, 0, 0, 0, 0, by decide⟩).1 _ _).mpr
    ⟨by decide +kernel, by decide +kernel, object, raw, [], [[['p']]], rfl, ?_, raw_within, rfl⟩
  refine .inl ⟨members, parse_object, ?_⟩
  decide +kernel

open SampleJson in
/-- The array of its values is admitted too. -/
theorem array_admitted :
    ¬ ∀ (serde : SerdeJson) (limits : Nip46AdmissionLimits) (original : Bytes)
      (event : BoundedNip46Event), serde.DecodesStrings →
      admitMycNip46Event serde limits.toAdmissionLimits original = .ok event →
      ∃ source members, source.asBytes = original ∧
        serde.parse source = some (.object members) := by
  intro h
  have hadmitted : admitMycNip46Event serde limits.toAdmissionLimits array.asBytes =
      .ok (event array) :=
    (admitMycNip46Event_eq_ok serde_decodes).mpr ⟨by decide +kernel, by decide +kernel, array, raw,
      [], [[['p']]], rfl, .inr parse_array, raw_within, rfl⟩
  obtain ⟨source, members, hsource, hparse⟩ := h serde limits _ _ serde_decodes hadmitted
  have hsame : source = array := by
    have htext : source.text = array.text := utf8_injective hsource
    cases source
    exact Str.mk.injEq .. ▸ htext
  rw [hsame, parse_array] at hparse
  cases hparse

end MycSigner
