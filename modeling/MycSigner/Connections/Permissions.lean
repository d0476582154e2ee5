import MycSigner.Configuration.Agreement
import MycSigner.Dispatch.Authorization
import MycSigner.Encoding
import MycSigner.Lib.Search

/-!
# Permissions as text

A permission is stored as a text, one row for each, and read back in whatever order the rows
come.  The text gives the permission back, the rows give the set back, and the digest of a set
belongs to no other set.
-/

namespace MycSigner

/-! ## Codes -/

/-- The digits of a number are digits and spell it. -/
theorem decimal_spells (n : ℕ) :
    (decimal n).all isAsciiDigit = true ∧ decimal n ≠ [] ∧ digitsValue (decimal n) = n := by
  induction n using Nat.strong_induction_on with
  | _ n ih =>
      have hone : ∀ m < 10, (decimal m).all isAsciiDigit = true ∧ decimal m ≠ [] ∧
          digitsValue (decimal m) = m := by decide
      by_cases hsmall : n < 10
      · exact hone n hsmall
      · obtain ⟨hdigits, hne, hvalue⟩ := ih (n / 10) (by omega)
        obtain ⟨hlast, -, hlastValue⟩ := hone (n % 10) (Nat.mod_lt _ (by decide))
        have hsplit : decimal n = decimal (n / 10) ++ decimal (n % 10) := by
          unfold decimal
          rw [← List.map_append, Nat.toDigits_append_toDigits (by decide) (by omega)
            (Nat.mod_lt _ (by decide)), Nat.div_add_mod]
        obtain ⟨digit, hdigit⟩ : ∃ digit, decimal (n % 10) = [digit] := by
          have hlength : ∀ m < 10, (decimal m).length = 1 := by decide
          exact List.length_eq_one_iff.mp (hlength _ (Nat.mod_lt _ (by decide)))
        refine ⟨by rw [hsplit, List.all_append, hdigits, hlast]; rfl, ?_, ?_⟩
        · rw [hsplit]
          exact List.append_ne_nil_of_left_ne_nil hne _
        · rw [hdigit] at hlastValue
          have hunit : digitsValue [digit] = digit.toNat - 48 := by simp [digitsValue]
          rw [hsplit, hdigit, digitsValue_append, hvalue]
          omega

theorem parseKind_decimal (kind : UInt32) : parseKind (decimal kind.toNat) = some kind := by
  obtain ⟨hdigits, hne, hvalue⟩ := decimal_spells kind.toNat
  have hparsed : parseU32 (decimal kind.toNat) = some kind := by
    rw [parseU32_unsigned hdigits, hdigits, hvalue, if_neg (by simp [hne]),
      if_pos kind.toNat_lt, UInt32.ofNat_toNat]
  rw [parseKind, hparsed]
  exact Option.filter_eq_some_iff.mpr ⟨rfl, decide_eq_true rfl⟩

/-- A permission is read back from its code. -/
theorem Permission.parse_code (permission : Permission) :
    Permission.parse permission.code = some permission := by
  cases permission with
  | signEvent kind =>
      have hplain : ∀ text ∈ [ascii "get_public_key", ascii "get_session_capability",
          ascii "nip04_encrypt", ascii "nip04_decrypt", ascii "nip44_encrypt",
          ascii "nip44_decrypt", ascii "ping", ascii "switch_relays", ascii "logout"],
          (Permission.signEvent kind).code ≠ text := by
        rintro text hmem rfl
        have hstarts : ∀ text ∈ [ascii "get_public_key", ascii "get_session_capability",
            ascii "nip04_encrypt", ascii "nip04_decrypt", ascii "nip44_encrypt",
            ascii "nip44_decrypt", ascii "ping", ascii "switch_relays", ascii "logout"],
            (ascii "sign_event:kind:").isPrefixOf text = false := by decide +kernel
        have hstart := Permission.code_signEvent_starts kind
        rw [hstarts _ hmem] at hstart
        cases hstart
      simp only [List.forall_mem_cons, List.not_mem_nil, false_imp_iff, implies_true,
        and_true] at hplain
      obtain ⟨h₁, h₂, h₃, h₄, h₅, h₆, h₇, h₈, h₉⟩ := hplain
      have hstrip : stripText (ascii "sign_event:kind:") (Permission.signEvent kind).code =
          some (decimal kind.toNat) := by
        rw [stripText, if_pos (Permission.code_signEvent_starts kind), Permission.code,
          List.drop_left]
      rw [Permission.parse, if_neg h₁, if_neg h₂, if_neg h₃, if_neg h₄, if_neg h₅, if_neg h₆,
        if_neg h₇, if_neg h₈, if_neg h₉, hstrip, Option.bind_some, parseKind_decimal]
      rfl
  | getPublicKey | getSessionCapability | nip04Encrypt | nip04Decrypt | nip44Encrypt | nip44Decrypt
  | ping | switchRelays | logout => decide +kernel

/-! ## Sets -/

/-- `permission_digest` of permissions in order. -/
def permissionDigest (permissions : List Permission) : Id32 :=
  Sha256.digest (domain "radroots.myc.connection_permissions.v1" ++
    u64Bytes permissions.length ++
    permissions.flatMap fun permission => lengthPrefixed permission.code)

/-- Two neighbours of a list are equal. -/
def repeatsNeighbour : List Permission → Bool
  | first :: second :: rest => first == second || repeatsNeighbour (second :: rest)
  | _ => false

/-- `MycConnectionPermissionSet::new`: the ordered permissions and their digest. -/
def sealPermissions (permissions : List Permission) : Option (List Permission × Id32) :=
  if 64 < permissions.length then none
  else
    let normalized := Table.ordered (fun left right => left.rank ≤ right.rank) permissions
    if repeatsNeighbour normalized then none
    else some (normalized, permissionDigest normalized)

theorem ordered_pairwise (permissions : List Permission) :
    (Table.ordered (fun left right : Permission => left.rank ≤ right.rank) permissions).Pairwise
      fun left right => left.rank ≤ right.rank := by
  have htotal : Std.Total fun left right : Permission =>
      decide (left.rank ≤ right.rank) = true :=
    ⟨fun left right => by simpa using Nat.le_total left.rank right.rank⟩
  have htrans : IsTrans Permission fun left right => decide (left.rank ≤ right.rank) = true :=
    ⟨fun first second third h₁ h₂ => by
      simp only [decide_eq_true_eq] at h₁ h₂ ⊢
      exact Nat.le_trans h₁ h₂⟩
  have hpairs := List.pairwise_insertionSort
    (fun left right : Permission => decide (left.rank ≤ right.rank) = true) permissions
  exact hpairs.imp fun h => of_decide_eq_true h

/-- In an ordered list the neighbours show every repetition. -/
theorem repeatsNeighbour_eq_false {permissions : List Permission}
    (h : permissions.Pairwise fun left right => left.rank ≤ right.rank) :
    repeatsNeighbour permissions = false ↔
      permissions.Pairwise fun left right => left.rank < right.rank := by
  induction permissions with
  | nil => simp [repeatsNeighbour]
  | cons first rest ih =>
      cases rest with
      | nil => simp [repeatsNeighbour]
      | cons second rest =>
          obtain ⟨hfirst, hrest⟩ := List.pairwise_cons.mp h
          rw [repeatsNeighbour, Bool.or_eq_false_iff, ih hrest]
          constructor
          · rintro ⟨hne, hstrict⟩
            refine List.pairwise_cons.mpr ⟨fun other hother => ?_, hstrict⟩
            have hsecond : first.rank < second.rank := by
              refine Nat.lt_of_le_of_ne (hfirst second List.mem_cons_self) fun heq => ?_
              exact ne_of_beq_false hne (Permission.rank_injective heq)
            rcases List.mem_cons.mp hother with rfl | hlater
            · exact hsecond
            · exact Nat.lt_trans hsecond ((List.pairwise_cons.mp hstrict).1 other hlater)
          · intro hall
            obtain ⟨hbelow, hstrict⟩ := List.pairwise_cons.mp hall
            refine ⟨?_, hstrict⟩
            rw [beq_eq_false_iff_ne]
            rintro rfl
            exact absurd (hbelow first List.mem_cons_self) (Nat.lt_irrefl _)

/-- The constructor of the model and the one of the source make the same set. -/
theorem sealPermissions_eq (permissions : List Permission) :
    sealPermissions permissions =
      (PermissionSet.new permissions).map fun set => (set.permissions, set.digest) := by
  have hperm := Table.ordered_perm (fun left right : Permission => left.rank ≤ right.rank)
    permissions
  have hstrict := repeatsNeighbour_eq_false (ordered_pairwise permissions)
  unfold sealPermissions PermissionSet.new
  dsimp only
  by_cases hvalid : permissionsValid (Table.ordered
      (fun left right : Permission => left.rank ≤ right.rank) permissions) = true
  · rw [dif_pos hvalid]
    simp only [permissionsValid, Bool.and_eq_true, decide_eq_true_eq] at hvalid
    rw [if_neg (by rw [← hperm.length_eq]; omega), hstrict.mpr hvalid.2]
    rfl
  · rw [dif_neg hvalid, Option.map_none]
    simp only [permissionsValid, Bool.and_eq_true, decide_eq_true_eq, not_and] at hvalid
    split
    next => rfl
    next hlength =>
      rw [if_pos]
      rw [hperm.length_eq] at hvalid
      rw [← Bool.not_eq_false, hstrict]
      exact hvalid (Nat.le_of_not_lt hlength)

theorem nodup_of_strict {permissions : List Permission}
    (h : permissions.Pairwise fun left right => left.rank < right.rank) : permissions.Nodup := by
  refine List.Pairwise.imp ?_ h
  rintro left right hlt rfl
  exact Nat.lt_irrefl _ hlt

/-- A set is refused exactly when it is too large or repeats a permission. -/
theorem PermissionSet.new_eq_none {permissions : List Permission} :
    PermissionSet.new permissions = none ↔ 64 < permissions.length ∨ ¬ permissions.Nodup := by
  constructor
  · intro hnone
    by_contra hadmitted
    obtain ⟨hlength, hnodup⟩ := not_or.mp hadmitted
    have hsome := PermissionSet.new_isSome (Nat.le_of_not_lt hlength) (not_not.mp hnodup)
    rw [hnone] at hsome
    cases hsome
  · intro hrefused
    rw [Option.eq_none_iff_forall_ne_some]
    intro set hset
    have hperm := Table.ordered_perm (fun left right : Permission => left.rank ≤ right.rank)
      permissions
    dsimp only [PermissionSet.new] at hset
    split at hset
    next hvalid =>
      simp only [permissionsValid, Bool.and_eq_true, decide_eq_true_eq] at hvalid
      rcases hrefused with hlength | hrepeats
      · rw [hperm.length_eq] at hvalid
        omega
      · exact hrepeats (hperm.nodup_iff.mp (nodup_of_strict hvalid.2))
    next => cases hset

theorem PermissionSet.permissions_strict (set : PermissionSet) :
    set.permissions.Pairwise fun left right => left.rank < right.rank := by
  have hvalid := set.valid
  simp only [permissionsValid, Bool.and_eq_true, decide_eq_true_eq] at hvalid
  exact hvalid.2

theorem PermissionSet.length_le (set : PermissionSet) : set.permissions.length ≤ 64 := by
  have hvalid := set.valid
  simp only [permissionsValid, Bool.and_eq_true, decide_eq_true_eq] at hvalid
  exact hvalid.1

theorem PermissionSet.ext_permissions {set other : PermissionSet}
    (h : set.permissions = other.permissions) : set = other := by
  cases set
  cases other
  cases h
  rfl

/-- Two ordered lists without repetition and with the same members are one. -/
theorem permissions_eq_of_perm {left right : List Permission} (hperm : left.Perm right)
    (hleft : left.Pairwise fun first second => first.rank < second.rank)
    (hright : right.Pairwise fun first second => first.rank < second.rank) : left = right :=
  hperm.eq_of_pairwise (fun _ _ _ _ h₁ h₂ => absurd h₁ (Nat.lt_asymm h₂)) hleft hright

/-- The order in which the permissions come does not matter. -/
theorem PermissionSet.new_of_perm {set : PermissionSet} {permissions : List Permission}
    (h : permissions.Perm set.permissions) : PermissionSet.new permissions = some set := by
  have hnodup : set.permissions.Nodup := nodup_of_strict set.permissions_strict
  cases hnew : PermissionSet.new permissions with
  | none =>
      rcases PermissionSet.new_eq_none.mp hnew with hlength | hrepeats
      · rw [h.length_eq] at hlength
        exact absurd set.length_le (Nat.not_le_of_lt hlength)
      · exact absurd (h.nodup_iff.mpr hnodup) hrepeats
  | some other =>
      have hperm : other.permissions.Perm permissions := by
        dsimp only [PermissionSet.new] at hnew
        split at hnew
        next =>
          obtain rfl := Option.some.inj hnew
          exact Table.ordered_perm _ permissions
        next => cases hnew
      rw [PermissionSet.ext_permissions (permissions_eq_of_perm (hperm.trans h)
        other.permissions_strict set.permissions_strict)]

theorem PermissionSet.new_perm {left right : List Permission} (h : left.Perm right) :
    PermissionSet.new left = PermissionSet.new right := by
  cases hright : PermissionSet.new right with
  | none =>
      rw [PermissionSet.new_eq_none] at hright ⊢
      rw [h.length_eq, h.nodup_iff]
      exact hright
  | some set =>
      have hperm : set.permissions.Perm right := by
        dsimp only [PermissionSet.new] at hright
        split at hright
        next =>
          obtain rfl := Option.some.inj hright
          exact Table.ordered_perm _ right
        next => cases hright
      exact PermissionSet.new_of_perm (h.trans hperm.symm)

/-! ## Membership -/

/-- `MycConnectionPermissionSet::contains`: a binary search of the ordered permissions. -/
def PermissionSet.searchContains (set : PermissionSet) (permission : Permission) : Bool :=
  (Search.find Permission.rank set.permissions permission.rank).isSome

/-- `MycConnectionPermissionSet::is_subset_of` -/
def PermissionSet.searchSubset (set other : PermissionSet) : Bool :=
  set.permissions.all fun permission =>
    (Search.find Permission.rank other.permissions permission.rank).isSome

theorem PermissionSet.searchContains_iff {set : PermissionSet} {permission : Permission} :
    set.searchContains permission = true ↔ permission ∈ set.permissions := by
  rw [searchContains, Search.find_isSome_iff set.permissions_strict]
  constructor
  · rintro ⟨other, hmem, hrank⟩
    exact Permission.rank_injective hrank ▸ hmem
  · exact fun hmem => ⟨permission, hmem, rfl⟩

theorem PermissionSet.searchSubset_iff {set other : PermissionSet} :
    set.searchSubset other = true ↔
      ∀ permission ∈ set.permissions, permission ∈ other.permissions := by
  rw [searchSubset, List.all_eq_true]
  exact forall₂_congr fun _ _ => searchContains_iff

/-! ## Rows -/

/-- `connection_permissions` as it is stored. -/
structure PermissionCodeRow where
  connectionId : Id32
  permissionScope : PermissionScope
  permissionCode : Bytes
deriving DecidableEq

/-- The `CHECK` on the length of a code. -/
def codeFits (code : Bytes) : Bool := 1 ≤ code.length && code.length ≤ 64

/-- `INSERT_PERMISSION_SQL`: the three columns are the primary key. -/
def insertPermissionCode (rows : List PermissionCodeRow) (row : PermissionCodeRow) :
    Except OperationError (List PermissionCodeRow) :=
  if row ∈ rows ∨ codeFits row.permissionCode = false then .error .storage else .ok (rows ++ [row])

/-- `insert_permissions` -/
def insertPermissionCodes (connectionId : Id32) (scope : PermissionScope)
    (permissions : List Permission) (rows : List PermissionCodeRow) :
    Except OperationError (List PermissionCodeRow) :=
  permissions.foldlM (fun rows permission =>
    insertPermissionCode rows ⟨connectionId, scope, permission.code⟩) rows

/-- One row of `READ_PERMISSIONS_SQL`, which is null when the code does not fit. -/
def readPermissionCode (row : PermissionCodeRow) : Except OperationError Permission := do
  .require (codeFits row.permissionCode = true) .binding
  .ofOption .binding (Permission.parse row.permissionCode)

/-- `read_permissions`: the rows come in any order, at most one more than a set holds. -/
def readPermissionCodes (connectionId : Id32) (scope : PermissionScope)
    (rows : List PermissionCodeRow) : Except OperationError (List Permission × Id32) := do
  let found := (rows.filter fun row => row.connectionId = connectionId ∧
    row.permissionScope = scope).take 65
  .require (found.length ≤ 64) .binding
  let permissions ← found.mapM readPermissionCode
  .ofOption .binding (sealPermissions permissions)

theorem length_decimal_le {n : ℕ} (h : n < 2 ^ 32) : (decimal n).length ≤ 10 := by
  rw [decimal, List.length_map]
  exact (Nat.length_toDigits_le_iff (by decide) (by decide)).mpr (by omega)

theorem Permission.codeFits_code (permission : Permission) : codeFits permission.code = true := by
  cases permission with
  | signEvent kind =>
      have hprefix : (ascii "sign_event:kind:").length = 16 := by decide +kernel
      have hdigits := length_decimal_le kind.toNat_lt
      simp only [codeFits, Permission.code, List.length_append, hprefix, Bool.and_eq_true,
        decide_eq_true_eq]
      omega
  | getPublicKey | getSessionCapability | nip04Encrypt | nip04Decrypt | nip44Encrypt | nip44Decrypt
  | ping | switchRelays | logout => decide +kernel

/-- The row of a permission. -/
def Permission.codeRow (connectionId : Id32) (scope : PermissionScope) (permission : Permission) :
    PermissionCodeRow :=
  ⟨connectionId, scope, permission.code⟩

theorem Permission.codeRow_injective (connectionId : Id32) (scope : PermissionScope) :
    Function.Injective (Permission.codeRow connectionId scope) := fun _ _ h =>
  Permission.code_injective (PermissionCodeRow.mk.inj h).2.2

/-- Rows that are not there yet are appended in order. -/
theorem insertPermissionCodes_eq_ok {connectionId : Id32} {scope : PermissionScope}
    {permissions : List Permission} {rows : List PermissionCodeRow} (hnodup : permissions.Nodup)
    (hfresh : ∀ permission ∈ permissions, permission.codeRow connectionId scope ∉ rows) :
    insertPermissionCodes connectionId scope permissions rows =
      .ok (rows ++ permissions.map (Permission.codeRow connectionId scope)) := by
  induction permissions generalizing rows with
  | nil =>
      rw [List.map_nil, List.append_nil]
      rfl
  | cons permission rest ih =>
      obtain ⟨hnew, hrest⟩ := List.nodup_cons.mp hnodup
      have hinsert : insertPermissionCode rows ⟨connectionId, scope, permission.code⟩ =
          .ok (rows ++ [permission.codeRow connectionId scope]) := by
        unfold insertPermissionCode
        rw [if_neg]
        · rfl
        · rintro (hmem | hlong)
          · exact hfresh permission List.mem_cons_self hmem
          · rw [permission.codeFits_code] at hlong
            cases hlong
      have hnone : ∀ other ∈ rest, other.codeRow connectionId scope ∉
          rows ++ [permission.codeRow connectionId scope] := by
        intro other hother hmem
        rcases List.mem_append.mp hmem with hold | hsame
        · exact hfresh other (List.mem_cons_of_mem _ hother) hold
        · obtain rfl := Permission.codeRow_injective _ _ (List.mem_singleton.mp hsame)
          exact hnew hother
      have hothers := ih hrest hnone
      unfold insertPermissionCodes at hothers ⊢
      rw [List.foldlM_cons, hinsert]
      refine hothers.trans ?_
      rw [List.append_assoc, List.map_cons, List.singleton_append]

theorem readPermissionCode_codeRow (connectionId : Id32) (scope : PermissionScope)
    (permission : Permission) :
    readPermissionCode (permission.codeRow connectionId scope) = .ok permission := by
  unfold readPermissionCode
  rw [show (permission.codeRow connectionId scope).permissionCode = permission.code from rfl,
    permission.codeFits_code, permission.parse_code]
  rfl

/-- The permission of a row that was written. -/
def PermissionCodeRow.permission (row : PermissionCodeRow) : Permission :=
  (Permission.parse row.permissionCode).getD .ping

theorem permission_codeRow (connectionId : Id32) (scope : PermissionScope)
    (permission : Permission) :
    (permission.codeRow connectionId scope).permission = permission := by
  rw [PermissionCodeRow.permission, Permission.codeRow, permission.parse_code]
  rfl

theorem mapM_readPermissionCode {connectionId : Id32} {scope : PermissionScope}
    {rows : List PermissionCodeRow}
    (h : ∀ row ∈ rows, ∃ permission, row = Permission.codeRow connectionId scope permission) :
    rows.mapM readPermissionCode = .ok (rows.map PermissionCodeRow.permission) := by
  induction rows with
  | nil => rfl
  | cons row rest ih =>
      obtain ⟨⟨permission, rfl⟩, hrest⟩ := List.forall_mem_cons.mp h
      rw [List.mapM_cons, readPermissionCode_codeRow, ih hrest, List.map_cons, permission_codeRow]
      rfl

/-- The rows of a set give the set back, in whatever order they come. -/
theorem readPermissionCodes_eq_ok {connectionId : Id32} {scope : PermissionScope}
    {set : PermissionSet} {rows : List PermissionCodeRow}
    (h : (rows.filter fun row => row.connectionId = connectionId ∧
      row.permissionScope = scope).Perm
        (set.permissions.map (Permission.codeRow connectionId scope))) :
    readPermissionCodes connectionId scope rows = .ok (set.permissions, set.digest) := by
  have hlength := h.length_eq
  rw [List.length_map] at hlength
  have hbounded := set.length_le
  have hrows : ∀ row ∈ rows.filter fun row => row.connectionId = connectionId ∧
      row.permissionScope = scope,
      ∃ permission, row = Permission.codeRow connectionId scope permission := by
    intro row hrow
    obtain ⟨permission, -, rfl⟩ := List.mem_map.mp (h.mem_iff.mp hrow)
    exact ⟨permission, rfl⟩
  have hperm : ((rows.filter fun row => row.connectionId = connectionId ∧
      row.permissionScope = scope).map PermissionCodeRow.permission).Perm set.permissions := by
    refine (h.map PermissionCodeRow.permission).trans (List.Perm.of_eq ?_)
    rw [List.map_map]
    exact (List.map_congr_left fun permission _ => permission_codeRow _ _ permission).trans
      (List.map_id _)
  unfold readPermissionCodes
  dsimp only
  rw [List.take_of_length_le (by omega), mapM_readPermissionCode hrows]
  rw [Except.require, if_pos (by omega)]
  change Except.ofOption OperationError.binding (sealPermissions _) = _
  rw [sealPermissions_eq, PermissionSet.new_of_perm hperm]
  rfl

/-- What is written under a connection and a scope that had no rows is read back, whatever else
the table holds and in whatever order its rows come. -/
theorem written_permissions_read {connectionId : Id32} {scope : PermissionScope}
    (set : PermissionSet) {rows : List PermissionCodeRow}
    (hfresh : ∀ row ∈ rows, ¬ (row.connectionId = connectionId ∧ row.permissionScope = scope)) :
    ∃ written, insertPermissionCodes connectionId scope set.permissions rows = .ok written ∧
      ∀ found, found.Perm written →
        readPermissionCodes connectionId scope found = .ok (set.permissions, set.digest) := by
  refine ⟨_, insertPermissionCodes_eq_ok (nodup_of_strict set.permissions_strict) ?_, ?_⟩
  · intro permission _ hmem
    exact hfresh _ hmem ⟨rfl, rfl⟩
  · intro found hperm
    refine readPermissionCodes_eq_ok ((hperm.filter _).trans (List.Perm.of_eq ?_))
    rw [List.filter_append, List.filter_eq_nil_iff.mpr (by simpa using hfresh), List.nil_append,
      List.filter_eq_self]
    intro row hrow
    obtain ⟨permission, -, rfl⟩ := List.mem_map.mp hrow
    exact decide_eq_true ⟨rfl, rfl⟩

/-- The stored form of a row. -/
def PermissionRow.coded (row : PermissionRow) : PermissionCodeRow :=
  row.permission.codeRow row.connectionId row.permissionScope

theorem PermissionRow.coded_injective : Function.Injective PermissionRow.coded := by
  intro left right h
  obtain ⟨hconnection, hscope, hcode⟩ := PermissionCodeRow.mk.inj h
  cases left
  cases right
  exact PermissionRow.mk.injEq .. ▸ ⟨hconnection, hscope, Permission.code_injective hcode⟩

/-- The rows of a store are read as their stored forms are. -/
theorem readPermissions_coded (s : Store) (connectionId : Id32) (scope : PermissionScope) :
    readPermissionCodes connectionId scope (s.permissions.map PermissionRow.coded) =
      (readPermissions s connectionId scope).map fun set => (set.permissions, set.digest) := by
  have hfilter : ((s.permissions.map PermissionRow.coded).filter fun row =>
      row.connectionId = connectionId ∧ row.permissionScope = scope) =
      (permissionsOf s connectionId scope).map (Permission.codeRow connectionId scope) := by
    unfold permissionsOf
    rw [List.filter_map, List.map_map]
    refine List.map_congr_left fun row hrow => ?_
    obtain ⟨-, hkey⟩ := List.mem_filter.mp hrow
    obtain ⟨rfl, rfl⟩ := of_decide_eq_true hkey
    rfl
  have hread : ∀ permissions : List Permission,
      (permissions.map (Permission.codeRow connectionId scope)).mapM readPermissionCode =
        .ok permissions := by
    intro permissions
    have hrows : ∀ row ∈ permissions.map (Permission.codeRow connectionId scope),
        ∃ permission, row = Permission.codeRow connectionId scope permission := by
      intro row hrow
      obtain ⟨permission, -, rfl⟩ := List.mem_map.mp hrow
      exact ⟨permission, rfl⟩
    rw [mapM_readPermissionCode hrows, List.map_map]
    exact congrArg Except.ok ((List.map_congr_left fun permission _ =>
      permission_codeRow _ _ permission).trans (List.map_id _))
  unfold readPermissionCodes readPermissions
  dsimp only
  rw [hfilter, ← List.map_take, List.length_map, hread]
  by_cases hlength : ((permissionsOf s connectionId scope).take 65).length ≤ 64
  · rw [Except.require, if_pos hlength]
    change Except.ofOption OperationError.binding (sealPermissions _) =
      (Except.ofOption OperationError.binding (PermissionSet.new _)).map _
    rw [sealPermissions_eq]
    cases PermissionSet.new ((permissionsOf s connectionId scope).take 65) <;> rfl
  · rw [Except.require, if_neg hlength]
    rfl

/-- The rows of a store are written as their stored forms are. -/
theorem insertPermissions_coded {s s' : Store} {connectionId : Id32} {scope : PermissionScope}
    {set : PermissionSet} {u : Unit}
    (h : (insertPermissions connectionId scope set).run s = .ok (u, s')) :
    insertPermissionCodes connectionId scope set.permissions
      (s.permissions.map PermissionRow.coded) = .ok (s'.permissions.map PermissionRow.coded) := by
  unfold insertPermissions insertPermissionCodes at *
  generalize set.permissions = permissions at h
  induction permissions generalizing s with
  | nil =>
      obtain ⟨-, rfl⟩ := Transaction.run_pure_eq_ok.mp h
      rfl
  | cons permission rest ih =>
      obtain ⟨_, s₁, hinsert, hrest⟩ := Transaction.run_bind_eq_ok.mp h
      obtain ⟨hallowed, rfl⟩ := permissionsTable.run_insert_eq_ok.mp hinsert
      have hcode : insertPermissionCode (s.permissions.map PermissionRow.coded)
          ⟨connectionId, scope, permission.code⟩ =
            .ok ((s.permissions ++ [PermissionRow.mk connectionId scope permission]).map
              PermissionRow.coded) := by
        unfold insertPermissionCode
        rw [if_neg, List.map_append]
        · rfl
        · rintro (hmem | hlong)
          · obtain ⟨row, hrow, hsame⟩ := List.mem_map.mp hmem
            have hsame' : row = ⟨connectionId, scope, permission⟩ :=
              PermissionRow.coded_injective hsame
            subst hsame'
            simp only [permissionInsertAllowed, decide_eq_true_eq] at hallowed
            exact hallowed hrow
          · rw [permission.codeFits_code] at hlong
            cases hlong
      rw [List.foldlM_cons, hcode]
      exact ih hrest

/-- The permission rows of a store are read and written as their stored forms are. -/
theorem permission_rows_coded :
    (∀ (s : Store) (connectionId : Id32) (scope : PermissionScope),
      readPermissionCodes connectionId scope (s.permissions.map PermissionRow.coded) =
        (readPermissions s connectionId scope).map fun set => (set.permissions, set.digest)) ∧
    ∀ (s s' : Store) (connectionId : Id32) (scope : PermissionScope) (set : PermissionSet),
      (insertPermissions connectionId scope set).run s = .ok ((), s') →
        insertPermissionCodes connectionId scope set.permissions
          (s.permissions.map PermissionRow.coded) = .ok (s'.permissions.map PermissionRow.coded) :=
  ⟨readPermissions_coded, fun _ _ _ _ _ => insertPermissions_coded⟩

/-- A permission that is inserted into an empty store is stored under its code. -/
theorem decryption_stored_coded :
    let s := Store.initial ⟨7, ⟨1⟩, ⟨2⟩, none⟩ 1
    let set : PermissionSet := ⟨[.nip44Decrypt], by decide⟩
    ∃ s', (insertPermissions 1 .granted set).run s = .ok ((), s') ∧
      insertPermissionCodes 1 .granted set.permissions (s.permissions.map PermissionRow.coded) =
        .ok (s'.permissions.map PermissionRow.coded) := by
  intro s set
  exact ⟨_, rfl, permission_rows_coded.2 s _ 1 .granted set rfl⟩

/-! ## Digests -/

/-- The bytes that the digest of a set is taken of. -/
def PermissionSet.encoding (set : PermissionSet) : Bytes :=
  domain "radroots.myc.connection_permissions.v1" ++ u64Bytes set.permissions.length ++
    set.permissions.flatMap fun permission => lengthPrefixed permission.code

theorem codes_injective {left right : List Permission} (hlength : left.length = right.length)
    (h : (left.flatMap fun permission => lengthPrefixed permission.code) =
      right.flatMap fun permission => lengthPrefixed permission.code) : left = right := by
  have hshort : ∀ permission : Permission, permission.code.length < 2 ^ 64 := by
    intro permission
    have hfits := permission.codeFits_code
    simp only [codeFits, Bool.and_eq_true, decide_eq_true_eq] at hfits
    omega
  induction left generalizing right with
  | nil => exact (List.length_eq_zero_iff.mp hlength.symm).symm
  | cons first rest ih =>
      cases right with
      | nil => cases hlength
      | cons other others =>
          rw [List.flatMap_cons, List.flatMap_cons] at h
          obtain ⟨hcode, hrest⟩ := lengthPrefixed_append_injective (hshort first) (hshort other) h
          rw [Permission.code_injective hcode, ih (Nat.succ.inj hlength) hrest]

/-- The bytes of a set are its own. -/
theorem PermissionSet.encoding_injective : Function.Injective PermissionSet.encoding := by
  intro left right h
  unfold PermissionSet.encoding at h
  rw [List.append_assoc, List.append_assoc] at h
  have hrest := List.append_cancel_left h
  have hwidth : (u64Bytes left.permissions.length).length =
      (u64Bytes right.permissions.length).length := by
    rw [u64Bytes, u64Bytes, length_bigEndian, length_bigEndian]
  obtain ⟨hcount, hcodes⟩ := List.append_inj hrest hwidth
  have hlength := bigEndian_injective hcount
  have hleft := left.length_le
  have hright := right.length_le
  rw [Nat.mod_eq_of_lt (by omega), Nat.mod_eq_of_lt (by omega)] at hlength
  exact PermissionSet.ext_permissions (codes_injective hlength hcodes)

/-- Permissions as text and sets of permissions: a code is read back and nothing else is read; a
set is refused exactly when it is too large or repeats a permission, and the order of the
permissions does not matter; what is written is read back with its digest; the binary searches
are set membership; and where the hash does not collide on two sets, their digests differ. -/
theorem permission_encoding_round_trips :
    (∀ permission : Permission, Permission.parse permission.code = some permission) ∧
    (∀ text permission, Permission.parse text = some permission → permission.code = text) ∧
    (∀ permissions, sealPermissions permissions = none ↔
      64 < permissions.length ∨ ¬ permissions.Nodup) ∧
    (∀ left right, left.Perm right → sealPermissions left = sealPermissions right) ∧
    (∀ (set : PermissionSet) (connectionId : Id32) (scope : PermissionScope)
      (rows : List PermissionCodeRow),
      (∀ row ∈ rows, ¬ (row.connectionId = connectionId ∧ row.permissionScope = scope)) →
        ∃ written, insertPermissionCodes connectionId scope set.permissions rows = .ok written ∧
          ∀ found, found.Perm written →
            readPermissionCodes connectionId scope found = .ok (set.permissions, set.digest)) ∧
    (∀ (set : PermissionSet) permission,
      set.searchContains permission = true ↔ permission ∈ set.permissions) ∧
    (∀ set other : PermissionSet, set.searchSubset other = true ↔
      ∀ permission ∈ set.permissions, permission ∈ other.permissions) ∧
    (∀ set other : PermissionSet, CollisionFree [set.encoding, other.encoding] →
      set.digest = other.digest → set = other) := by
  refine ⟨Permission.parse_code, fun _ _ => Permission.code_of_parse, fun permissions => ?_,
    fun left right hperm => ?_, fun set _ _ _ hfresh => written_permissions_read set hfresh,
    fun _ _ => PermissionSet.searchContains_iff, fun _ _ => PermissionSet.searchSubset_iff,
    fun set other hfree hdigest => ?_⟩
  · rw [sealPermissions_eq, Option.map_eq_none_iff]
    exact PermissionSet.new_eq_none
  · rw [sealPermissions_eq, sealPermissions_eq, PermissionSet.new_perm hperm]
  · exact PermissionSet.encoding_injective (hfree _ (by simp) _ (by simp) hdigest)

/-- The hash does not collide on the permissions to encrypt and to decrypt. -/
theorem encryption_distinguished :
    let encrypts : PermissionSet := ⟨[.nip44Encrypt], by decide⟩
    let decrypts : PermissionSet := ⟨[.nip44Decrypt], by decide⟩
    CollisionFree [encrypts.encoding, decrypts.encoding] ∧ encrypts.digest ≠ decrypts.digest := by
  intro encrypts decrypts
  have hfree : CollisionFree [encrypts.encoding, decrypts.encoding] := by decide +kernel
  obtain ⟨-, -, -, -, -, -, -, hinjective⟩ := permission_encoding_round_trips
  refine ⟨hfree, fun hdigest => ?_⟩
  have hsame := hinjective encrypts decrypts hfree hdigest
  exact absurd (congrArg PermissionSet.permissions hsame) (by decide)

end MycSigner
