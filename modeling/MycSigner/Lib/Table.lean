import Mathlib.Data.List.Nodup
import Mathlib.Data.List.Sort
import MycSigner.Lib.Transaction

/-!
# Tables as lists of rows

A table is the list of its rows in insertion order.  `update` rewrites the rows that match
a predicate in place, as `UPDATE … WHERE` does; inserting appends.  `ordered` is
`ORDER BY` on a key.

The lemmas say how `update` and appending act on the selections a query makes.  A query
that reads a column the update does not write commutes with it.
-/

namespace Table

variable {α κ : Type}

/-- `UPDATE t SET set WHERE where`. -/
def update (matching : α → Bool) (set : α → α) (rows : List α) : List α :=
  rows.map fun row => if matching row then set row else row

section Update

variable {matching : α → Bool} {set : α → α} {rows : List α}

@[simp] theorem update_nil : update matching set [] = [] := rfl

@[simp] theorem update_cons (row : α) (rows : List α) :
    update matching set (row :: rows) =
      (if matching row then set row else row) :: update matching set rows := rfl

@[simp] theorem length_update : (update matching set rows).length = rows.length := by
  simp [update]

theorem mem_update {row : α} :
    row ∈ update matching set rows ↔
      ∃ old ∈ rows, (if matching old then set old else old) = row := by
  simp [update]

theorem forall_update {P : α → Prop} (hset : ∀ row, P row → P (set row)) (h : ∀ row ∈ rows, P row) :
    ∀ row ∈ update matching set rows, P row := by
  intro row hrow
  obtain ⟨old, hold, rfl⟩ := mem_update.mp hrow
  split
  next => exact hset old (h old hold)
  next => exact h old hold

theorem mem_update_of_not {row : α} (h : row ∈ rows) (hrow : matching row = false) :
    row ∈ update matching set rows :=
  mem_update.mpr ⟨row, h, by simp [hrow]⟩

theorem set_mem_update {row : α} (h : row ∈ rows) (hrow : matching row = true) :
    set row ∈ update matching set rows :=
  mem_update.mpr ⟨row, h, by simp [hrow]⟩

/-- An update that matches no row changes nothing. -/
theorem update_eq_self (h : ∀ row ∈ rows, matching row = false) :
    update matching set rows = rows := by
  induction rows with
  | nil => rfl
  | cons row rows ih =>
      have hrow := h row (List.mem_cons_self ..)
      rw [update_cons, ih fun r hr => h r (List.mem_cons_of_mem _ hr)]
      simp [hrow]

/-- A column that the update does not write is read as before. -/
theorem map_update (key : α → κ) (h : ∀ row, matching row = true → key (set row) = key row) :
    (update matching set rows).map key = rows.map key := by
  induction rows with
  | nil => rfl
  | cons row rows ih =>
      rw [update_cons, List.map_cons, List.map_cons, ih]
      by_cases hrow : matching row = true
      · simp [hrow, h row hrow]
      · simp [hrow]

/-- A selection on columns that the update does not write commutes with it. -/
theorem filter_update (p : α → Bool) (h : ∀ row, matching row = true → p (set row) = p row) :
    (update matching set rows).filter p = update matching set (rows.filter p) := by
  induction rows with
  | nil => rfl
  | cons row rows ih =>
      have hp : p (if matching row then set row else row) = p row := by
        by_cases hrow : matching row = true
        · simp [hrow, h row hrow]
        · simp [hrow]
      rw [update_cons, List.filter_cons, List.filter_cons, hp, ih]
      by_cases hrow : p row = true
      · simp [hrow]
      · simp [hrow]

/-- A selection that no updated row enters or leaves is read as before. -/
theorem filter_update_of_disjoint (p : α → Bool)
    (h : ∀ row, matching row = true → p row = false ∧ p (set row) = false) :
    (update matching set rows).filter p = rows.filter p := by
  rw [filter_update p fun row hrow => by simp [h row hrow]]
  refine update_eq_self fun row hrow => ?_
  by_contra hm
  have hm' : matching row = true := by simpa using hm
  have hp := (h row hm').1
  rw [List.mem_filter] at hrow
  simp [hp] at hrow

end Update

/-! ## Unique keys -/

/-- No two rows share a key. -/
def Unique (key : α → κ) (rows : List α) : Prop := (rows.map key).Nodup

namespace Unique

variable {key : α → κ} {rows : List α}

theorem nil : Unique key ([] : List α) := List.nodup_nil

/-- Two rows with the same key are the same row. -/
theorem eq_of_key_eq (h : Unique key rows) {left right : α} (hl : left ∈ rows)
    (hr : right ∈ rows) (heq : key left = key right) : left = right :=
  List.inj_on_of_nodup_map h hl hr heq

theorem nodup (h : Unique key rows) : rows.Nodup := List.Nodup.of_map key h

theorem append_row (h : Unique key rows) {row : α} (hrow : ∀ r ∈ rows, key r ≠ key row) :
    Unique key (rows ++ [row]) := by
  unfold Unique at h ⊢
  rw [List.map_append, List.nodup_append]
  refine ⟨h, by simp, ?_⟩
  intro k hk k' hk' heq
  obtain ⟨r, hr, rfl⟩ := List.mem_map.mp hk
  simp only [List.map_cons, List.map_nil, List.mem_singleton] at hk'
  exact hrow r hr (heq.trans hk')

theorem update {matching : α → Bool} {set : α → α} (h : Unique key rows)
    (hkey : ∀ row, matching row = true → key (set row) = key row) :
    Unique key (Table.update matching set rows) := by
  unfold Unique at h ⊢
  rwa [map_update key hkey]

/-- Selecting by a unique key yields the row itself. -/
theorem filter_eq_singleton [DecidableEq κ] (h : Unique key rows) {row : α} (hrow : row ∈ rows) :
    rows.filter (fun r => key r = key row) = [row] := by
  induction rows with
  | nil => cases hrow
  | cons first rest ih =>
      unfold Unique at h
      rw [List.map_cons, List.nodup_cons] at h
      obtain ⟨hfirst, hrest⟩ := h
      rcases List.mem_cons.mp hrow with rfl | hmem
      · have hnone : rest.filter (fun r => key r = key row) = [] := by
          rw [List.filter_eq_nil_iff]
          intro r hr hk
          have hk' : key r = key row := by simpa using hk
          exact hfirst (hk' ▸ List.mem_map_of_mem hr)
        simp [hnone]
      · have hne : key first ≠ key row := by
          intro heq
          exact hfirst (heq ▸ List.mem_map_of_mem hmem)
        simp [hne, ih hrest hmem]

/-- Unique keys make the first match the row itself. -/
theorem find?_eq_some [DecidableEq κ] (h : Unique key rows) {row : α} (hrow : row ∈ rows) :
    rows.find? (fun r => key r = key row) = some row := by
  rw [← List.head?_filter, filter_eq_singleton h hrow]
  rfl

end Unique

/-- Rows that are pairwise equal and not repeated are at most one row. -/
theorem length_le_one_of_nodup {rows : List α} (hnodup : rows.Nodup)
    (hall : ∀ left ∈ rows, ∀ right ∈ rows, left = right) : rows.length ≤ 1 := by
  match rows with
  | [] => exact Nat.zero_le 1
  | [_] => exact Nat.le_refl 1
  | left :: right :: rest =>
      have heq := hall left (by simp) right (by simp)
      simp [heq] at hnodup

/-! ## Replacing one row -/

/-- The table with one row replaced. -/
def replace [DecidableEq α] (old new : α) (rows : List α) : List α :=
  update (fun row => row = old) (fun _ => new) rows

section Replace

variable [DecidableEq α] {old new : α} {rows : List α}

/-- An update that can only match one row replaces it. -/
theorem update_eq_replace {matching : α → Bool} {set : α → α}
    (hmatch : matching old = true) (honly : ∀ row ∈ rows, matching row = true → row = old) :
    update matching set rows = replace old (set old) rows := by
  unfold replace update
  refine List.map_congr_left fun row hrow => ?_
  by_cases heq : row = old
  · subst heq
    simp [hmatch]
  · have hno : matching row = false := by
      by_contra hm
      exact heq (honly row hrow (by simpa using hm))
    simp [hno, heq]

theorem filter_eq_of_only {matching : α → Bool} (hnodup : rows.Nodup) (hmem : old ∈ rows)
    (hmatch : matching old = true) (honly : ∀ row ∈ rows, matching row = true → row = old) :
    rows.filter matching = [old] := by
  have hsame : rows.filter matching = rows.filter fun row => row = old := by
    refine List.filter_congr fun row hrow => ?_
    by_cases heq : row = old
    · simp [heq, hmatch]
    · have hno : matching row = false := by
        by_contra hm
        exact heq (honly row hrow (by simpa using hm))
      simp [hno, heq]
  rw [hsame]
  have hone : Unique id rows := by simpa [Unique] using hnodup
  exact hone.filter_eq_singleton hmem

@[simp] theorem replace_self : replace old old rows = rows := by
  unfold replace update
  conv_rhs => rw [← List.map_id rows]
  refine List.map_congr_left fun row _ => ?_
  by_cases heq : row = old
  · simp [heq]
  · simp [heq]

@[simp] theorem length_replace : (replace old new rows).length = rows.length := length_update

theorem mem_replace {row : α} :
    row ∈ replace old new rows ↔ (row ∈ rows ∧ row ≠ old) ∨ (old ∈ rows ∧ row = new) := by
  rw [replace, mem_update]
  constructor
  · rintro ⟨r, hr, hrow⟩
    by_cases heq : r = old
    · subst heq
      exact .inr ⟨hr, by simpa using hrow.symm⟩
    · simp only [heq, decide_false, Bool.false_eq_true, if_false] at hrow
      subst hrow
      exact .inl ⟨hr, heq⟩
  · rintro (⟨hr, hne⟩ | ⟨ho, rfl⟩)
    · exact ⟨row, hr, by simp [hne]⟩
    · exact ⟨old, ho, by simp⟩

theorem replace_of_not_mem (h : old ∉ rows) : replace old new rows = rows := by
  refine update_eq_self fun row hrow => ?_
  have hne : row ≠ old := fun heq => h (heq ▸ hrow)
  simp [hne]

/-- Replacing the last row. -/
theorem replace_concat (h : old ∉ rows) : replace old new (rows ++ [old]) = rows ++ [new] := by
  have hrows : replace old new rows = rows := replace_of_not_mem h
  unfold replace update at hrows ⊢
  rw [List.map_append, hrows]
  simp

theorem map_replace (key : α → κ) (h : key new = key old) :
    (replace old new rows).map key = rows.map key :=
  map_update key fun row hrow => by
    have heq : row = old := by simpa using hrow
    rw [h, heq]

theorem filter_replace (p : α → Bool) (h : p new = p old) :
    (replace old new rows).filter p = replace old new (rows.filter p) :=
  filter_update p fun row hrow => by
    have heq : row = old := by simpa using hrow
    rw [h, heq]

theorem filter_replace_of_not (p : α → Bool) (hold : p old = false) (hnew : p new = false) :
    (replace old new rows).filter p = rows.filter p :=
  filter_update_of_disjoint p fun row hrow => by
    have heq : row = old := by simpa using hrow
    exact ⟨heq ▸ hold, hnew⟩

/-- Replacing a row of a table without repetitions touches its one place. -/
theorem replace_append_cons {first second : List α} (new : α)
    (hnodup : (first ++ old :: second).Nodup) :
    replace old new (first ++ old :: second) = first ++ new :: second := by
  rw [List.nodup_append, List.nodup_cons] at hnodup
  obtain ⟨-, ⟨hsecond, -⟩, hdisjoint⟩ := hnodup
  have hfirst : old ∉ first := fun h => hdisjoint old h old (List.mem_cons_self ..) rfl
  have hleft : replace old new first = first := replace_of_not_mem hfirst
  have hright : replace old new second = second := replace_of_not_mem hsecond
  unfold replace update at hleft hright ⊢
  rw [List.map_append, List.map_cons, hleft, hright]
  simp

/-- Replacing one row changes a count by what the row itself counts. -/
theorem length_filter_replace (p : α → Bool) (new : α) (hnodup : rows.Nodup) (hmem : old ∈ rows) :
    ((replace old new rows).filter p).length + (p old).toNat =
      (rows.filter p).length + (p new).toNat := by
  obtain ⟨first, second, rfl⟩ := List.append_of_mem hmem
  rw [replace_append_cons new hnodup]
  cases hold : p old <;> cases hnew : p new <;> simp [hold, hnew] <;> omega

theorem Unique.replace {key : α → κ} (h : Unique key rows) (hkey : key new = key old) :
    Unique key (Table.replace old new rows) := by
  unfold Unique at h ⊢
  rwa [map_replace key hkey]

end Replace

/-! ## Ordered selections -/

/-- `ORDER BY` on a key, rows with equal keys staying in insertion order. -/
def ordered (le : α → α → Bool) (rows : List α) : List α :=
  rows.insertionSort fun left right => le left right = true

theorem ordered_eq_self {le : α → α → Bool} {rows : List α}
    (h : rows.Pairwise fun left right => le left right = true) : ordered le rows = rows :=
  h.insertionSort_eq

theorem ordered_perm (le : α → α → Bool) (rows : List α) : (ordered le rows).Perm rows :=
  List.perm_insertionSort _ rows

/-- The first row of an ordered selection has the least key. -/
theorem ordered_head_least [LinearOrder κ] {le : α → α → Bool} {key : α → κ}
    (hle : ∀ left right, le left right = true ↔ key left ≤ key right) {rows : List α} {first : α}
    (h : (ordered le rows).head? = some first) :
    first ∈ rows ∧ ∀ row ∈ rows, key first ≤ key row := by
  have hperm := ordered_perm le rows
  have htotal : Std.Total fun left right => le left right = true :=
    ⟨fun left right => by simpa only [hle] using le_total (key left) (key right)⟩
  have htrans : IsTrans α fun left right => le left right = true :=
    ⟨fun first second third h₁ h₂ => (hle ..).mpr (((hle ..).mp h₁).trans ((hle ..).mp h₂))⟩
  have hsorted : (ordered le rows).Pairwise fun left right => le left right = true :=
    List.pairwise_insertionSort _ rows
  cases hrows : ordered le rows with
  | nil =>
      rw [hrows] at h
      cases h
  | cons head rest =>
      rw [hrows] at h hperm hsorted
      obtain rfl : head = first := Option.some.inj h
      refine ⟨hperm.mem_iff.mp (.head _), fun row hrow => ?_⟩
      rcases List.mem_cons.mp (hperm.mem_iff.mpr hrow) with rfl | hrest
      · exact le_rfl
      · exact (hle ..).mp ((List.pairwise_cons.mp hsorted).1 row hrest)

theorem ordered_head_none {le : α → α → Bool} {rows : List α} :
    (ordered le rows).head? = none ↔ rows = [] := by
  rw [List.head?_eq_none_iff]
  constructor
  · intro h
    exact (h ▸ (ordered_perm le rows).symm).eq_nil
  · rintro rfl
    exact (ordered_perm le []).eq_nil

end Table

/-! ## Tables inside a state -/

/-- Where a table lives in a state. -/
structure TableRef (σ α : Type) where
  get : σ → List α
  set : List α → σ → σ

namespace TableRef

variable {σ ε α : Type} (table : TableRef σ α)

/-- `INSERT`: appends a row that the constraints of the table allow. -/
def insert (allowed : σ → α → Bool) (e : ε) (row : α) : Transaction σ ε Unit := fun s =>
  if allowed s row then .ok ((), table.set (table.get s ++ [row]) s) else .error e

/-- `UPDATE`: rewrites the matching rows when the constraints allow every rewrite, and
returns how many rows matched. -/
def update (allowed : α → α → Bool) (e : ε) (matching : α → Bool) (set : α → α) :
    Transaction σ ε ℕ := fun s =>
  let hits := (table.get s).filter matching
  if hits.all fun old => allowed old (set old) then
    .ok (hits.length, table.set (Table.update matching set (table.get s)) s)
  else .error e

theorem run_insert_eq_ok {allowed : σ → α → Bool} {e : ε} {row : α} {u : Unit} {s s' : σ} :
    (table.insert allowed e row).run s = .ok (u, s') ↔
      allowed s row = true ∧ table.set (table.get s ++ [row]) s = s' := by
  unfold insert Transaction.run
  by_cases h : allowed s row = true
  · simp [h]
  · simp [h]

theorem run_update_eq_ok {allowed : α → α → Bool} {e : ε} {matching : α → Bool} {set : α → α}
    {n : ℕ} {s s' : σ} :
    (table.update allowed e matching set).run s = .ok (n, s') ↔
      (∀ old ∈ table.get s, matching old = true → allowed old (set old) = true) ∧
        ((table.get s).filter matching).length = n ∧
        table.set (Table.update matching set (table.get s)) s = s' := by
  have hall : (((table.get s).filter matching).all fun old => allowed old (set old)) = true ↔
      ∀ old ∈ table.get s, matching old = true → allowed old (set old) = true := by
    simp only [List.all_eq_true, List.mem_filter, and_imp]
  unfold update Transaction.run
  by_cases h : (((table.get s).filter matching).all fun old => allowed old (set old)) = true
  · simp only [h, if_true, Except.ok.injEq, Prod.mk.injEq]
    exact ⟨fun hs => ⟨hall.mp h, hs⟩, fun hs => hs.2⟩
  · simp only [h]
    constructor
    · intro hn
      cases hn
    · intro hs
      exact absurd (hall.mpr hs.1) h

theorem run_update_eq_error {allowed : α → α → Bool} {e e' : ε} {matching : α → Bool}
    {set : α → α} {s : σ} (h : (table.update allowed e matching set).run s = .error e') :
    e = e' := by
  unfold update Transaction.run at h
  dsimp only at h
  split at h
  next => cases h
  next => exact Except.error.inj h

/-- An update whose condition singles out one row replaces it. -/
theorem run_update_only [DecidableEq α] {allowed : α → α → Bool} {e : ε} {matching : α → Bool}
    {set : α → α} {n : ℕ} {s s' : σ} (old : α) (hnodup : (table.get s).Nodup)
    (hmem : old ∈ table.get s) (hmatch : matching old = true)
    (honly : ∀ row ∈ table.get s, matching row = true → row = old) :
    (table.update allowed e matching set).run s = .ok (n, s') ↔
      allowed old (set old) = true ∧ n = 1 ∧
        table.set (Table.replace old (set old) (table.get s)) s = s' := by
  rw [run_update_eq_ok, Table.filter_eq_of_only hnodup hmem hmatch honly,
    Table.update_eq_replace hmatch honly]
  constructor
  · rintro ⟨hallowed, hn, hs⟩
    exact ⟨hallowed old hmem hmatch, hn.symm, hs⟩
  · rintro ⟨hallowed, hn, hs⟩
    refine ⟨fun row hrow hrowMatch => ?_, hn.symm, hs⟩
    rw [honly row hrow hrowMatch]
    exact hallowed

/-- An update whose condition matches no row changes nothing. -/
theorem run_update_none {allowed : α → α → Bool} {e : ε} {matching : α → Bool} {set : α → α}
    {n : ℕ} {s s' : σ} (hnone : ∀ row ∈ table.get s, matching row = false) :
    (table.update allowed e matching set).run s = .ok (n, s') ↔
      n = 0 ∧ table.set (table.get s) s = s' := by
  have hnil : (table.get s).filter matching = [] := by
    rw [List.filter_eq_nil_iff]
    intro row hrow
    simp [hnone row hrow]
  rw [run_update_eq_ok, hnil, Table.update_eq_self hnone]
  constructor
  · rintro ⟨-, hn, hs⟩
    exact ⟨hn.symm, hs⟩
  · rintro ⟨hn, hs⟩
    refine ⟨fun row hrow hmatch => ?_, hn.symm, hs⟩
    rw [hnone row hrow] at hmatch
    cases hmatch

/-! ## Writes that move along a preorder -/

theorem respects_insert {R : σ → σ → Prop} {allowed : σ → α → Bool} {e : ε} {row : α}
    (h : ∀ s, allowed s row = true → R s (table.set (table.get s ++ [row]) s)) :
    Transaction.Respects R (table.insert allowed e row) := by
  intro s u s' hrun
  obtain ⟨hallowed, rfl⟩ := table.run_insert_eq_ok.mp hrun
  exact h s hallowed

theorem respects_update {R : σ → σ → Prop} {allowed : α → α → Bool} {e : ε}
    {matching : α → Bool} {set : α → α}
    (h : ∀ s, (∀ old ∈ table.get s, matching old = true → allowed old (set old) = true) →
      R s (table.set (Table.update matching set (table.get s)) s)) :
    Transaction.Respects R (table.update allowed e matching set) := by
  intro s n s' hrun
  obtain ⟨hallowed, -, rfl⟩ := table.run_update_eq_ok.mp hrun
  exact h s hallowed

end TableRef
