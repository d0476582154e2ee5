import Mathlib
import MycSigner.Lib.Table

/-!
# Reading a table page by page

A page holds the first rows after a cursor in the order of their keys, and the cursor of the
next page is the key of its last row.  The table may change between two pages.  A walk follows
the cursors until a page has none; where the keys come from a finite set, it ends.
-/

namespace Keyset

variable {α β γ κ ε : Type}

/-- The rows of a page and the cursor of the next one.  One row more than the page holds tells
whether there is a next page. -/
def page [LinearOrder κ] (key : α → κ) (limit : ℕ) (after : Option κ) (rows : List α) :
    List α × Option κ :=
  let fetched := (Table.ordered (fun left right => decide (key left ≤ key right))
    (rows.filter fun row => decide (∀ bound ∈ after, bound < key row))).take (limit + 1)
  let items := fetched.take limit
  (items, if limit < fetched.length then items.getLast?.map key else none)

/-- Follows the cursors for at most so many pages; `read` is told the number of the page. -/
def walk (read : ℕ → Option γ → Except ε (List β × Option γ)) :
    ℕ → ℕ → Option γ → Except ε (Option (List β))
  | 0, _, _ => .ok none
  | pages + 1, number, cursor => do
      let (items, next) ← read number cursor
      match next with
      | none => .ok (some items)
      | some next => do
          let rest ← walk read pages (number + 1) (some next)
          .ok (rest.map (items ++ ·))

/-! ## One page -/

section
variable [LinearOrder κ] {key : α → κ} {limit : ℕ} {after : Option κ} {rows : List α}

/-- The rows after a cursor, in order. -/
def remaining (key : α → κ) (after : Option κ) (rows : List α) : List α :=
  Table.ordered (fun left right => decide (key left ≤ key right))
    (rows.filter fun row => decide (∀ bound ∈ after, bound < key row))

theorem mem_remaining {row : α} :
    row ∈ remaining key after rows ↔ row ∈ rows ∧ ∀ bound ∈ after, bound < key row := by
  rw [remaining, (Table.ordered_perm _ _).mem_iff, List.mem_filter, decide_eq_true_eq]

theorem remaining_sorted (hkeys : Table.Unique key rows) :
    (remaining key after rows).Pairwise fun left right => key left < key right := by
  have hperm := Table.ordered_perm (fun left right => decide (key left ≤ key right))
    (rows.filter fun row => decide (∀ bound ∈ after, bound < key row))
  have hle : (remaining key after rows).Pairwise fun left right => key left ≤ key right := by
    have : Std.Total fun left right : α => decide (key left ≤ key right) = true :=
      ⟨fun left right => by simpa using le_total (key left) (key right)⟩
    have : IsTrans α fun left right => decide (key left ≤ key right) = true :=
      ⟨fun _ _ _ => by simpa using le_trans⟩
    exact (List.pairwise_insertionSort _ _).imp (by simp)
  have hne : (remaining key after rows).Pairwise fun left right => key left ≠ key right := by
    have hunique := hkeys.sublist ((List.filter_sublist (p := fun row =>
      decide (∀ bound ∈ after, bound < key row))).map key)
    exact List.pairwise_map.mp ((hperm.map key).nodup_iff.mpr hunique)
  exact (hle.and hne).imp fun h => lt_of_le_of_ne h.1 h.2

theorem page_items : (page key limit after rows).1 = (remaining key after rows).take limit := by
  simp [page, remaining, List.take_take]

theorem page_next_eq_none (hlimit : 0 < limit) (h : (page key limit after rows).2 = none) :
    (page key limit after rows).1 = remaining key after rows := by
  rw [page_items]
  refine List.take_of_length_le (Nat.le_of_not_lt fun hmore => ?_)
  have hfetched : limit < ((remaining key after rows).take (limit + 1)).length := by
    rw [List.length_take]
    omega
  have hnext : (page key limit after rows).2 =
      (((remaining key after rows).take (limit + 1)).take limit).getLast?.map key :=
    if_pos hfetched
  rw [hnext, Option.map_eq_none_iff, List.getLast?_eq_none_iff, List.take_take] at h
  have hlength := congrArg List.length h
  rw [List.length_take, List.length_nil] at hlength
  omega

/-- The next cursor is the key of the last row, and some rows come after it. -/
theorem page_next_eq_some {bound : κ} (h : (page key limit after rows).2 = some bound) :
    ∃ first last, (page key limit after rows).1 = first ++ [last] ∧ key last = bound := by
  have hnext : (page key limit after rows).2 = if limit <
      ((remaining key after rows).take (limit + 1)).length then
        (page key limit after rows).1.getLast?.map key else none := rfl
  rw [hnext] at h
  split at h
  next =>
    obtain ⟨last, hlast, hkey⟩ := Option.map_eq_some_iff.mp h
    obtain ⟨first, hfirst⟩ := List.getLast?_eq_some_iff.mp hlast
    exact ⟨first, last, hfirst, hkey⟩
  next => cases h

/-- A row after the cursor is on the page or after its last row. -/
theorem mem_page_or_after (hkeys : Table.Unique key rows) {bound : κ}
    (h : (page key limit after rows).2 = some bound) {row : α}
    (hrow : row ∈ remaining key after rows) :
    row ∈ (page key limit after rows).1 ∨ bound < key row := by
  obtain ⟨first, last, hitems, rfl⟩ := page_next_eq_some h
  have hsorted : (remaining key after rows).Pairwise _ := remaining_sorted hkeys
  rw [← List.take_append_drop limit (remaining key after rows), ← page_items] at hrow hsorted
  rcases List.mem_append.mp hrow with hrow | hrow
  · exact .inl hrow
  · exact .inr ((List.pairwise_append.mp hsorted).2.2 last (by simp [hitems]) row hrow)

theorem page_sorted (hkeys : Table.Unique key rows) :
    (page key limit after rows).1.Pairwise fun left right => key left < key right := by
  rw [page_items]
  exact (remaining_sorted hkeys).sublist (List.take_sublist ..)

theorem mem_of_mem_page {row : α} (h : row ∈ (page key limit after rows).1) :
    row ∈ rows ∧ ∀ bound ∈ after, bound < key row := by
  rw [page_items] at h
  exact mem_remaining.mp (List.mem_of_mem_take h)

/-- No row of the page comes after the next cursor. -/
theorem key_le_next (hkeys : Table.Unique key rows) {bound : κ}
    (h : (page key limit after rows).2 = some bound) {row : α}
    (hrow : row ∈ (page key limit after rows).1) : key row ≤ bound := by
  obtain ⟨first, last, hitems, rfl⟩ := page_next_eq_some h
  have hsorted : (page key limit after rows).1.Pairwise _ := page_sorted hkeys
  rw [hitems] at hrow hsorted
  rcases List.mem_append.mp hrow with hrow | hrow
  · exact ((List.pairwise_append.mp hsorted).2.2 row hrow last (by simp)).le
  · exact (congrArg key (List.mem_singleton.mp hrow)).le

end

/-! ## Walks -/

/-- What a walk yields from a page on: rows with the number of the page that held them, in the
order of their keys, and each row that is there all the time. -/
structure Yields [LinearOrder κ] (key : α → κ) (rows : ℕ → List α) (number : ℕ)
    (after : Option κ) (yielded : List (ℕ × α)) : Prop where
  sorted : yielded.Pairwise fun left right => left.1 ≤ right.1 ∧ key left.2 < key right.2
  sound : ∀ item ∈ yielded, number ≤ item.1 ∧ item.2 ∈ rows item.1 ∧
    ∀ bound ∈ after, bound < key item.2
  complete : ∀ row, (∀ later, number ≤ later → row ∈ rows later) →
    (∀ bound ∈ after, bound < key row) → ∃ later, (later, row) ∈ yielded

/-- A reader whose pages are those of a changing table, for the cursors that it issues. -/
def Reads [LinearOrder κ] (key : α → κ) (limit : ℕ) (rows : ℕ → List α)
    (read : ℕ → Option γ → Except ε (List β × Option γ)) (view : ℕ → α → β) (position : γ → κ)
    (Issued : ℕ → Option γ → Prop) : Prop :=
  ∀ number cursor, Issued number cursor →
    ∃ next, read number cursor =
        .ok ((page key limit (cursor.map position) (rows number)).1.map (view number), next) ∧
      next.map position = (page key limit (cursor.map position) (rows number)).2 ∧
      ∀ issued, next = some issued → Issued (number + 1) next

section
variable [LinearOrder κ] {key : α → κ} {limit : ℕ} {rows : ℕ → List α} {number : ℕ}
  {after : Option κ}

theorem Yields.last (hlimit : 0 < limit) (hkeys : Table.Unique key (rows number))
    (h : (page key limit after (rows number)).2 = none) :
    Yields key rows number after
      ((page key limit after (rows number)).1.map fun row => (number, row)) where
  sorted := List.pairwise_map.mpr ((page_sorted hkeys).imp fun hlt => ⟨le_rfl, hlt⟩)
  sound := by
    intro item hitem
    obtain ⟨row, hrow, rfl⟩ := List.mem_map.mp hitem
    exact ⟨le_rfl, mem_of_mem_page hrow⟩
  complete := by
    intro row hthere hafter
    refine ⟨number, List.mem_map.mpr ⟨row, ?_, rfl⟩⟩
    rw [page_next_eq_none hlimit h]
    exact mem_remaining.mpr ⟨hthere number le_rfl, hafter⟩

theorem Yields.continued (hkeys : Table.Unique key (rows number)) {bound : κ}
    (h : (page key limit after (rows number)).2 = some bound) {yielded : List (ℕ × α)}
    (hyields : Yields key rows (number + 1) (some bound) yielded) :
    Yields key rows number after
      ((page key limit after (rows number)).1.map (fun row => (number, row)) ++ yielded) where
  sorted := by
    refine List.pairwise_append.mpr ⟨List.pairwise_map.mpr
      ((page_sorted hkeys).imp fun hlt => ⟨le_rfl, hlt⟩), hyields.sorted, ?_⟩
    intro item hitem later hlater
    obtain ⟨row, hrow, rfl⟩ := List.mem_map.mp hitem
    obtain ⟨hnumber, -, hafter⟩ := hyields.sound later hlater
    exact ⟨by simp only; omega, lt_of_le_of_lt (key_le_next hkeys h hrow) (hafter bound rfl)⟩
  sound := by
    intro item hitem
    rcases List.mem_append.mp hitem with hitem | hitem
    · obtain ⟨row, hrow, rfl⟩ := List.mem_map.mp hitem
      exact ⟨le_rfl, mem_of_mem_page hrow⟩
    · obtain ⟨hnumber, hthere, hafter⟩ := hyields.sound item hitem
      refine ⟨by omega, hthere, fun earlier hearlier => ?_⟩
      obtain ⟨first, last, hitems, rfl⟩ := page_next_eq_some h
      have hlast : last ∈ (page key limit after (rows number)).1 := by simp [hitems]
      exact ((mem_of_mem_page hlast).2 earlier hearlier).trans (hafter _ rfl)
  complete := by
    intro row hthere hafter
    rcases mem_page_or_after hkeys h (mem_remaining.mpr ⟨hthere number le_rfl, hafter⟩) with
      hrow | hrow
    · exact ⟨number, List.mem_append_left _ (List.mem_map.mpr ⟨row, hrow, rfl⟩)⟩
    · obtain ⟨later, hlater⟩ := hyields.complete row (fun later hle => hthere later (by omega))
        (fun _ hbound => Option.some.inj hbound ▸ hrow)
      exact ⟨later, List.mem_append_right _ hlater⟩

variable {read : ℕ → Option γ → Except ε (List β × Option γ)} {view : ℕ → α → β}
  {position : γ → κ} {Issued : ℕ → Option γ → Prop}

/-- The keys that a walk can still meet. -/
def ahead (key : α → κ) (rows : ℕ → List α) (after : Option κ) : Set κ :=
  {k | (∃ number, ∃ row ∈ rows number, key row = k) ∧ ∀ bound ∈ after, bound < k}

/-- Each page takes keys from those ahead. -/
theorem ahead_ssubset {bound : κ} (h : (page key limit after (rows number)).2 = some bound) :
    ahead key rows (some bound) ⊂ ahead key rows after := by
  obtain ⟨first, last, hitems, rfl⟩ := page_next_eq_some h
  have hlast : last ∈ (page key limit after (rows number)).1 := by simp [hitems]
  obtain ⟨hrow, hafter⟩ := mem_of_mem_page hlast
  refine Set.ssubset_iff_subset_ne.mpr ⟨?_, fun heq => ?_⟩
  · rintro k ⟨hk, hbound⟩
    exact ⟨hk, fun earlier hearlier => (hafter earlier hearlier).trans (hbound _ rfl)⟩
  · have hmem : key last ∈ ahead key rows after := ⟨⟨number, last, hrow, rfl⟩, hafter⟩
    rw [← heq] at hmem
    exact lt_irrefl _ (hmem.2 _ rfl)

/-- Every walk over finitely many keys ends, and yields what it should. -/
theorem walk_yields (hlimit : 0 < limit) (hkeys : ∀ number, Table.Unique key (rows number))
    (hfinite : {k | ∃ number, ∃ row ∈ rows number, key row = k}.Finite)
    (hreads : Reads key limit rows read view position Issued) {cursor : Option γ}
    (hissued : Issued number cursor) :
    ∃ pages yielded, walk read pages number cursor =
        .ok (some (yielded.map fun item => view item.1 item.2)) ∧
      Yields key rows number (cursor.map position) yielded := by
  -- the induction is on the number of keys ahead of the cursor
  generalize hcount : (ahead key rows (cursor.map position)).ncard = count
  induction count using Nat.strong_induction_on generalizing number cursor with
  | _ count ih =>
      obtain ⟨next, hread, hposition, hnext⟩ := hreads number cursor hissued
      cases next with
      | none =>
          refine ⟨1, _, ?_, .last hlimit (hkeys number) hposition.symm⟩
          simp [walk, hread, bind, Except.bind, Function.comp_def]
      | some issued =>
          have hahead := ahead_ssubset hposition.symm
          have hless := Set.ncard_lt_ncard hahead (hfinite.subset fun k hk => hk.1)
          obtain ⟨pages, yielded, hwalk, hyields⟩ := ih _ (hcount ▸ hless) (hnext issued rfl) rfl
          refine ⟨pages + 1, _, ?_, .continued (hkeys number) hposition.symm hyields⟩
          simp [walk, hread, hwalk, bind, Except.bind, Function.comp_def]

end

namespace Yields

variable [LinearOrder κ] {key : α → κ} {rows : ℕ → List α} {number : ℕ} {after : Option κ}
  {yielded : List (ℕ × α)}

/-- Rows that only move to the front are met at most once. -/
theorem nodup {ι : Type} {id : α → ι} (h : Yields key rows number after yielded)
    (hfront : ∀ {first second : ℕ}, first ≤ second → ∀ row ∈ rows first, ∀ later ∈ rows second,
      id later = id row → key later ≤ key row) :
    (yielded.map fun item => id item.2).Nodup := by
  refine List.pairwise_map.mpr (h.sorted.imp_of_mem fun hleft hright hlt heq => ?_)
  exact absurd hlt.2 (not_lt_of_ge (hfront hlt.1 _ (h.sound _ hleft).2.1 _ (h.sound _ hright).2.1
    heq.symm))

/-- Over a table that does not change, the walk yields the table in order. -/
theorem eq_remaining (h : Yields key rows number after yielded)
    (hsame : ∀ later, number ≤ later → ∀ row, row ∈ rows later ↔ row ∈ rows number)
    (hkeys : Table.Unique key (rows number)) :
    yielded.map Prod.snd = remaining key after (rows number) := by
  have hsorted : (yielded.map Prod.snd).Pairwise fun left right => key left < key right :=
    List.pairwise_map.mpr (h.sorted.imp fun hlt => hlt.2)
  have hright : (remaining key after (rows number)).Pairwise _ := remaining_sorted hkeys
  refine List.Perm.eq_of_pairwise (fun left right _ _ hlt hgt => absurd hlt (lt_asymm hgt))
    hsorted hright ?_
  refine (List.perm_ext_iff_of_nodup (hsorted.imp fun hlt heq => ?_)
    (hright.imp fun hlt heq => ?_)).mpr fun row => ?_
  · exact lt_irrefl _ (heq ▸ hlt)
  · exact lt_irrefl _ (heq ▸ hlt)
  · rw [mem_remaining]
    constructor
    · intro hrow
      obtain ⟨item, hitem, rfl⟩ := List.mem_map.mp hrow
      obtain ⟨hnumber, hthere, hafter⟩ := h.sound item hitem
      exact ⟨(hsame _ hnumber _).mp hthere, hafter⟩
    · rintro ⟨hthere, hafter⟩
      obtain ⟨later, hlater⟩ := h.complete row (fun later hle => (hsame later hle row).mpr hthere)
        hafter
      exact List.mem_map.mpr ⟨_, hlater, rfl⟩

end Yields

end Keyset
