import Mathlib

/-!
# Binary search

The search halves the range of candidates until one is left and compares only this one with the
target.  In a list that is ordered by a key it finds the target exactly when it is there.
-/

namespace Search

variable {α κ : Type} [LinearOrder κ]

/-- The start of the last candidate in the `size` rows from `base` on. -/
def narrow (key : α → κ) (rows : List α) (target : κ) (size base : ℕ) : ℕ :=
  if size ≤ 1 then base
  else
    let mid := base + size / 2
    let above := rows[mid]?.any fun row => target < key row
    narrow key rows target (size - size / 2) (if above then base else mid)
termination_by size
decreasing_by omega

/-- The index of a row with the key. -/
def find (key : α → κ) (rows : List α) (target : κ) : Option ℕ :=
  let base := narrow key rows target rows.length 0
  if rows[base]?.any fun row => key row = target then some base else none

variable {key : α → κ} {rows : List α} {target : κ}

/-- The rows with the target are among the candidates. -/
def Among (key : α → κ) (rows : List α) (target : κ) (size base : ℕ) : Prop :=
  ∀ index row, rows[index]? = some row → key row = target → base ≤ index ∧ index < base + size

theorem key_lt_of_lt (h : rows.Pairwise fun left right => key left < key right) {i j : ℕ}
    {left right : α} (hleft : rows[i]? = some left) (hright : rows[j]? = some right) (hij : i < j) :
    key left < key right := by
  obtain ⟨hi, rfl⟩ := List.getElem?_eq_some_iff.mp hleft
  obtain ⟨hj, rfl⟩ := List.getElem?_eq_some_iff.mp hright
  exact List.pairwise_iff_getElem.mp h i j hi hj hij

/-- One halving keeps the target among the candidates. -/
theorem Among.halve (h : rows.Pairwise fun left right => key left < key right) {size base : ℕ}
    (hamong : Among key rows target size base) (hrange : base + size ≤ rows.length)
    (hsize : 1 < size) :
    Among key rows target (size - size / 2)
      (if rows[base + size / 2]?.any (fun row => target < key row) then base
        else base + size / 2) := by
  have hmid : rows[base + size / 2]? = some rows[base + size / 2] :=
    List.getElem?_eq_getElem (by omega)
  intro index row hrow hkey
  obtain ⟨hlow, hhigh⟩ := hamong index row hrow hkey
  rw [hmid, Option.any_some]
  by_cases habove : target < key rows[base + size / 2]
  · rw [if_pos (decide_eq_true habove)]
    have hbefore : index < base + size / 2 := by
      by_contra hnot
      rcases Nat.eq_or_lt_of_le (Nat.le_of_not_lt hnot) with rfl | hlt
      · rw [hmid, Option.some.injEq] at hrow
        subst hrow
        exact absurd hkey (ne_of_gt habove)
      · exact lt_asymm habove (hkey ▸ key_lt_of_lt h hmid hrow hlt)
    omega
  · rw [if_neg (by simpa using habove)]
    have hafter : base + size / 2 ≤ index := by
      by_contra hnot
      exact habove (hkey ▸ key_lt_of_lt h hrow hmid (Nat.lt_of_not_le hnot))
    omega

theorem narrow_among (h : rows.Pairwise fun left right => key left < key right) {size base : ℕ}
    (hamong : Among key rows target size base) (hrange : base + size ≤ rows.length) :
    Among key rows target 1 (narrow key rows target size base) := by
  induction size using Nat.strongRecOn generalizing base with
  | ind size ih =>
      rw [narrow]
      split
      next hsize =>
        intro index row hrow hkey
        have hcandidate := hamong index row hrow hkey
        omega
      next hsize =>
        refine ih _ (by omega) (hamong.halve h hrange (by omega)) ?_
        split <;> omega

/-- The search finds a key exactly when a row has it. -/
theorem find_isSome_iff (h : rows.Pairwise fun left right => key left < key right) :
    (find key rows target).isSome = true ↔ ∃ row ∈ rows, key row = target := by
  unfold find
  dsimp only
  constructor
  · intro hfound
    split at hfound
    next hany =>
      obtain ⟨row, hrow, hkey⟩ := (Option.any_eq_true _ _).mp hany
      exact ⟨row, List.mem_of_getElem? hrow, of_decide_eq_true hkey⟩
    next => cases hfound
  · rintro ⟨row, hmem, hkey⟩
    obtain ⟨index, hindex⟩ := List.mem_iff_getElem?.mp hmem
    have hall : Among key rows target rows.length 0 := by
      intro index row hrow _
      obtain ⟨hlt, -⟩ := List.getElem?_eq_some_iff.mp hrow
      omega
    obtain ⟨hlow, hhigh⟩ := narrow_among h hall (by omega) index row hindex hkey
    have hbase : narrow key rows target rows.length 0 = index := by omega
    rw [hbase, hindex, Option.any_some, if_pos (decide_eq_true hkey)]
    rfl

end Search
