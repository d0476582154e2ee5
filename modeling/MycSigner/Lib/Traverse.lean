import Mathlib.Data.List.Basic

/-!
# Lists of fallible values

A list is read element by element, and the reading fails with the first element that does.
-/

namespace Except

variable {ε α β : Type}

/-- A list is read only if each of its elements is. -/
theorem mapM_mem {f : α → Except ε β} {as : List α} {bs : List β} (h : as.mapM f = .ok bs) :
    ∀ a ∈ as, ∃ b, f a = .ok b := by
  induction as generalizing bs with
  | nil => simp
  | cons a as ih =>
      rw [List.mapM_cons] at h
      cases ha : f a with
      | error e => simp [ha, bind, Except.bind] at h
      | ok b =>
          cases has : as.mapM f with
          | error e => simp [ha, has, bind, Except.bind] at h
          | ok rest =>
              intro other hother
              rcases List.mem_cons.mp hother with rfl | hother
              · exact ⟨b, ha⟩
              · exact ih has other hother

/-- The values of a list are the values of its elements. -/
theorem mapM_forall {f : α → Except ε β} {P : β → Prop} {as : List α} {bs : List β}
    (h : as.mapM f = .ok bs) : (∀ b ∈ bs, P b) ↔ ∀ a ∈ as, ∀ b, f a = .ok b → P b := by
  induction as generalizing bs with
  | nil =>
      cases h
      simp
  | cons a as ih =>
      rw [List.mapM_cons] at h
      cases ha : f a with
      | error e => simp [ha, bind, Except.bind] at h
      | ok b =>
          cases has : as.mapM f with
          | error e => simp [ha, has, bind, Except.bind] at h
          | ok rest =>
              simp only [ha, has, bind, Except.bind, pure, Except.pure, Except.ok.injEq] at h
              subst h
              rw [List.forall_mem_cons, List.forall_mem_cons, ih has]
              simp [ha]

/-- A list is read when each of its elements is. -/
theorem exists_mapM {f : α → Except ε β} {as : List α} (h : ∀ a ∈ as, ∃ b, f a = .ok b) :
    ∃ bs, as.mapM f = .ok bs := by
  induction as with
  | nil => exact ⟨[], rfl⟩
  | cons a as ih =>
      obtain ⟨b, hb⟩ := h a (List.mem_cons_self ..)
      obtain ⟨bs, hbs⟩ := ih fun other hother => h other (List.mem_cons_of_mem _ hother)
      refine ⟨b :: bs, ?_⟩
      rw [List.mapM_cons, hb, hbs]
      rfl

/-- What each element reads as, the list reads as. -/
theorem mapM_eq_map {f : α → Except ε β} {g : α → β} {as : List α}
    (h : ∀ a ∈ as, f a = .ok (g a)) : as.mapM f = .ok (as.map g) := by
  induction as with
  | nil => rfl
  | cons a as ih =>
      rw [List.mapM_cons, h a List.mem_cons_self,
        ih fun other hother => h other (List.mem_cons_of_mem _ hother)]
      rfl

end Except

namespace List

variable {α β : Type}

/-- Two lists with the same marks have as many marked elements. -/
theorem length_filter_eq_of_map {as : List α} {bs : List β} {p : α → Bool} {q : β → Bool}
    (h : as.map p = bs.map q) : (as.filter p).length = (bs.filter q).length := by
  rw [← countP_eq_length_filter, ← countP_eq_length_filter]
  have hcount := congrArg (countP id) h
  rwa [countP_map, countP_map] at hcount

end List

namespace Option

variable {α β γ : Type}

theorem mapM_cons_eq_some {f : α → Option β} {a : α} {as : List α} {bs : List β} :
    (a :: as).mapM f = some bs ↔ ∃ b rest, f a = some b ∧ as.mapM f = some rest ∧ bs = b :: rest := by
  rw [List.mapM_cons]
  cases f a with
  | none => simp
  | some b =>
      cases as.mapM f with
      | none => simp
      | some rest => simp [eq_comm]

/-- A list is read when each of its elements is. -/
theorem exists_mapM {f : α → Option β} {as : List α} (h : ∀ a ∈ as, (f a).isSome = true) :
    ∃ bs, as.mapM f = some bs := by
  induction as with
  | nil => exact ⟨[], rfl⟩
  | cons a as ih =>
      obtain ⟨b, hb⟩ := Option.isSome_iff_exists.mp (h a List.mem_cons_self)
      obtain ⟨rest, hrest⟩ := ih fun other hother => h other (List.mem_cons_of_mem _ hother)
      exact ⟨b :: rest, mapM_cons_eq_some.mpr ⟨b, rest, hb, hrest, rfl⟩⟩

/-- What was read of a list is as long as the list. -/
theorem length_of_mapM {f : α → Option β} {as : List α} {bs : List β} (h : as.mapM f = some bs) :
    bs.length = as.length := by
  induction as generalizing bs with
  | nil =>
      obtain rfl := Option.some.inj h
      rfl
  | cons a as ih =>
      obtain ⟨b, rest, -, hrest, rfl⟩ := mapM_cons_eq_some.mp h
      rw [List.length_cons, List.length_cons, ih hrest]

/-- A list is read element by element. -/
theorem mapM_eq_some_iff {f : α → Option β} {as : List α} {bs : List β} :
    as.mapM f = some bs ↔ List.Forall₂ (fun a b => f a = some b) as bs := by
  induction as generalizing bs with
  | nil =>
      constructor
      · intro h
        obtain rfl := Option.some.inj h
        exact .nil
      · intro h
        cases h
        rfl
  | cons a as ih =>
      rw [mapM_cons_eq_some]
      constructor
      · rintro ⟨b, rest, hb, hrest, rfl⟩
        exact .cons hb (ih.mp hrest)
      · intro h
        cases h with
        | cons hb hrest => exact ⟨_, _, hb, ih.mpr hrest, rfl⟩

/-- A column of the values that were read is a column of the list. -/
theorem map_of_mapM {f : α → Option β} {as : List α} {bs : List β} (h : as.mapM f = some bs)
    {column : β → γ} {source : α → γ}
    (hcolumn : ∀ a ∈ as, ∀ b, f a = some b → column b = source a) :
    bs.map column = as.map source := by
  induction as generalizing bs with
  | nil =>
      obtain rfl := Option.some.inj h
      rfl
  | cons a as ih =>
      obtain ⟨b, rest, hb, hrest, rfl⟩ := mapM_cons_eq_some.mp h
      rw [List.map_cons, List.map_cons, hcolumn a List.mem_cons_self b hb,
        ih hrest fun other hother => hcolumn other (List.mem_cons_of_mem _ hother)]

end Option
