import MycSigner.Lib.Run
import MycSigner.Lib.Table

/-!
# Rows along a run

A table carries its rows on when every row is followed by a row it is related to.  Tables that
only grow and rewrite single rows within the relation carry their rows on, and so does a run
of such steps.
-/

namespace Table

variable {α κ : Type} {R : α → α → Prop} {rows rows' rows'' : List α}

/-- Every row is followed by a row that it is related to. -/
def Carried (R : α → α → Prop) (rows rows' : List α) : Prop :=
  ∀ row ∈ rows, ∃ row' ∈ rows', R row row'

namespace Carried

theorem refl (h : ∀ row, R row row) : Carried R rows rows :=
  fun row hrow => ⟨row, hrow, h row⟩

theorem of_subset (h : ∀ row, R row row) (hsub : rows ⊆ rows') : Carried R rows rows' :=
  fun row hrow => ⟨row, hsub hrow, h row⟩

theorem trans (htrans : ∀ {a b c}, R a b → R b c → R a c) (h : Carried R rows rows')
    (h' : Carried R rows' rows'') : Carried R rows rows'' := by
  intro row hrow
  obtain ⟨next, hnext, hR⟩ := h row hrow
  obtain ⟨last, hlast, hR'⟩ := h' next hnext
  exact ⟨last, hlast, htrans hR hR'⟩

theorem replace [DecidableEq α] {old new : α} (h : ∀ row, R row row) (hnew : R old new) :
    Carried R rows (replace old new rows) := by
  intro row hrow
  by_cases heq : row = old
  · exact ⟨new, mem_replace.mpr (.inr ⟨heq ▸ hrow, rfl⟩), heq ▸ hnew⟩
  · exact ⟨row, mem_replace.mpr (.inl ⟨hrow, heq⟩), h row⟩

theorem update {matching : α → Bool} {set : α → α} (h : ∀ row, R row row)
    (hset : ∀ row ∈ rows, matching row = true → R row (set row)) :
    Carried R rows (update matching set rows) := by
  intro row hrow
  by_cases hmatch : matching row = true
  · exact ⟨set row, set_mem_update hrow hmatch, hset row hrow hmatch⟩
  · exact ⟨row, mem_update_of_not hrow (by simpa using hmatch), h row⟩

/-- The follower of a row is the only row with its key. -/
theorem follower {key : α → κ} (h : Carried R rows rows') (hunique : Unique key rows')
    (hkey : ∀ {a b}, R a b → key b = key a) {row row' : α} (hrow : row ∈ rows)
    (hrow' : row' ∈ rows') (heq : key row' = key row) : R row row' := by
  obtain ⟨next, hnext, hR⟩ := h row hrow
  rwa [hunique.eq_of_key_eq hrow' hnext (heq.trans (hkey hR).symm)]

end Carried

end Table

namespace Run

variable {σ ι : Type} {perform : σ → ι → σ}

/-- What holds at every step of a run holds at every step of its beginning. -/
theorem EveryStep.of_append {P : σ → ι → Prop} {s : σ} {first rest : List ι}
    (h : EveryStep perform P s (first ++ rest)) : EveryStep perform P s first := by
  induction first generalizing s with
  | nil => trivial
  | cons event first ih => exact ⟨h.1, ih h.2⟩

/-- What is there after a run was there before it, or an event of the run brought it. -/
theorem origin {P : σ → Prop} {Q : σ → ι → Prop}
    (hstep : ∀ s event, P (perform s event) → P s ∨ Q s event) {s : σ} (events : List ι)
    (h : P (after perform s events)) :
    P s ∨ ∃ first event rest, events = first ++ event :: rest ∧
      Q (after perform s first) event := by
  induction events generalizing s with
  | nil => exact .inl h
  | cons event events ih =>
      rcases ih h with hnext | ⟨first, later, rest, rfl, hbrings⟩
      · rcases hstep s event hnext with hbefore | hbrings
        · exact .inl hbefore
        · exact .inr ⟨[], event, events, rfl, hbrings⟩
      · exact .inr ⟨event :: first, later, rest, rfl, hbrings⟩

/-- What relates every state to the next one relates it to every later one. -/
theorem related {I : σ → Prop} {R : σ → σ → Prop} (hrefl : ∀ s, R s s)
    (htrans : ∀ {a b c}, R a b → R b c → R a c) (hinv : ∀ s event, I s → I (perform s event))
    (hstep : ∀ s event, I s → R s (perform s event)) {s : σ} (hinit : I s) (events : List ι) :
    R s (after perform s events) := by
  induction events generalizing s with
  | nil => exact hrefl s
  | cons event events ih => exact htrans (hstep s event hinit) (ih (hinv s event hinit))

end Run
