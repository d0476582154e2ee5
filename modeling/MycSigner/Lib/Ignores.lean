import MycSigner.Lib.Table

/-!
# Bodies that ignore a part of the state

A body ignores a rewriting of the state when it runs from a rewritten state as it does from the
state itself, and leaves the rewritten result.  A body that neither reads nor writes the tables
that a rewriting changes ignores it.
-/

namespace Transaction

variable {σ ε α β : Type} {g : σ → σ}

/-- The body runs from a rewritten state as it does from the state itself. -/
def Ignores (g : σ → σ) (body : Transaction σ ε α) : Prop :=
  ∀ s, body.run (g s) = (body.run s).map fun result => (result.1, g result.2)

namespace Ignores

theorem pure (a : α) : Ignores g (pure a : Transaction σ ε α) := fun _ => rfl

theorem query {read : σ → Except ε α} (h : ∀ s, read (g s) = read s) :
    Ignores g (query read) := by
  intro s
  cases hread : read s with
  | error e =>
      rw [run_query_of_error hread, run_query_of_error ((h s).trans hread)]
      rfl
  | ok a =>
      rw [run_query_of_ok hread, run_query_of_ok ((h s).trans hread)]
      rfl

theorem require (p : Prop) [Decidable p] (e : ε) : Ignores g (require p e) := by
  intro s
  by_cases h : p
  · rw [run_require_of h, run_require_of h]
    rfl
  · rw [run_require_of_not h, run_require_of_not h]
    rfl

theorem orFail (o : Option α) (e : ε) : Ignores g (orFail o e : Transaction σ ε α) := by
  intro s
  cases o with
  | none => rfl
  | some a => rfl

theorem bind {body : Transaction σ ε α} {next : α → Transaction σ ε β} (hbody : Ignores g body)
    (hnext : ∀ a, Ignores g (next a)) : Ignores g (body >>= next) := by
  intro s
  cases hrun : body.run s with
  | error e =>
      have hg : body.run (g s) = .error e := by rw [hbody s, hrun]; rfl
      rw [run_bind_of_error hg, run_bind_of_error hrun]
      rfl
  | ok result =>
      have hg : body.run (g s) = .ok (result.1, g result.2) := by rw [hbody s, hrun]; rfl
      have hplain : body.run s = .ok (result.1, result.2) := hrun
      rw [run_bind_of_ok hg, run_bind_of_ok hplain]
      exact hnext result.1 result.2

theorem foldlM {f : α → β → Transaction σ ε α} (as : List β) (a : α)
    (hf : ∀ a b, Ignores g (f a b)) : Ignores g (as.foldlM f a) := by
  induction as generalizing a with
  | nil => exact pure a
  | cons b as ih => exact bind (hf a b) fun a => ih a

/-- A successful run from a rewritten state is one from the state itself. -/
theorem run_eq_ok {body : Transaction σ ε α} (h : Ignores g body) {s s' : σ} {a : α}
    (hrun : body.run s = .ok (a, s')) : body.run (g s) = .ok (a, g s') := by
  rw [h s, hrun]
  rfl

theorem exists_of_run {body : Transaction σ ε α} (h : Ignores g body) {s s' : σ} {a : α}
    (hrun : body.run (g s) = .ok (a, s')) : ∃ s₁, body.run s = .ok (a, s₁) ∧ s' = g s₁ := by
  rw [h s] at hrun
  cases hbody : body.run s with
  | error e =>
      rw [hbody] at hrun
      cases hrun
  | ok result =>
      rw [hbody] at hrun
      cases hrun
      exact ⟨result.2, rfl, rfl⟩

end Ignores

end Transaction

namespace TableRef

variable {σ ε α : Type} (table : TableRef σ α) {g : σ → σ}

/-- An update of a table that the rewriting leaves alone. -/
theorem ignores_update {allowed : α → α → Bool} {e : ε} {matching : α → Bool} {set : α → α}
    (hget : ∀ s, table.get (g s) = table.get s)
    (hset : ∀ rows s, table.set rows (g s) = g (table.set rows s)) :
    Transaction.Ignores g (table.update allowed e matching set) := by
  intro s
  unfold update Transaction.run
  dsimp only
  rw [hget s, hset]
  split
  next => rfl
  next => rfl

end TableRef
