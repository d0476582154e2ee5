import Mathlib.Order.Basic

/-!
# Processes over a shared state

A process runs steps over a state that others see as well, and may exit early.  Unlike a
transaction it keeps what it did before an exit.  The equations below take a process apart
one step at a time; `Avoids e p` says that `p` never exits with `e`, from any state.
-/

/-- A computation over `σ` that may exit early with `ε`. -/
def Process (σ ε α : Type) : Type := σ → Except ε α × σ

namespace Process

variable {σ ε α β : Type}

def run (p : Process σ ε α) (s : σ) : Except ε α × σ := p s

instance : Monad (Process σ ε) where
  pure a := fun s => (.ok a, s)
  bind p f := fun s =>
    match p s with
    | (.ok a, s') => f a s'
    | (.error e, s') => (.error e, s')

/-- Leaves the process. -/
def exit (e : ε) : Process σ ε α := fun s => (.error e, s)

/-- Continues with a value, or leaves the process without one. -/
def orExit (e : ε) : Option α → Process σ ε α
  | some a => pure a
  | none => exit e

/-- One step that always continues. -/
def step (f : σ → α × σ) : Process σ ε α := fun s => (.ok (f s).1, (f s).2)

/-! ## Running a process -/

@[simp] theorem run_pure (a : α) (s : σ) : (pure a : Process σ ε α).run s = (.ok a, s) := rfl

@[simp] theorem run_exit (e : ε) (s : σ) : (exit e : Process σ ε α).run s = (.error e, s) := rfl

@[simp] theorem run_step (f : σ → α × σ) (s : σ) :
    (step f : Process σ ε α).run s = (.ok (f s).1, (f s).2) := rfl

@[simp] theorem run_orExit_some (e : ε) (a : α) (s : σ) :
    (orExit e (some a) : Process σ ε α).run s = (.ok a, s) := rfl

@[simp] theorem run_orExit_none (e : ε) (s : σ) :
    (orExit e none : Process σ ε α).run s = (.error e, s) := rfl

theorem run_orExit_eq_ok {e : ε} {a : Option α} {b : α} {s s' : σ} :
    (orExit e a : Process σ ε α).run s = (.ok b, s') ↔ a = some b ∧ s = s' := by
  cases a with
  | none => simp
  | some a => simp

variable {p : Process σ ε α} {f : α → Process σ ε β} {s s' : σ}

theorem run_bind_of_ok {a : α} (h : p.run s = (.ok a, s')) :
    (p >>= f).run s = (f a).run s' := by
  change (match p s with
    | (.ok a, s') => f a s'
    | (.error e, s') => (.error e, s')) = _
  rw [show p s = (.ok a, s') from h]
  rfl

theorem run_bind_of_error {e : ε} (h : p.run s = (.error e, s')) :
    (p >>= f).run s = (.error e, s') := by
  change (match p s with
    | (.ok a, s') => f a s'
    | (.error e, s') => (.error e, s')) = _
  rw [show p s = (.error e, s') from h]

theorem run_bind_eq_ok {b : β} : (p >>= f).run s = (.ok b, s') ↔
    ∃ a s₁, p.run s = (.ok a, s₁) ∧ (f a).run s₁ = (.ok b, s') := by
  match h : p.run s with
  | (.ok a, s₁) =>
      rw [run_bind_of_ok h]
      constructor
      · exact fun hb => ⟨a, s₁, rfl, hb⟩
      · rintro ⟨a', s₂, heq, hb⟩
        obtain ⟨rfl, rfl⟩ : a = a' ∧ s₁ = s₂ := by simpa using heq
        exact hb
  | (.error e, s₁) =>
      rw [run_bind_of_error h]
      simp

theorem run_bind_eq_error {e : ε} : (p >>= f).run s = (.error e, s') ↔
    p.run s = (.error e, s') ∨
      ∃ a s₁, p.run s = (.ok a, s₁) ∧ (f a).run s₁ = (.error e, s') := by
  match h : p.run s with
  | (.ok a, s₁) =>
      rw [run_bind_of_ok h]
      constructor
      · exact fun hb => .inr ⟨a, s₁, rfl, hb⟩
      · rintro (hfalse | ⟨a', s₂, heq, hb⟩)
        · simp at hfalse
        · obtain ⟨rfl, rfl⟩ : a = a' ∧ s₁ = s₂ := by simpa using heq
          exact hb
  | (.error e', s₁) =>
      rw [run_bind_of_error h]
      simp

/-! ## Exits that do not happen -/

/-- The process never exits with `e`. -/
def Avoids (e : ε) (p : Process σ ε α) : Prop := ∀ s s', p.run s ≠ (.error e, s')

namespace Avoids

variable {e : ε}

theorem not_exists {p : Process σ ε α} (h : Avoids e p) (s : σ) :
    ¬ ∃ s', p.run s = (.error e, s') := by
  rintro ⟨s', hrun⟩
  exact h s s' hrun

theorem pure (a : α) : Avoids (σ := σ) e (Pure.pure a) := by
  intro s s' h
  simp at h

theorem step (f : σ → α × σ) : Avoids e (Process.step f) := by
  intro s s' h
  simp at h

theorem exit {e' : ε} (h : e' ≠ e) : Avoids (σ := σ) (α := α) e (Process.exit e') := by
  intro s s' heq
  simp [h] at heq

theorem orExit {e' : ε} (h : e' ≠ e) (a : Option α) :
    Avoids (σ := σ) e (Process.orExit e' a) := by
  cases a with
  | some a => exact pure a
  | none => exact exit h

/-- What follows needs to avoid the exit only for values that the first part produces. -/
theorem bind_of (hp : Avoids e p) (hf : ∀ s a s', p.run s = (.ok a, s') → Avoids e (f a)) :
    Avoids e (p >>= f) := by
  intro s s' h
  rcases run_bind_eq_error.mp h with hfirst | ⟨a, s₁, hfirst, hsecond⟩
  · exact hp s s' hfirst
  · exact hf s a s₁ hfirst s₁ s' hsecond

theorem bind (hp : Avoids e p) (hf : ∀ a, Avoids e (f a)) : Avoids e (p >>= f) :=
  hp.bind_of fun _ a _ _ => hf a

end Avoids

/-! ## Runs along a preorder -/

/-- Every run moves along `R`, whatever its outcome. -/
def Along (R : σ → σ → Prop) (p : Process σ ε α) : Prop := ∀ s, R s (p.run s).2

namespace Along

variable {R : σ → σ → Prop}

theorem of_run (h : Along R p) {r : Except ε α} (hrun : p.run s = (r, s')) : R s s' := by
  have hmoved := h s
  rwa [hrun] at hmoved

theorem step {f : σ → α × σ} (h : ∀ s, R s (f s).2) : Along R (Process.step (ε := ε) f) := h

theorem bind [IsTrans σ R] (hp : Along R p) (hf : ∀ a, Along R (f a)) : Along R (p >>= f) := by
  intro s
  match h : p.run s with
  | (.ok a, s₁) =>
      rw [run_bind_of_ok h]
      exact IsTrans.trans _ _ _ (hp.of_run h) (hf a s₁)
  | (.error e, s₁) =>
      rw [run_bind_of_error h]
      exact hp.of_run h

variable [Std.Refl R]

theorem pure (a : α) : Along (ε := ε) R (Pure.pure a) := fun _ => Std.Refl.refl _

theorem exit (e : ε) : Along (α := α) R (Process.exit e) := fun _ => Std.Refl.refl _

theorem orExit (e : ε) (a : Option α) : Along R (Process.orExit e a) := by
  cases a with
  | some a => exact pure a
  | none => exact exit e

end Along

end Process
