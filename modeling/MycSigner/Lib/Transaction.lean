import Mathlib.Order.RelClasses

/-!
# Transactions over an explicit state

A transaction body reads and rewrites a state and may fail on the way.  A failed body is
rolled back by `atomically`: the caller sees the error and the state it started from.

The lemmas `run_*_eq_ok` invert a successful run one combinator at a time, so that a long
`do` block is taken apart without unfolding the monad.  `Respects` is the rule of pre- and
postconditions: a body respects a preorder on states when every successful run of it moves
along that preorder.  Invariants (`I s → I s'`) and frames (`f s' = f s`) are instances.
-/

namespace Except

variable {ε α β : Type}

theorem bind_eq_ok_iff {x : Except ε α} {f : α → Except ε β} {b : β} :
    (x >>= f) = .ok b ↔ ∃ a, x = .ok a ∧ f a = .ok b := by
  cases x with
  | error e => simp [bind, Except.bind]
  | ok a => simp [bind, Except.bind]

theorem bind_eq_error_iff {x : Except ε α} {f : α → Except ε β} {e : ε} :
    (x >>= f) = .error e ↔ x = .error e ∨ ∃ a, x = .ok a ∧ f a = .error e := by
  cases x with
  | error e' => simp [bind, Except.bind]
  | ok a => simp [bind, Except.bind]

/-- A computation succeeds when its first step does and the rest does on its value. -/
theorem exists_bind_eq_ok {x : Except ε α} {f : α → Except ε β} :
    (∃ b, (x >>= f) = .ok b) ↔ ∃ a, x = .ok a ∧ ∃ b, f a = .ok b := by
  simp only [bind_eq_ok_iff]
  constructor
  · rintro ⟨b, a, ha, hb⟩
    exact ⟨a, ha, b, hb⟩
  · rintro ⟨a, ha, b, hb⟩
    exact ⟨b, a, ha, hb⟩

theorem exists_of_isOk {x : Except ε α} (h : x.isOk = true) : ∃ a, x = .ok a := by
  cases x with
  | error e => cases h
  | ok a => exact ⟨a, rfl⟩

/-- The value of an option that must be present. -/
def ofOption (e : ε) : Option α → Except ε α
  | some a => .ok a
  | none => .error e

@[simp] theorem ofOption_eq_ok {e : ε} {o : Option α} {a : α} :
    ofOption e o = .ok a ↔ o = some a := by
  cases o <;> simp [ofOption]

/-- Continues only when `p` holds. -/
def require (p : Prop) [Decidable p] (e : ε) : Except ε Unit :=
  if p then .ok () else .error e

@[simp] theorem require_eq_ok {p : Prop} [Decidable p] {e : ε} {u : Unit} :
    require p e = .ok u ↔ p := by
  by_cases h : p <;> simp [require, h]

theorem require_eq_error {p : Prop} [Decidable p] {e e' : ε} :
    require p e = .error e' ↔ ¬ p ∧ e = e' := by
  by_cases h : p <;> simp [require, h]

/-! A failure that no step of a computation ends in. -/

theorem bind_ne_error {x : Except ε α} {f : α → Except ε β} {e : ε} (hx : x ≠ .error e)
    (hf : ∀ a, f a ≠ .error e) : (x >>= f) ≠ .error e := by
  intro h
  rcases bind_eq_error_iff.mp h with h | ⟨a, -, h⟩
  · exact hx h
  · exact hf a h

theorem ofOption_ne_error {e e' : ε} (h : e ≠ e') (o : Option α) : ofOption e o ≠ .error e' := by
  cases o with
  | none => exact fun heq => h (Except.error.inj heq)
  | some a => nofun

theorem require_ne_error {p : Prop} [Decidable p] {e e' : ε} (h : e ≠ e') :
    require p e ≠ .error e' := fun heq => h (require_eq_error.mp heq).2

/-- A parser that returns its input or rejects it. -/
def validate (p : α → Bool) (e : ε) (a : α) : Except ε α :=
  if p a then .ok a else .error e

@[simp] theorem validate_eq_ok {p : α → Bool} {e : ε} {a b : α} :
    validate p e a = .ok b ↔ p a = true ∧ a = b := by
  by_cases h : p a = true <;> simp [validate, h]

theorem mapM_validate (p : α → Bool) (e : ε) (as : List α) :
    as.mapM (validate p e) = if as.all p then .ok as else .error e := by
  induction as with
  | nil => rfl
  | cons a as ih =>
      rw [List.mapM_cons, ih]
      by_cases ha : p a = true
      · by_cases has : as.all p = true
        · simp [validate, ha, has, bind, Except.bind, pure, Except.pure]
        · simp [validate, ha, has, bind, Except.bind]
      · simp [validate, ha, bind, Except.bind]

theorem forM_eq_ok {f : α → Except ε Unit} {as : List α} :
    as.forM f = .ok () ↔ ∀ a ∈ as, f a = .ok () := by
  induction as with
  | nil => simp [pure, Except.pure]
  | cons a as ih =>
      change (f a >>= fun _ => as.forM f) = .ok () ↔ _
      rw [bind_eq_ok_iff, List.forall_mem_cons, ← ih]
      exact ⟨fun ⟨_, ha, has⟩ => ⟨ha, has⟩, fun ⟨ha, has⟩ => ⟨(), ha, has⟩⟩

end Except

/-- A transaction body over states `σ` that may fail with an error of type `ε`. -/
def Transaction (σ ε α : Type) : Type := σ → Except ε (α × σ)

namespace Transaction

variable {σ ε α β : Type}

/-- Runs a body from a state. -/
def run (body : Transaction σ ε α) (s : σ) : Except ε (α × σ) := body s

instance : Monad (Transaction σ ε) where
  pure a := fun s => .ok (a, s)
  bind body next := fun s =>
    match body s with
    | .ok (a, s') => next a s'
    | .error e => .error e

/-- Gives up with an error. -/
def fail (e : ε) : Transaction σ ε α := fun _ => .error e

/-- Reads the current state; the read itself may fail. -/
def query (read : σ → Except ε α) : Transaction σ ε α := fun s =>
  match read s with
  | .ok a => .ok (a, s)
  | .error e => .error e

/-- Rewrites the current state. -/
def modify (write : σ → σ) : Transaction σ ε Unit := fun s => .ok ((), write s)

/-- Continues only when `p` holds. -/
def require (p : Prop) [Decidable p] (e : ε) : Transaction σ ε Unit :=
  if p then pure () else fail e

/-- Continues with the value of an option that must be present. -/
def orFail (o : Option α) (e : ε) : Transaction σ ε α :=
  match o with
  | some a => pure a
  | none => fail e

/-- Commits a successful body and rolls a failed one back. -/
def atomically (body : Transaction σ ε α) (s : σ) : Except ε α × σ :=
  match body.run s with
  | .ok (a, s') => (.ok a, s')
  | .error e => (.error e, s)

/-! ## Running forwards -/

@[simp] theorem run_pure (a : α) (s : σ) :
    (pure a : Transaction σ ε α).run s = .ok (a, s) := rfl

@[simp] theorem run_fail (e : ε) (s : σ) :
    (fail e : Transaction σ ε α).run s = .error e := rfl

@[simp] theorem run_modify (write : σ → σ) (s : σ) :
    (modify write : Transaction σ ε Unit).run s = .ok ((), write s) := rfl

theorem run_bind_of_ok {body : Transaction σ ε α} {next : α → Transaction σ ε β}
    {s s' : σ} {a : α} (h : body.run s = .ok (a, s')) :
    (body >>= next).run s = (next a).run s' := by
  have h' : body s = .ok (a, s') := h
  simp only [run, bind, h']

theorem run_bind_of_error {body : Transaction σ ε α} {next : α → Transaction σ ε β}
    {s : σ} {e : ε} (h : body.run s = .error e) : (body >>= next).run s = .error e := by
  have h' : body s = .error e := h
  simp only [run, bind, h']

theorem run_query_of_ok {read : σ → Except ε α} {s : σ} {a : α} (h : read s = .ok a) :
    (query read).run s = .ok (a, s) := by
  simp only [run, query, h]

theorem run_query_of_error {read : σ → Except ε α} {s : σ} {e : ε} (h : read s = .error e) :
    (query read).run s = .error e := by
  simp only [run, query, h]

theorem run_require_of {p : Prop} [Decidable p] {e : ε} (h : p) (s : σ) :
    (require p e).run s = .ok ((), s) := by
  simp [require, h]

theorem run_require_of_not {p : Prop} [Decidable p] {e : ε} (h : ¬ p) (s : σ) :
    (require p e).run s = .error e := by
  simp [require, h]

@[simp] theorem run_orFail_some (a : α) (e : ε) (s : σ) :
    (orFail (some a) e).run s = .ok (a, s) := rfl

@[simp] theorem run_orFail_none (e : ε) (s : σ) :
    (orFail (none : Option α) e).run s = .error e := rfl

/-! ## Inverting a successful run -/

@[simp] theorem run_pure_eq_ok {a b : α} {s s' : σ} :
    (pure a : Transaction σ ε α).run s = .ok (b, s') ↔ a = b ∧ s = s' := by
  simp

theorem run_bind_eq_ok {body : Transaction σ ε α} {next : α → Transaction σ ε β}
    {s s' : σ} {b : β} :
    (body >>= next).run s = .ok (b, s') ↔
      ∃ a s₁, body.run s = .ok (a, s₁) ∧ (next a).run s₁ = .ok (b, s') := by
  constructor
  · intro h
    cases hb : body.run s with
    | error e => rw [run_bind_of_error hb] at h; cases h
    | ok r => rw [run_bind_of_ok hb] at h; exact ⟨r.1, r.2, rfl, h⟩
  · rintro ⟨a, s₁, hb, hn⟩
    rw [run_bind_of_ok hb, hn]

theorem run_query_eq_ok {read : σ → Except ε α} {a : α} {s s' : σ} :
    (query read).run s = .ok (a, s') ↔ read s = .ok a ∧ s = s' := by
  cases h : read s with
  | error e => simp [run_query_of_error h]
  | ok r => simp [run_query_of_ok h]

theorem run_modify_eq_ok {write : σ → σ} {u : Unit} {s s' : σ} :
    (modify write : Transaction σ ε Unit).run s = .ok (u, s') ↔ write s = s' := by
  simp

theorem run_require_eq_ok {p : Prop} [Decidable p] {e : ε} {u : Unit} {s s' : σ} :
    (require p e).run s = .ok (u, s') ↔ p ∧ s = s' := by
  by_cases h : p
  · simp [run_require_of h, h]
  · simp [run_require_of_not h, h]

theorem run_orFail_eq_ok {o : Option α} {e : ε} {a : α} {s s' : σ} :
    (orFail o e).run s = .ok (a, s') ↔ o = some a ∧ s = s' := by
  cases o <;> simp

/-! A step that only reads is peeled off together with its continuation. -/

theorem run_query_bind_eq_ok {read : σ → Except ε α} {next : α → Transaction σ ε β} {s s' : σ}
    {b : β} :
    (query read >>= next).run s = .ok (b, s') ↔
      ∃ a, read s = .ok a ∧ (next a).run s = .ok (b, s') := by
  rw [run_bind_eq_ok]
  constructor
  · rintro ⟨a, s₁, hquery, hnext⟩
    obtain ⟨hread, rfl⟩ := run_query_eq_ok.mp hquery
    exact ⟨a, hread, hnext⟩
  · rintro ⟨a, hread, hnext⟩
    exact ⟨a, s, run_query_of_ok hread, hnext⟩

theorem run_require_bind_eq_ok {p : Prop} [Decidable p] {e : ε}
    {next : Unit → Transaction σ ε β} {s s' : σ} {b : β} :
    (require p e >>= next).run s = .ok (b, s') ↔ p ∧ (next ()).run s = .ok (b, s') := by
  rw [run_bind_eq_ok]
  constructor
  · rintro ⟨a, s₁, hrequire, hnext⟩
    obtain ⟨hp, rfl⟩ := run_require_eq_ok.mp hrequire
    exact ⟨hp, hnext⟩
  · rintro ⟨hp, hnext⟩
    exact ⟨(), s, run_require_of hp s, hnext⟩

theorem run_orFail_bind_eq_ok {o : Option α} {e : ε} {next : α → Transaction σ ε β} {s s' : σ}
    {b : β} :
    (orFail o e >>= next).run s = .ok (b, s') ↔
      ∃ a, o = some a ∧ (next a).run s = .ok (b, s') := by
  cases o with
  | none => simp [run_bind_of_error (run_orFail_none e s)]
  | some a => simp [run_bind_of_ok (run_orFail_some a e s)]

theorem require_congr {p q : Prop} [Decidable p] [Decidable q] (h : p ↔ q) (e : ε) :
    (require p e : Transaction σ ε Unit) = require q e := by
  unfold require
  by_cases hp : p
  · rw [if_pos hp, if_pos (h.mp hp)]
  · rw [if_neg hp, if_neg fun hq => hp (h.mpr hq)]

/-! ## Inverting a failed run -/

theorem run_bind_eq_error {body : Transaction σ ε α} {next : α → Transaction σ ε β} {s : σ}
    {e : ε} :
    (body >>= next).run s = .error e ↔
      body.run s = .error e ∨ ∃ a s₁, body.run s = .ok (a, s₁) ∧ (next a).run s₁ = .error e := by
  cases hb : body.run s with
  | error e' => simp [run_bind_of_error hb]
  | ok r =>
      obtain ⟨a, s₁⟩ := r
      rw [run_bind_of_ok hb]
      constructor
      · exact fun h => .inr ⟨a, s₁, rfl, h⟩
      · rintro (h | ⟨_, _, h, hnext⟩)
        · cases h
        · cases h
          exact hnext

theorem run_query_eq_error {read : σ → Except ε α} {s : σ} {e : ε} :
    (query read).run s = .error e ↔ read s = .error e := by
  cases h : read s with
  | error e' => simp [run_query_of_error h]
  | ok r => simp [run_query_of_ok h]

theorem run_require_eq_error {p : Prop} [Decidable p] {e e' : ε} {s : σ} :
    (require p e).run s = .error e' ↔ ¬ p ∧ e = e' := by
  by_cases h : p
  · simp [run_require_of h, h]
  · simp [run_require_of_not h, h]

/-! ## Commit and rollback -/

theorem atomically_of_ok {body : Transaction σ ε α} {s s' : σ} {a : α}
    (h : body.run s = .ok (a, s')) : body.atomically s = (.ok a, s') := by
  simp only [atomically, h]

theorem run_of_atomically_ok {body : Transaction σ ε α} {s s' : σ} {a : α}
    (h : body.atomically s = (.ok a, s')) : body.run s = .ok (a, s') := by
  cases hrun : body.run s with
  | error e => simp [atomically, hrun] at h
  | ok result =>
      obtain ⟨rfl, rfl⟩ : result.1 = a ∧ result.2 = s' := by simpa [atomically, hrun] using h
      rfl

theorem atomically_of_error {body : Transaction σ ε α} {s : σ} {e : ε}
    (h : body.run s = .error e) : body.atomically s = (.error e, s) := by
  simp only [atomically, h]

theorem atomically_of_failed {body : Transaction σ ε α} {s : σ} {e : ε}
    (h : (body.atomically s).1 = .error e) : (body.atomically s).2 = s := by
  cases hrun : body.run s with
  | error e' => rw [atomically_of_error hrun]
  | ok result => simp [atomically, hrun] at h

/-- A committed or rolled-back state is the old one or comes from a successful run. -/
theorem atomically_state_cases (body : Transaction σ ε α) (s : σ) :
    (body.atomically s).2 = s ∨ ∃ a, body.run s = .ok (a, (body.atomically s).2) := by
  cases h : body.run s with
  | error e => exact .inl (by rw [atomically_of_error h])
  | ok r => exact .inr ⟨r.1, by rw [atomically_of_ok h]⟩

/-! ## Bodies that move along a preorder -/

/-- Every successful run of the body moves along `R`. -/
def Respects (R : σ → σ → Prop) (body : Transaction σ ε α) : Prop :=
  ∀ ⦃s a s'⦄, body.run s = .ok (a, s') → R s s'

namespace Respects

section

variable {R : σ → σ → Prop}

theorem pure [Std.Refl R] (a : α) : Respects R (pure a : Transaction σ ε α) := by
  intro s b s' h
  obtain ⟨-, rfl⟩ := run_pure_eq_ok.mp h
  exact Std.Refl.refl s

theorem fail (e : ε) : Respects R (fail e : Transaction σ ε α) := by
  intro s a s' h
  cases h

theorem query [Std.Refl R] (read : σ → Except ε α) : Respects R (query read) := by
  intro s a s' h
  obtain ⟨-, rfl⟩ := run_query_eq_ok.mp h
  exact Std.Refl.refl s

theorem require [Std.Refl R] (p : Prop) [Decidable p] (e : ε) : Respects R (require p e) := by
  intro s a s' h
  obtain ⟨-, rfl⟩ := run_require_eq_ok.mp h
  exact Std.Refl.refl s

theorem orFail [Std.Refl R] (o : Option α) (e : ε) :
    Respects R (orFail o e : Transaction σ ε α) := by
  intro s a s' h
  obtain ⟨-, rfl⟩ := run_orFail_eq_ok.mp h
  exact Std.Refl.refl s

theorem modify {write : σ → σ} (h : ∀ s, R s (write s)) :
    Respects R (modify write : Transaction σ ε Unit) := by
  intro s u s' hrun
  obtain rfl := run_modify_eq_ok.mp hrun
  exact h s

theorem bind [IsTrans σ R] {body : Transaction σ ε α} {next : α → Transaction σ ε β}
    (hbody : Respects R body) (hnext : ∀ a, Respects R (next a)) :
    Respects R (body >>= next) := by
  intro s b s' h
  obtain ⟨a, s₁, hb, hn⟩ := run_bind_eq_ok.mp h
  exact IsTrans.trans _ _ _ (hbody hb) (hnext a hn)

theorem forM [Std.Refl R] [IsTrans σ R] {f : β → Transaction σ ε Unit} (as : List β)
    (hf : ∀ a, Respects R (f a)) : Respects R (as.forM f) := by
  induction as with
  | nil => exact pure _
  | cons a as ih => exact bind (hf a) fun _ => ih

theorem foldlM [Std.Refl R] [IsTrans σ R] {f : α → β → Transaction σ ε α} (as : List β) (a : α)
    (hf : ∀ a b, Respects R (f a b)) : Respects R (as.foldlM f a) := by
  induction as generalizing a with
  | nil => exact pure _
  | cons b as ih => exact bind (hf a b) fun a => ih a

theorem atomically [Std.Refl R] {body : Transaction σ ε α} (h : Respects R body) (s : σ) :
    R s (body.atomically s).2 := by
  rcases atomically_state_cases body s with hs | ⟨a, ha⟩
  · rw [hs]
    exact Std.Refl.refl s
  · exact h ha

end

end Respects

/-- A fold that keeps an invariant and establishes a stable fact about each element it meets
ends with that fact about all of them. -/
theorem run_foldlM_each {I : σ → Prop} {Q : β → σ → Prop} {f : α → β → Transaction σ ε α}
    (hstep : ∀ {a b s r s'}, I s → (f a b).run s = .ok (r, s') →
      I s' ∧ Q b s' ∧ ∀ c, Q c s → Q c s') {as : List β} {a r : α} {s s' : σ} (hI : I s)
    (h : (as.foldlM f a).run s = .ok (r, s')) :
    I s' ∧ (∀ b ∈ as, Q b s') ∧ ∀ c, Q c s → Q c s' := by
  induction as generalizing a s with
  | nil =>
      obtain ⟨-, rfl⟩ := run_pure_eq_ok.mp h
      exact ⟨hI, by simp, fun _ hc => hc⟩
  | cons b as ih =>
      obtain ⟨next, s₁, hb, has⟩ := run_bind_eq_ok.mp h
      obtain ⟨hI₁, hQ, hstable⟩ := hstep hI hb
      obtain ⟨hI', hrest, hstable'⟩ := ih hI₁ has
      exact ⟨hI', List.forall_mem_cons.mpr ⟨hstable' b hQ, hrest⟩,
        fun c hc => hstable' c (hstable c hc)⟩

/-- Keeping a projection of the state is a preorder. -/
instance keepsRefl {τ : Type} (f : σ → τ) : Std.Refl fun s s' : σ => f s' = f s := ⟨fun _ => rfl⟩

instance keepsTrans {τ : Type} (f : σ → τ) : IsTrans σ fun s s' : σ => f s' = f s :=
  ⟨fun _ _ _ h₁ h₂ => h₂.trans h₁⟩

/-- The body leaves a projection of the state alone. -/
abbrev Keeps {τ : Type} (f : σ → τ) (body : Transaction σ ε α) : Prop :=
  Respects (fun s s' : σ => f s' = f s) body

/-- Preserving a predicate is a preorder. -/
instance preservesRefl (I : σ → Prop) : Std.Refl fun s s' : σ => I s → I s' := ⟨fun _ h => h⟩

instance preservesTrans (I : σ → Prop) : IsTrans σ fun s s' : σ => I s → I s' :=
  ⟨fun _ _ _ h₁ h₂ h => h₂ (h₁ h)⟩

end Transaction
