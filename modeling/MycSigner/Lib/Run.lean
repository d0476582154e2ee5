import Mathlib.Order.Basic
import Mathlib.Order.Nat

/-!
# Runs of a deterministic machine

A run is a list of events folded over a state.  `EveryStep P s events` says that `P` holds
of each state of the run and the event it meets there.  The rules below carry an invariant
along a run and turn a fact about single steps, proved under the invariant, into a fact
about all steps of a run.
-/

namespace Run

variable {σ ι : Type} {perform : σ → ι → σ}

/-- The state a run ends in. -/
def after (perform : σ → ι → σ) (s : σ) (events : List ι) : σ := events.foldl perform s

/-- `P` holds at every step of the run. -/
def EveryStep (perform : σ → ι → σ) (P : σ → ι → Prop) : σ → List ι → Prop
  | _, [] => True
  | s, event :: events => P s event ∧ EveryStep perform P (perform s event) events

instance everyStepDecidable {P : σ → ι → Prop} [∀ s event, Decidable (P s event)] :
    ∀ (s : σ) (events : List ι), Decidable (EveryStep perform P s events)
  | _, [] => inferInstanceAs (Decidable True)
  | s, event :: events =>
      have := everyStepDecidable (P := P) (perform s event) events
      inferInstanceAs (Decidable (P s event ∧ EveryStep perform P (perform s event) events))

theorem after_append (s : σ) (first second : List ι) :
    after perform s (first ++ second) = after perform (after perform s first) second :=
  List.foldl_append

/-- What holds at every step holds at the step after any beginning of the run. -/
theorem EveryStep.at_step {P : σ → ι → Prop} {s : σ} {first rest : List ι} {event : ι}
    (h : EveryStep perform P s (first ++ event :: rest)) : P (after perform s first) event := by
  induction first generalizing s with
  | nil => exact h.1
  | cons other first ih => exact ih h.2

/-- A guarded invariant holds at the end of a run whose steps all pass the guard. -/
theorem invariant {I : σ → Prop} {guard : σ → ι → Prop}
    (hstep : ∀ s event, I s → guard s event → I (perform s event)) {s : σ} {events : List ι}
    (hinit : I s) (hguard : EveryStep perform guard s events) : I (after perform s events) := by
  induction events generalizing s with
  | nil => exact hinit
  | cons event events ih => exact ih (hstep s event hinit hguard.1) hguard.2

/-- An invariant holds at the end of every run. -/
theorem invariant_always {I : σ → Prop} (hstep : ∀ s event, I s → I (perform s event)) {s : σ}
    (events : List ι) (hinit : I s) : I (after perform s events) := by
  induction events generalizing s with
  | nil => exact hinit
  | cons event events ih => exact ih (hstep s event hinit)

/-- `P` of the step, unless it leaves the state as it was. -/
def Changing (perform : σ → ι → σ) (P : σ → ι → Prop) (s : σ) (event : ι) : Prop :=
  perform s event ≠ s → P s event

theorem EveryStep.changing {P : σ → ι → Prop} {s : σ} {events : List ι}
    (h : EveryStep perform P s events) : EveryStep perform (Changing perform P) s events := by
  induction events generalizing s with
  | nil => trivial
  | cons event events ih => exact ⟨fun _ => h.1, ih h.2⟩

/-- Only the steps that change the state need to pass the guard. -/
theorem invariant_changing {I : σ → Prop} {guard : σ → ι → Prop}
    (hstep : ∀ s event, I s → guard s event → I (perform s event)) {s : σ} {events : List ι}
    (hinit : I s) (hguard : EveryStep perform (Changing perform guard) s events) :
    I (after perform s events) := by
  refine invariant (fun s event hI hchanging => ?_) hinit hguard
  by_cases hsame : perform s event = s
  · rwa [hsame]
  · exact hstep s event hI (hchanging hsame)

/-- Steps that pass the guard keep the invariant, and under it they have the property. -/
theorem everyStep_of_guard {I : σ → Prop} {guard P : σ → ι → Prop}
    (hstep : ∀ s event, I s → guard s event → P s event ∧ I (perform s event)) {s : σ}
    {events : List ι} (hinit : I s) (hguard : EveryStep perform guard s events) :
    EveryStep perform P s events := by
  induction events generalizing s with
  | nil => trivial
  | cons event events ih =>
      obtain ⟨hP, hI⟩ := hstep s event hinit hguard.1
      exact ⟨hP, ih hI hguard.2⟩

/-- What an invariant makes equivalent at one step is equivalent along a run. -/
theorem everyStep_congr {I : σ → Prop} {P Q : σ → ι → Prop}
    (hstep : ∀ s event, I s → I (perform s event))
    (hiff : ∀ s event, I s → (P s event ↔ Q s event)) {s : σ} {events : List ι} (hinit : I s) :
    EveryStep perform P s events ↔ EveryStep perform Q s events := by
  induction events generalizing s with
  | nil => exact Iff.rfl
  | cons event events ih => exact and_congr (hiff s event hinit) (ih (hstep s event hinit))

/-- The states that a reader meets: batch `number` runs before its reading `number`. -/
def visits (perform : σ → ι → σ) (s : σ) (batches : ℕ → List ι) : ℕ → σ
  | 0 => after perform s (batches 0)
  | number + 1 => after perform (visits perform s batches number) (batches (number + 1))

/-- From one reading to a later one there is a run. -/
theorem visits_after (perform : σ → ι → σ) (s : σ) (batches : ℕ → List ι) {first second : ℕ}
    (h : first ≤ second) : ∃ events, visits perform s batches second =
      after perform (visits perform s batches first) events := by
  induction second, h using Nat.le_induction with
  | base => exact ⟨[], rfl⟩
  | succ second _ ih =>
      obtain ⟨events, heq⟩ := ih
      exact ⟨events ++ batches (second + 1), by rw [visits, heq, after_append]⟩

end Run
