import MycSigner.Dispatch.Denial

/-!
# Operators at work during a call

Between the transactions of a call, and between the calls that the loop makes for one item while
the providers fail, an operator may approve, reject, revoke and challenge connections.  The later
steps of a call check again what its earlier steps have read.  The loop survives whatever others
do exactly when none of its calls meets a failure of the store or the runtime.
-/

namespace MycSigner

open Process

/-- A transaction of an operator about a connection. -/
def Operation.byOperator : Operation → Bool
  | .adminConnection _ _ _ _ _ | .adminRequireChallenge _ | .adminAuthorizeChallenge _ _ _ => true
  | _ => false

namespace Coordinator

variable {coordinator : Coordinator} {env : Environment} {item : Item} {evidence : Evidence}
  {world : World}

/-- The loop ends with an error exactly when one of its calls does, and not with a provider
failure. -/
theorem repeatItem_eq_error_iff {error : DispatchError} {fuel : ℕ} :
    (coordinator.repeatItem env item evidence fuel world).1 = some (.error error) ↔
      error ≠ .provider ∧ ∃ start ∈ coordinator.callStarts env item evidence fuel world,
        (coordinator.process env item evidence start).1 = .error error := by
  induction fuel generalizing world with
  | zero => simp [repeatItem, callStarts]
  | succ fuel ih =>
      unfold repeatItem callStarts
      rcases hprocess : coordinator.process env item evidence world with
        ⟨stopped | disposition, world₁⟩
      · cases stopped with
        | provider =>
            -- the call of this turn itself failed with a provider
            simp only [List.mem_cons, exists_eq_or_imp, hprocess]
            rw [ih]
            constructor
            · rintro ⟨hother, hstops⟩
              exact ⟨hother, .inr hstops⟩
            · rintro ⟨hother, hfirst | hstops⟩
              · cases hfirst
                exact absurd rfl hother
              · exact ⟨hother, hstops⟩
        | state | runtime => cases error <;> simp [hprocess]
      · simp [hprocess]

/-- A call that returns a disposition is the only one for its item. -/
theorem start_eq_of_passes {disposition : Disposition} {fuel : ℕ} {start : World}
    (h : (coordinator.process env item evidence world).1 = .ok disposition)
    (hstart : start ∈ coordinator.callStarts env item evidence fuel world) : start = world := by
  cases fuel with
  | zero => cases hstart
  | succ fuel =>
      unfold callStarts at hstart
      rcases hprocess : coordinator.process env item evidence world with
        ⟨error | passed, world₁⟩
      · rw [hprocess] at h
        cases h
      · rw [hprocess] at hstart
        exact List.mem_singleton.mp hstart

end Coordinator

/-! ## A session revoked during its ping -/

namespace SampleService

/-- An operator revokes the session before the given effect of the call. -/
def revokingAt (tick : ℕ) : Environment :=
  { answeringProviders with others := fun now => if now = tick then [revocation] else [] }

theorem revokingAt_clockWorks (tick : ℕ) : (revokingAt tick).ClockWorks answeringCoordinator :=
  fun _ => ⟨4, rfl, by decide⟩

/-- The client has its session. -/
def connectedWorld : World :=
  ⟨(Run.after (System.perform pongCodec) (.initial config 1) connects).store, 0⟩

/-- One evaluation of the ping: its session is revoked before its answer is committed, or before it
is looked up. -/
theorem revocation_evaluates :
    (answeringCoordinator.process (revokingAt 13) (item pingEvent) evidence connectedWorld).1 =
        .error .state ∧
      (answeringCoordinator.process (revokingAt 5) (item pingEvent) evidence connectedWorld).1 =
        .ok .dropped := by
  unfold connectedWorld
  rw [after_connects]
  decide +kernel

end SampleService

end MycSigner
