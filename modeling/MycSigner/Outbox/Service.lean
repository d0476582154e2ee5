import MycSigner.Outbox.Promotion

/-!
# The outbox of the running service

The operations of delivery and discovery are not the only ones that write the outbox: a
committed response creates its delivery job.  Every other operation and every application of
a configuration leaves the outbox alone, so its invariant holds in every state of the service.
-/

namespace MycSigner

theorem HandlerInv.performed {codec : EventCodec} {system : System}
    (inv : HandlerInv system.store) (event : Event) :
    HandlerInv (system.perform codec event).store := by
  obtain ⟨hdelivery, hmoves | hcommit⟩ := System.moves codec inv.delivery event
  · exact inv.moves hmoves
  · exact inv.commit hdelivery hcommit

end MycSigner
