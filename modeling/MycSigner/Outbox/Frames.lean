import MycSigner.Recovery

/-!
# The discovery tables apart from delivery

Committing and promoting a discovery generation write the discovery tables only, except for
the one job that a commit creates.
-/

namespace MycSigner

open Transaction

/-- The store without the discovery tables. -/
def Store.withoutDiscovery (s : Store) : Store :=
  { s with desired := [], documents := [], publicationState := none }

/-- What keeps everything outside discovery keeps the delivery tables. -/
theorem delivery_of_withoutDiscovery {s s' : Store}
    (h : s'.withoutDiscovery = s.withoutDiscovery) :
    s'.jobs = s.jobs ∧ s'.targets = s.targets ∧ s'.attempts = s.attempts :=
  ⟨(congrArg Store.jobs h :), (congrArg Store.targets h :), (congrArg Store.attempts h :)⟩

theorem updatePublicationState_keeps_others (matching : PublicationStateRow → Bool)
    (set : PublicationStateRow → PublicationStateRow) :
    Keeps Store.withoutDiscovery (updatePublicationState matching set) :=
  publicationTable.respects_update fun _ _ => rfl

theorem insertGeneration_keeps_others (request : DiscoveryCommitRequest) (existing : Bool) :
    Keeps Store.withoutDiscovery (insertGeneration request existing) := by
  cases existing with
  | true => exact .pure _
  | false =>
      exact .bind (desiredTable.respects_insert fun _ _ => rfl) fun _ =>
        documentsTable.respects_insert fun _ _ => rfl

theorem confirmDesired_keeps_others (codec : EventCodec) (request : DiscoveryCommitRequest)
    (policy : DiscoveryPolicies) (created : Bool) :
    Keeps Store.withoutDiscovery (confirmDesired codec request policy created) :=
  .bind (.query _) fun _ => .bind (.orFail _ _) fun _ => .bind (.query _) fun _ =>
    .bind (.orFail _ _) fun _ => .bind (.require _ _) fun _ => .pure _

theorem replaceDesired_keeps_others (request : DiscoveryCommitRequest) (jobId : Id32)
    (state : PublicationStateRow) :
    Keeps Store.withoutDiscovery (replaceDesired request jobId state) :=
  .bind (.require _ _) fun _ => .bind (updatePublicationState_keeps_others _ _) fun _ => .require _ _

theorem pointDesired_keeps_others (codec : EventCodec) (request : DiscoveryCommitRequest)
    (policy : DiscoveryPolicies) (existing : Bool) (jobId : Id32) :
    Keeps Store.withoutDiscovery (pointDesired codec request policy existing jobId) := by
  unfold pointDesired
  refine .bind (.query _) fun state => ?_
  cases state with
  | none =>
      exact .bind (publicationTable.respects_insert fun _ _ => rfl) fun _ =>
        confirmDesired_keeps_others _ _ _ _
  | some state =>
      dsimp only
      split
      next => exact .bind (.require _ _) fun _ => .pure _
      next =>
        exact .bind (replaceDesired_keeps_others _ _ _) fun _ => confirmDesired_keeps_others _ _ _ _

theorem promoteCurrent_keeps_others (jobId : Id32) (observedAt : TimeUnixMs) :
    Keeps Store.withoutDiscovery (promoteCurrent jobId observedAt) := by
  unfold promoteCurrent
  refine .bind (.query _) fun _ => .bind (.orFail _ _) fun state => .bind (.require _ _) fun _ =>
    .bind (.query _) fun job => .bind (.require _ _) fun _ => ?_
  split
  next => exact .pure _
  next =>
    exact .bind (updatePublicationState_keeps_others _ _) fun _ => .bind (.require _ _) fun _ =>
      .bind (.query _) fun _ => .bind (.orFail _ _) fun _ => .pure _

theorem promoteCurrentIfDesired_keeps_others (jobId : Id32) (observedAt : TimeUnixMs) :
    Keeps Store.withoutDiscovery (promoteCurrentIfDesired jobId observedAt) := by
  unfold promoteCurrentIfDesired
  refine .bind (.query _) fun _ => .bind (.orFail _ _) fun state => ?_
  split
  next => exact .bind (promoteCurrent_keeps_others _ _) fun _ => .pure _
  next => exact .pure _

theorem promoteRecovered_keeps_others (observedAt : TimeUnixMs) (current : JobRecord)
    (report : RecoveryReport) :
    Keeps Store.withoutDiscovery (promoteRecovered observedAt current report) := by
  unfold promoteRecovered
  split
  next =>
    refine .bind (promoteCurrentIfDesired_keeps_others _ _) fun promoted => ?_
    split
    next => exact .bind (.query _) fun _ => .pure _
    next => exact .pure _
  next => exact .pure _

end MycSigner
