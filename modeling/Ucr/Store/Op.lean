import Ucr.Store.ConferenceStore
import Ucr.Store.DeliveryStore
import Ucr.Store.DeviceStore
import Ucr.Store.RecordStore
import Ucr.Store.Reconciliation
import Ucr.Store.ServiceStore
import Ucr.Store.SubscriptionStore

-- The store as a state machine: its operations, and the states they lead to.

namespace Ucr

open Except MemoryState

inductive StoreOp
  | persistConversation (conversation : ConversationRecord)
  | installBridgeRegistration (registration : BridgeRegistration)
  | transitionBridgeRegistration (scope : TenantScope) (integrationId : IntegrationId)
      (expectedGeneration : U64) (nextState : BridgeRegistrationState)
  | createCall (creator : ScopedPrincipal) (session : CallSession)
  | createCallIfParentCurrent (creator : ScopedPrincipal) (session parent : CallSession)
  | applyCallSignal (actor : ScopedPrincipal) (signal : CallSignal)
  | terminateDirectCallWithDerived (actor : ScopedPrincipal) (directSignal : CallSignal)
      (derivedCallId : CallId) (derivedEventId : EventId)
  | createGroup (conversation : ConversationRecord) (group : GroupRecord)
      (creator : ScopedPrincipal)
  | applyGroupChange (actor : ScopedPrincipal) (change : GroupChange)
  | persistMessage (message : MessageEnvelope)
  | persistGroupMessage (subject : ScopedPrincipal) (message : MessageEnvelope)
  | persistGroupMessageWithNextLogicalOrder (subject : ScopedPrincipal) (message : MessageEnvelope)
  | reconcileOfflineGroupChange (recipient : ScopedPrincipal) (record : OfflineGroupChangeReplica)
  | reconcileOfflineGroupMessage (recipient : ScopedPrincipal) (record : OfflineGroupMessageReplica)
  | reconcileMeshGroupMessage (recipient : ScopedPrincipal) (record : MeshGroupMessageReplica)
  | persistConferenceJoinGrant (grant : ConferenceJoinGrantRecord)
  | revokeConferenceJoinGrant (scope : TenantScope) (sessionId : SessionId)
  | redeemConferenceJoinGrant (scope : TenantScope) (sessionId : SessionId)
  | pruneExpiredConferenceJoinGrants (nowUnixMs : ℤ)
  | acceptCommand (command : CommandEnvelope)
  | createSyncSession (session : SyncSession)
  | transitionSync (scope : TenantScope) (sessionId : SessionId)
      (expectedState nextState : SyncState)
  | appendEvent (event : EventEnvelope)
  | appendEventsAtomically (events : List EventEnvelope)
  | reconcileEvent (scope : TenantScope) (sessionId : SessionId) (event : EventEnvelope)
  | recordTerminalEvent (scope : TenantScope) (commandId : CommandId) (event : EventEnvelope)
  | persistEventSubscription (owner : ScopedPrincipal) (subscription : EventSubscription)
  | pollEventSubscription (scope : TenantScope) (subscriptionId : EventSubscriptionId)
      (maxItems : ℕ) (nowUnixMs : ℤ)
  | acknowledgeEventCursor (scope : TenantScope) (subscriptionId : EventSubscriptionId)
      (cursor : EventConsumerCursor)
  | rejectEventCursor (scope : TenantScope) (subscriptionId : EventSubscriptionId)
      (cursor : EventConsumerCursor) (failureKind : EventDeliveryFailureKind) (nowUnixMs : ℤ)
  | replayEventSubscription (scope : TenantScope) (subscriptionId : EventSubscriptionId)
      (replayId : OpaqueId)
  | recording (op : RecordingOp)
  | conference (op : ConferenceOp)
  | service (op : ServiceOp)
  | acceptCommandWithLegacyReservation (command : CommandEnvelope) (legacyIdempotencyKey : String)
      (generated : Option CommandId)
  | delivery (op : DeliveryOp)
  | device (op : DeviceOp)

variable (s : MemoryState)

-- The state an operation leaves behind, whether it succeeds or fails.
def StoreOp.run : StoreOp → MemoryState
  | .persistConversation conversation => ((s.persistConversation conversation).commit s).2
  | .installBridgeRegistration registration =>
    ((s.installBridgeRegistration registration).commit s).2
  | .transitionBridgeRegistration scope integrationId expectedGeneration nextState =>
    ((s.transitionBridgeRegistration scope integrationId expectedGeneration nextState).commit s).2
  | .createCall creator session => ((s.createCall creator session).commit s).2
  | .createCallIfParentCurrent creator session parent =>
    ((s.createCallIfParentCurrent creator session parent).commit s).2
  | .applyCallSignal actor signal => ((s.applyCallSignalInState actor signal).commit s).2
  | .terminateDirectCallWithDerived actor directSignal derivedCallId derivedEventId =>
    (s.terminateDirectCallWithDerived actor directSignal derivedCallId derivedEventId).2
  | .createGroup conversation group creator => (s.createGroup conversation group creator).2
  | .applyGroupChange actor change => ((s.applyGroupChange actor change).commit s).2
  | .persistMessage message => ((s.persistMessageInState message).commit s).2
  | .persistGroupMessage subject message => ((s.persistGroupMessage subject message).commit s).2
  | .persistGroupMessageWithNextLogicalOrder subject message =>
    ((s.persistGroupMessageWithNextLogicalOrder subject message).commit s).2
  | .reconcileOfflineGroupChange recipient record =>
    ((s.reconcileOfflineGroupChange recipient record).commit s).2
  | .reconcileOfflineGroupMessage recipient record =>
    ((s.reconcileOfflineGroupMessage recipient record).commit s).2
  | .reconcileMeshGroupMessage recipient record => (s.reconcileMeshGroupMessage recipient record).2
  | .persistConferenceJoinGrant grant => ((s.persistConferenceJoinGrant grant).commit s).2
  | .revokeConferenceJoinGrant scope sessionId =>
    ((s.revokeConferenceJoinGrant scope sessionId).commit s).2
  | .redeemConferenceJoinGrant scope sessionId =>
    ((s.redeemConferenceJoinGrant scope sessionId).commit s).2
  | .pruneExpiredConferenceJoinGrants nowUnixMs =>
    ((s.pruneExpiredConferenceJoinGrants nowUnixMs).commit s).2
  | .acceptCommand command => ((s.acceptCommand command).commit s).2
  | .createSyncSession session => ((s.createSyncSession session).commit s).2
  | .transitionSync scope sessionId expectedState nextState =>
    ((s.transitionSync scope sessionId expectedState nextState).commit s).2
  | .appendEvent event => ((s.appendEvent event).commit s).2
  | .appendEventsAtomically events => ((s.appendEventsAtomically events).commit s).2
  | .reconcileEvent scope sessionId event => ((s.reconcileEvent scope sessionId event).commit s).2
  | .recordTerminalEvent scope commandId event =>
    ((s.recordTerminalEvent scope commandId event).commit s).2
  | .persistEventSubscription owner subscription =>
    ((s.persistEventSubscription owner subscription).commit s).2
  | .pollEventSubscription scope subscriptionId maxItems nowUnixMs =>
    ((s.pollEventSubscription scope subscriptionId maxItems nowUnixMs).commit s).2
  | .acknowledgeEventCursor scope subscriptionId cursor =>
    ((s.acknowledgeEventCursor scope subscriptionId cursor).commit s).2
  | .rejectEventCursor scope subscriptionId cursor failureKind nowUnixMs =>
    (s.rejectEventCursor scope subscriptionId cursor failureKind nowUnixMs).2
  | .replayEventSubscription scope subscriptionId replayId =>
    ((s.replayEventSubscription scope subscriptionId replayId).commit s).2
  | .recording op => op.run s
  | .conference op => op.run s
  | .service op => op.run s
  | .acceptCommandWithLegacyReservation command legacyIdempotencyKey generated =>
    (s.acceptCommandWithLegacyReservation command legacyIdempotencyKey generated).2
  | .delivery op => op.run s
  | .device op => op.run s

def StoreOp.subscription? : StoreOp → Option ScopedId
  | .persistEventSubscription _ subscription =>
    some (subscription.scope, subscription.subscriptionId)
  | .pollEventSubscription scope subscriptionId ..
  | .acknowledgeEventCursor scope subscriptionId _
  | .rejectEventCursor scope subscriptionId ..
  | .replayEventSubscription scope subscriptionId _ => some (scope, subscriptionId)
  | _ => none

-- The parts of the store with tables of their own.
inductive StoreArea
  | commands
  | deliveries
  | recordings
  | conferences
  | services
  | devices
deriving DecidableEq

def StoreOp.area : StoreOp → Option StoreArea
  | .acceptCommand _ | .acceptCommandWithLegacyReservation .. => some .commands
  | .delivery _ => some .deliveries
  | .recording _ => some .recordings
  | .conference _ => some .conferences
  | .service _ => some .services
  | .device _ => some .devices
  | _ => none

-- The signals and the new calls an operation asks for, and the area it works in.
structure Cause where
  signals : List CallSignal
  calls   : List ScopedId
  area    : Option StoreArea

-- The signal a hang-up sends to the media call, if there is one and it is running.
def MemoryState.derivedSignals (scope : TenantScope) (callId : CallId)
    (eventId : EventId) : List CallSignal :=
  match s.calls.get (scope, callId) with
  | none => []
  | some media =>
    (derivedTermination media.signallingState).toList.map
      (derivedSignal scope callId eventId media.revision)

def StoreOp.cause : StoreOp → Cause
  | .createCall _ session | .createCallIfParentCurrent _ session _ =>
    ⟨[], [(session.scope, session.callId)], none⟩
  | .applyCallSignal _ signal => ⟨[signal], [], none⟩
  | .terminateDirectCallWithDerived _ directSignal derivedCallId derivedEventId =>
    ⟨directSignal :: s.derivedSignals directSignal.scope derivedCallId derivedEventId, [], none⟩
  | op => ⟨[], [], op.area⟩

def StoreStep (s s' : MemoryState) : Prop :=
  ∃ op : StoreOp, op.run s = s'

abbrev StoreRun := Relation.ReflTransGen StoreStep

def MemoryState.Reachable : Prop :=
  StoreRun .empty s

-- A run in which every operation meets a condition in the state it is run in.
abbrev StoreRunWhere (P : MemoryState → StoreOp → Prop) :=
  Relation.ReflTransGen fun s s' => ∃ op : StoreOp, P s op ∧ op.run s = s'

theorem StoreRunWhere.storeRun {P : MemoryState → StoreOp → Prop} {s s'}
    (h : StoreRunWhere P s s') :
    StoreRun s s' :=
  h.lift id fun _ _ ⟨op, _, hrun⟩ => ⟨op, hrun⟩

-- What holds at the beginning and is kept by every operation holds at the end.
@[elab_as_elim]
theorem StoreRunWhere.induction {P : MemoryState → StoreOp → Prop} {Q : MemoryState → Prop} {s s'}
    (hrun : StoreRunWhere P s s') (hs : s.Reachable) (hq : Q s)
    (hstep : ∀ t op, t.Reachable → P t op → Q t → Q (op.run t)) : Q s' := by
  induction hrun
  case refl => exact hq
  case tail hbefore step ih =>
    obtain ⟨op, hop, rfl⟩ := step
    exact hstep _ op (hs.trans (StoreRunWhere.storeRun hbefore)) hop ih

@[elab_as_elim]
theorem MemoryState.Reachable.induction {Q : MemoryState → Prop} {s s'} (hs : s.Reachable)
    (hrun : StoreRun s s') (hq : Q s)
    (hstep : ∀ t (op : StoreOp), t.Reachable → Q t → Q (op.run t)) :
    Q s' := by
  have hrun' : StoreRunWhere (fun _ _ => True) s s' :=
    hrun.lift id fun _ _ ⟨op, heq⟩ => ⟨op, trivial, heq⟩
  exact hrun'.induction hs hq fun t op ht _ => hstep t op ht

def MemoryState.runAll (ops : List StoreOp) : MemoryState :=
  ops.foldl (fun s op => op.run s) s

theorem MemoryState.storeRun_runAll (s : MemoryState) (ops : List StoreOp) :
    StoreRun s (s.runAll ops) := by
  induction ops generalizing s
  case nil => exact .refl
  case cons op ops ih => exact .head ⟨op, rfl⟩ (ih (op.run s))

def MemoryState.RunsWhere (P : MemoryState → StoreOp → Prop) : MemoryState → List StoreOp → Prop
  | _, [] => True
  | s, op :: ops => P s op ∧ RunsWhere P (op.run s) ops

instance MemoryState.decidableRunsWhere {P : MemoryState → StoreOp → Prop}
    [∀ s op, Decidable (P s op)] :
    (s : MemoryState) → (ops : List StoreOp) → Decidable (RunsWhere P s ops)
  | _, [] => .isTrue trivial
  | s, op :: ops =>
    have := decidableRunsWhere (P := P) (op.run s) ops
    inferInstanceAs (Decidable (P s op ∧ RunsWhere P (op.run s) ops))

theorem MemoryState.RunsWhere.storeRunWhere {P : MemoryState → StoreOp → Prop} {s}
    (h : RunsWhere P s ops) : StoreRunWhere P s (s.runAll ops) := by
  induction ops generalizing s
  case nil => exact .refl
  case cons op ops ih => exact .head ⟨op, h.1, rfl⟩ (ih h.2)

end Ucr
