import Ucr.Lib.Table
import Ucr.Lib.Transaction
import Ucr.Objects.Call
import Ucr.Objects.Conference
import Ucr.Objects.Delivery
import Ucr.Objects.Device
import Ucr.Objects.Event
import Ucr.Objects.Integration
import Ucr.Objects.Recording
import Ucr.Objects.Service

-- The state of the in-memory store: one table for each kind of record, addressed by tenant scope.

namespace Ucr

inductive DurableStoreError
  | invalidRecord
  | conflict
  | full
  | corrupt
  | unavailable
  | permissionDenied
  | unsupportedSchemaVersion
  | foreignStore
  | internal
deriving DecidableEq

abbrev StoreResult := Except DurableStoreError

inductive DurableRecordStatus
  | persisted
  | duplicate
deriving DecidableEq

inductive EventAppendStatus
  | appended
  | duplicate
deriving DecidableEq

inductive MemoryEventCursorAction
  | acknowledge
  | reject
deriving DecidableEq

-- Positions count journal entries and stay far below the range of their machine type.
structure MemoryEventActiveBatch where
  endPosition : ℕ
  attempt : U32
  notBeforeUnixMs : ℤ
deriving DecidableEq

structure MemoryEventSubscriptionState where
  subscription : EventSubscription
  owner : ScopedPrincipal
  committedPosition : ℕ
  generation : U64
  active : Option MemoryEventActiveBatch
  lastCursorAction : Option (Bytes × MemoryEventCursorAction)
  lastReplayId : Option OpaqueId
  deadLetters : List EventDeadLetter
deriving DecidableEq

structure MemoryStoreForwardState where
  job : StoreForwardJob
  fingerprint : Digest
  lease : Option (StoreForwardLeaseId × ℤ)

structure MemoryQuotaUsage where
  windowStartUnixMs : ℤ
  usedRequests : ℕ
  lastObservedUnixMs : ℤ

-- The source renders scope and identifier as texts; both renderings are injective.
abbrev ScopedId := TenantScope × OpaqueId

instance ScopedId.lawful : LawfulBEq ScopedId := inferInstance

structure CommandTables where
  accepted     : Table (TenantScope × String) CommandEnvelope
  acceptedById : Table ScopedId CommandEnvelope

structure DeliveryTables where
  intents : Table ScopedId CommunicationIntent
  deliveries : Table ScopedId DeliveryAttempt
  deliveryEvidence : Table ScopedId (List DeliveryEvidence)
  storeForwardJobs : Table ScopedId MemoryStoreForwardState
  storeForwardTombstones : Table ScopedId Digest

structure RecordingTables where
  recordings : Table ScopedId RecordingSession
  recordingProviderOperations :
    Table (ScopedId × U64 × RecordingProviderOperation) RecordingProviderOperationRecord

structure ConferenceTables where
  universalConferences : Table ScopedId UniversalConferenceProfile
  universalConferenceExternal : Table (TenantScope × IntegrationId × Bytes) ScopedId
  universalConferenceIdempotency : Table (TenantScope × IntegrationId × String) ScopedId
  universalConferenceParticipants :
    Table (ScopedId × PrincipalRef) UniversalConferenceParticipantProfile

structure ServiceTables where
  serviceQuotaPolicies : Table ScopedId ServiceQuotaPolicy
  serviceResourceQuotaPolicies : Table ScopedId ServiceResourceQuotaPolicy
  serviceRecordingUsageMs : Table ScopedId U64
  serviceRateLimitPolicies : Table (ScopedId × ServiceRequestRateClass) ServiceRateLimitPolicy
  serviceRateLimitUsage : Table (ScopedId × ServiceRequestRateClass) MemoryQuotaUsage
  serviceAuditRecords : List (ServiceAuditRecord × Digest)

structure DeviceTables where
  identities : Table ScopedId IdentityRecord
  devices : Table ScopedId DeviceDescriptor
  trustedSigningKeys : Table ScopedId TrustedSigningKeyRecord
  activeTrustedSigningKeys : Table ScopedId KeyId
  recoveryPlans : Table RecoveryPlanId RecoveryPlan
  activeRecoveryPlans : Table ScopedId RecoveryPlanId

-- Tables that are written by the operations of one area only.
structure AreaTables extends CommandTables, DeliveryTables, RecordingTables, ConferenceTables,
  ServiceTables, DeviceTables

-- The three ledgers that share the event identifiers of a scope, and the order of the journal.
structure EventLedgers where
  events : Table ScopedId EventEnvelope
  eventOrder : List ScopedId
  groupChanges : Table ScopedId (PrincipalRef × Digest)
  callSignals : Table ScopedId (PrincipalRef × Digest × U64)

structure MemoryState extends AreaTables, EventLedgers where
  eventSubscriptions : Table ScopedId MemoryEventSubscriptionState
  terminalEvents : Table ScopedId EventId
  conversations : Table ScopedId ConversationRecord
  calls : Table ScopedId CallSession
  callCreationFingerprints : Table ScopedId Digest
  groups : Table ScopedId GroupRecord
  groupMemberships : Table (TenantScope × GroupId × PrincipalRef) GroupMembership
  offlineGroupChangeReplicas : List (U64 × OfflineGroupChangeReplica)
  offlineGroupMessageReplicas : List (U64 × OfflineGroupMessageReplica)
  offlineGroupNextSequence : U64
  meshGroupMessagePaths : Table ScopedId (List DeviceId)
  messages : Table ScopedId MessageEnvelope
  bridgeRegistrations : Table ScopedId BridgeRegistration
  syncSessions : Table ScopedId SyncSession
  conferenceJoinGrants : Table ScopedId ConferenceJoinGrantRecord
  redactedJoinGrants : List ScopedId

def MemoryState.empty : MemoryState where
  accepted := ∅
  acceptedById := ∅
  intents := ∅
  deliveries := ∅
  deliveryEvidence := ∅
  storeForwardJobs := ∅
  storeForwardTombstones := ∅
  recordings := ∅
  recordingProviderOperations := ∅
  universalConferences := ∅
  universalConferenceExternal := ∅
  universalConferenceIdempotency := ∅
  universalConferenceParticipants := ∅
  serviceQuotaPolicies := ∅
  serviceResourceQuotaPolicies := ∅
  serviceRecordingUsageMs := ∅
  serviceRateLimitPolicies := ∅
  serviceRateLimitUsage := ∅
  serviceAuditRecords := []
  identities := ∅
  devices := ∅
  trustedSigningKeys := ∅
  activeTrustedSigningKeys := ∅
  recoveryPlans := ∅
  activeRecoveryPlans := ∅
  events := ∅
  eventOrder := []
  groupChanges := ∅
  callSignals := ∅
  eventSubscriptions := ∅
  terminalEvents := ∅
  conversations := ∅
  calls := ∅
  callCreationFingerprints := ∅
  groups := ∅
  groupMemberships := ∅
  offlineGroupChangeReplicas := []
  offlineGroupMessageReplicas := []
  offlineGroupNextSequence := 0
  meshGroupMessagePaths := ∅
  messages := ∅
  bridgeRegistrations := ∅
  syncSessions := ∅
  conferenceJoinGrants := ∅
  redactedJoinGrants := []

-- A record is stored under a fresh key once; storing it again is a duplicate, storing another one
-- in its place a conflict.
def storeOnce {ν : Type} [DecidableEq ν] (existing : Option ν) (record : ν) :
    StoreResult DurableRecordStatus :=
  match existing with
  | some existing => if existing = record then .ok .duplicate else .error .conflict
  | none => .ok .persisted

theorem storeOnce_eq_persisted {ν : Type} [DecidableEq ν] {existing : Option ν} {record : ν} :
    storeOnce existing record = .ok .persisted ↔ existing = none := by
  unfold storeOnce
  split
  case h_1 => split <;> simp
  case h_2 => simp

theorem storeOnce_eq_duplicate {ν : Type} [DecidableEq ν] {existing : Option ν} {record : ν} :
    storeOnce existing record = .ok .duplicate ↔ existing = some record := by
  unfold storeOnce
  split
  case h_1 => split <;> simp_all
  case h_2 => simp

end Ucr
