import Ucr.Lib.Sha256
import Ucr.Objects.Message

-- Commands, the events that record what happened, and the subscriptions that consume them.

namespace Ucr

structure CommandEnvelope where
  commandId : CommandId
  scope : TenantScope
  commandType : String
  payload : Bytes
  correlation : CorrelationContext
  schemaVersion : ProtocolVersion
  extensions : List ProtocolExtension
deriving DecidableEq

inductive CommandReceiptStatus
  | accepted
  | duplicate
deriving DecidableEq

structure CommandReceipt where
  commandId : CommandId
  status : CommandReceiptStatus
  originalCommandId : Option CommandId
  schemaVersion : ProtocolVersion
  extensions : List ProtocolExtension
deriving DecidableEq

structure EventEnvelope where
  eventId : EventId
  scope : TenantScope
  eventType : String
  payload : Bytes
  actor : ActorRef
  sourceDevice : DeviceRef
  wallTimeUnixMs : ℤ
  logicalOrder : U64
  correlation : CorrelationContext
  schemaVersion : ProtocolVersion
  integrityMetadata : Bytes
  extensions : List ProtocolExtension
deriving DecidableEq

inductive EventSubscriptionMode
  | durableStream
  | webhook
deriving DecidableEq

inductive EventSubscriptionStart
  | beginning
  | latest
deriving DecidableEq

structure EventSubscription where
  subscriptionId : EventSubscriptionId
  scope : TenantScope
  mode : EventSubscriptionMode
  webhookUri : Option String
  eventTypes : List String
  maxInFlight : U32
  maxAttempts : U32
  start : EventSubscriptionStart
deriving DecidableEq

structure EventConsumerCursor where
  token : Bytes
deriving DecidableEq

inductive EventDeliveryFailureKind
  | retryable
  | permanent
deriving DecidableEq

structure EventDeliveryBatch where
  subscriptionId : EventSubscriptionId
  scope : TenantScope
  events : List EventEnvelope
  cursor : EventConsumerCursor
  attempt : U32
deriving DecidableEq

inductive EventPollResult
  | empty
  | retryAfter (retryAfterMs : ℕ)
  | batch (batch : EventDeliveryBatch)
deriving DecidableEq

structure EventDeadLetter where
  subscriptionId : EventSubscriptionId
  scope : TenantScope
  event : EventEnvelope
  attempts : U32
  failureKind : EventDeliveryFailureKind
deriving DecidableEq

inductive SyncLinkKind
  | deviceDevice
  | deviceNode
  | peerPeer
  | deviceCloud
deriving DecidableEq

inductive SyncMode
  | full
  | partialSelection
deriving DecidableEq

inductive SyncState
  | prepared
  | active
  | paused
  | completed
  | cancelled
  | failed
deriving DecidableEq

structure SyncSelection where
  mode : SyncMode
  conversationIds : List ConversationId
deriving DecidableEq

structure SyncSession where
  sessionId : SessionId
  scope : TenantScope
  sourceEndpointId : EndpointId
  targetEndpointId : EndpointId
  linkKind : SyncLinkKind
  selection : SyncSelection
  state : SyncState
deriving DecidableEq

structure EventSummary where
  eventId     : EventId
  fingerprint : Digest
deriving DecidableEq

structure AntiEntropyCursor where
  token : Bytes
deriving DecidableEq

structure AntiEntropyPage where
  sessionId  : SessionId
  scope      : TenantScope
  summaries  : List EventSummary
  nextCursor : Option AntiEntropyCursor
deriving DecidableEq

inductive EventReplicaState
  | missing
  | matching
  | damaged
deriving DecidableEq

structure EventReconciliation where
  eventId : EventId
  state   : EventReplicaState

namespace Scenario

def alicePhone : DeviceRef := ⟨named "alice-phone", alice.principalId⟩

def journalEntry (eventId : EventId) (eventType : String) : EventEnvelope where
  eventId := eventId
  scope := tenant
  eventType := eventType
  payload := []
  actor := ⟨alice.principalId, .person, none⟩
  sourceDevice := alicePhone
  wallTimeUnixMs := 0
  logicalOrder := 0
  correlation := ⟨named "notes", none, none⟩
  schemaVersion := ⟨1, 0⟩
  integrityMetadata := []
  extensions := []

end Scenario

end Ucr
