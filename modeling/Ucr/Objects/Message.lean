import Ucr.Objects.Group
import Ucr.Protocol.Extension

-- Conversations, message envelopes and the replicas of group facts that travel between devices.

namespace Ucr

inductive ActorKind
  | person
  | aiAgent
  | bot
  | organization
  | system
deriving DecidableEq

structure ActorRef where
  actorId : OpaqueId
  kind : ActorKind
  onBehalfOf : Option PrincipalId
deriving DecidableEq

structure DeviceRef where
  deviceId   : DeviceId
  identityId : OpaqueId
deriving DecidableEq

structure OriginRef where
  principalId   : Option PrincipalId
  endpointId    : Option EndpointId
  integrationId : Option IntegrationId
deriving DecidableEq

structure CorrelationContext where
  correlationId  : OpaqueId
  causationId    : Option OpaqueId
  idempotencyKey : Option String
deriving DecidableEq

inductive DeliveryState
  | created
  | persisted
  | encrypted
  | queued
  | routePlanned
  | inFlight
  | acknowledged
  | delivered
  | read
  | failed
  | expired
deriving DecidableEq

structure ConversationRecord where
  scope : TenantScope
  conversation : ConversationRef
  parentConversationId : Option ConversationId
deriving DecidableEq

inductive MessageRelationKind
  | reply
  | quote
  | edit
  | reaction
  | threadParent
  | forward
  | reference
deriving DecidableEq

structure MessageRelation where
  kind : MessageRelationKind
  targetMessageId : MessageId
deriving DecidableEq

structure ExternalMessageMapping where
  integrationId     : IntegrationId
  externalMessageId : Bytes
deriving DecidableEq

inductive CryptoSuite
  | ucrV1
deriving DecidableEq

structure MessageCryptoMetadata where
  suite : CryptoSuite
  keyId : Option OpaqueId
  opaqueMetadata : Bytes
deriving DecidableEq

structure MessageSignature where
  keyId : OpaqueId
  algorithmId : String
  algorithmVersion : U32
  signature : Bytes
deriving DecidableEq

structure MessageEnvelope where
  messageId : MessageId
  scope : TenantScope
  conversation : ConversationRef
  author : ActorRef
  authorDevice : DeviceRef
  createdAtUnixMs : ℤ
  logicalOrder : U64
  content : Bytes
  attachmentIds : List OpaqueId
  replyTo : Option MessageId
  relations : List MessageRelation
  cryptoMetadata : Option MessageCryptoMetadata
  deliveryPolicy : DeliveryPolicy
  deliveryState : DeliveryState
  origin : OriginRef
  correlation : CorrelationContext
  extensions : List ProtocolExtension
  externalMappings : List ExternalMessageMapping
  signature : Option MessageSignature
deriving DecidableEq

inductive OfflineGroupStreamKind
  | changes
  | messages
deriving DecidableEq

structure OfflineGroupCursor where
  token : Bytes

structure MeshCursor where
  token : Bytes

structure OfflineGroupChangeReplica where
  actor : ScopedPrincipal
  groupGeneration : U64
  change : GroupChange

structure OfflineGroupMessageReplica where
  author : ScopedPrincipal
  groupId : GroupId
  groupGeneration : U64
  message : MessageEnvelope

-- The path is routing metadata only: the devices that have already carried the message.
structure MeshGroupMessageReplica where
  record      : OfflineGroupMessageReplica
  forwardPath : List DeviceId

structure OfflineGroupMessagePage where
  scope      : TenantScope
  groupId    : GroupId
  records    : List OfflineGroupMessageReplica
  nextCursor : Option OfflineGroupCursor

structure MeshGroupMessagePage where
  scope      : TenantScope
  groupId    : GroupId
  records    : List MeshGroupMessageReplica
  nextCursor : Option MeshCursor

namespace Scenario

def aliceTells (messageId : MessageId) (conversation : ConversationRef) : MessageEnvelope where
  messageId := messageId
  scope := tenant
  conversation := conversation
  author := ⟨alice.principalId, .person, none⟩
  authorDevice := ⟨named "alices-phone", named "alices-key"⟩
  createdAtUnixMs := 0
  logicalOrder := 0
  content := [1]
  attachmentIds := []
  replyTo := none
  relations := []
  cryptoMetadata := none
  deliveryPolicy := .durable
  deliveryState := .created
  origin := ⟨some alice.principalId, none, none⟩
  correlation := ⟨named "correlation", none, none⟩
  extensions := []
  externalMappings := []
  signature := none

end Scenario

end Ucr
