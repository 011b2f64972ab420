import Ucr.Objects.Basic

-- Durable group aggregates, their memberships and the changes members ask for.

namespace Ucr

inductive GroupRole
  | owner
  | admin
  | member
deriving DecidableEq

inductive GroupPermission
  | sendMessage
  | readHistory
  | manageMembers
  | manageRoles
  | manageGroup
  | transferOwnership
deriving DecidableEq

inductive GroupMemberState
  | active
  | removed
deriving DecidableEq

inductive GroupOwnership
  | personOwned (owner : PrincipalRef)
  | organizationOwned (owner : PrincipalRef)
  | sharedAdmin
  | ownerlessFederated
  | temporary (owner : Option PrincipalRef) (expiresAtUnixMs : ℤ)
deriving DecidableEq

inductive GroupHistoryPolicy
  | noHistory
  | fromJoin
  | lastNMessages (count : U32)
  | fromTimestamp (timestamp : ℤ)
  | fullHistory
  | customPolicy (identifier : String)
deriving DecidableEq

structure GroupCryptoState where
  capabilityId : Option String
  epoch : U64
  stateRef : Option OpaqueId
deriving DecidableEq

inductive PublicGroupJoinPolicy
  | openToAll
  | approvalRequired
  | inviteOnly
deriving DecidableEq

inductive PublicGroupDiscovery
  | unlisted
  | discoverable
deriving DecidableEq

structure PublicGroupPolicy where
  joinPolicy : PublicGroupJoinPolicy
  discovery  : PublicGroupDiscovery
  indexed    : Bool
deriving DecidableEq

inductive GroupMediaState
  | idle
deriving DecidableEq

structure GroupBridgeMapping where
  integrationId   : IntegrationId
  externalGroupId : Bytes
deriving DecidableEq

structure GroupRecord where
  scope : TenantScope
  groupId : GroupId
  conversation : ConversationRef
  ownership : GroupOwnership
  historyPolicy : GroupHistoryPolicy
  deliveryPolicy : DeliveryPolicy
  cryptoState : GroupCryptoState
  publicPolicy : Option PublicGroupPolicy
  mediaState : GroupMediaState
  bridgeMappings : List GroupBridgeMapping
  replicationGeneration : U64
  revision : U64
deriving DecidableEq

-- Removed members stay in the list as tombstones.
structure GroupMembership where
  scope : TenantScope
  groupId : GroupId
  member : PrincipalRef
  role : GroupRole
  permissions : List GroupPermission
  state : GroupMemberState
  joinedRevision : U64
  removedRevision : Option U64
  historyFloorLogicalOrder : U64
deriving DecidableEq

inductive GroupChangeKind
  | addMember (member : PrincipalRef) (role : GroupRole)
  | removeMember (member : PrincipalRef)
  | changeRole (member : PrincipalRef) (role : GroupRole)
  | transferOwnership (newOwner : PrincipalRef)
  | setHistoryPolicy (policy : GroupHistoryPolicy)
  | setPublicPolicy (policy : PublicGroupPolicy)
  | setDeliveryPolicy (policy : DeliveryPolicy)
  | addBridgeMapping (mapping : GroupBridgeMapping)
  | removeBridgeMapping (integrationId : IntegrationId) (externalGroupId : Bytes)

structure GroupChange where
  eventId : EventId
  scope : TenantScope
  groupId : GroupId
  expectedRevision : U64
  kind : GroupChangeKind
  nextCryptoState : Option GroupCryptoState

structure GroupTransition where
  group : GroupRecord
  memberships : List GroupMembership
deriving DecidableEq

inductive GroupError
  | invalidKind
  | invalidPublicPolicy
  | invalidOwnership
  | invalidHistoryPolicy
  | invalidCryptoState
  | invalidBridgeMapping
  | duplicateBridgeMapping
  | bridgeMappingNotFound
  | invalidMembership
  | duplicateMembership
  | tooManyMembers
  | scopeMismatch
  | groupMismatch
  | revisionMismatch
  | permissionDenied
  | memberAlreadyActive
  | memberNotActive
  | invalidRoleTransition
  | ownershipTransferNotSupported
  | wouldOrphanGroup
  | invalidHistoryFloor
  | invalidListLimit
deriving DecidableEq

end Ucr
