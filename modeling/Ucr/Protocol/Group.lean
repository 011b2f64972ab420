import Ucr.Lib.Keyed
import Ucr.Lib.Sha256
import Ucr.Objects.Group
import Ucr.Protocol.Extension

-- The group state machine: canonical aggregates, who may change what, and the effect of a change.

namespace Ucr

open Except Encoding

def groupMlsCapability : String := "ucr.group.mls"
def maxGroupMembers : ℕ := 4096
def maxGroupMemberList : ℕ := 4096
def maxGroupBridgeMappings : ℕ := 32
def maxExternalGroupIdLen : ℕ := 4096
def maxGroupHistoryMessages : ℕ := 10000
def groupChangeFingerprintV1Domain : Bytes := utf8 "UCR-GROUP-CHANGE-V1\x00"

def groupPermissionsForRole : GroupRole → List GroupPermission
  | .owner  => [.sendMessage, .readHistory, .manageMembers, .manageRoles, .manageGroup,
                .transferOwnership]
  | .admin  => [.sendMessage, .readHistory, .manageMembers, .manageGroup]
  | .member => [.sendMessage, .readHistory]

def GroupBridgeMapping.sortKey (mapping : GroupBridgeMapping) : String ×ₗ List ℕ :=
  toLex (mapping.integrationId.value, mapping.externalGroupId.map (·.toNat))

def GroupMembership.sortKey (membership : GroupMembership) : String ×ₗ ℕ :=
  membership.member.sortKey

def validateBridgeMapping (mapping : GroupBridgeMapping) : Except GroupError Unit :=
  rejectIf (mapping.externalGroupId.isEmpty ∨
    mapping.externalGroupId.length > maxExternalGroupIdLen) .invalidBridgeMapping

def validateOwnership : GroupOwnership → Except GroupError Unit
  | .personOwned owner => rejectIf (owner.kind ≠ .person) .invalidOwnership
  | .organizationOwned owner => rejectIf (owner.kind ≠ .organization) .invalidOwnership
  | .temporary _ expiresAt => rejectIf (expiresAt ≤ 0) .invalidOwnership
  | _ => return

def validateHistoryPolicy : GroupHistoryPolicy → Except GroupError Unit
  | .lastNMessages count =>
    rejectIf (count = 0 ∨ count.val > maxGroupHistoryMessages) .invalidHistoryPolicy
  | .customPolicy identifier =>
    (validateNamespacedIdentifier identifier).mapError fun _ => .invalidHistoryPolicy
  | _ => return

def validateCryptoState (state : GroupCryptoState) : Except GroupError Unit :=
  match state.capabilityId, state.stateRef with
  | none, none => rejectIf (state.epoch ≠ 0) .invalidCryptoState
  | some capability, some _ => rejectIf (capability ≠ groupMlsCapability) .invalidCryptoState
  | _, _ => throw .invalidCryptoState

variable (group : GroupRecord)

def validatePublicPolicy : Except GroupError Unit :=
  match group.conversation.kind with
  | .privateGroup => rejectIf group.publicPolicy.isSome .invalidPublicPolicy
  | .publicGroup => rejectIf group.publicPolicy.isNone .invalidPublicPolicy
  | _ => return

def GroupRecord.sorted : GroupRecord :=
  { group with bridgeMappings := group.bridgeMappings.sortOn (·.sortKey) }

def canonicalGroupRecord : Except GroupError GroupRecord := do
  rejectIf (¬isGroupConversationKind group.conversation.kind) .invalidKind
  validateOwnership group.ownership
  validateHistoryPolicy group.historyPolicy
  validateCryptoState group.cryptoState
  validatePublicPolicy group
  rejectIf (group.bridgeMappings.length > maxGroupBridgeMappings) .invalidBridgeMapping
  let canonical := group.sorted
  forM canonical.bridgeMappings validateBridgeMapping
  rejectIf (canonical.bridgeMappings.anyAdjacent (·.integrationId = ·.integrationId))
    .duplicateBridgeMapping
  return canonical

def canonicalGroupMembership (membership : GroupMembership) :
    Except GroupError Unit := do
  rejectIf (membership.scope ≠ group.scope) .scopeMismatch
  rejectIf (membership.groupId ≠ group.groupId) .groupMismatch
  rejectIf (membership.permissions ≠ groupPermissionsForRole membership.role) .invalidMembership
  rejectIf (membership.joinedRevision > group.revision) .invalidMembership
  match membership.state with
  | .active  => rejectIf membership.removedRevision.isSome .invalidMembership
  | .removed =>
    let removed ← membership.removedRevision.okOr .invalidMembership
    rejectIf (removed < membership.joinedRevision ∨ removed > group.revision) .invalidMembership

-- The role the creator of a group of this ownership starts with.
def creatorRole (ownership : GroupOwnership) (creator : PrincipalRef) :
    Except GroupError GroupRole :=
  match ownership with
  | .personOwned owner => do
    rejectIf (owner ≠ creator ∨ creator.kind ≠ .person) .invalidOwnership
    return .owner
  | .organizationOwned owner => do
    rejectIf (owner ≠ creator ∨ creator.kind ≠ .organization) .invalidOwnership
    return .owner
  | .sharedAdmin | .ownerlessFederated => return .admin
  | .temporary (some owner) _ => do
    rejectIf (owner ≠ creator) .invalidOwnership
    return .owner
  | .temporary none _ => return .admin

def GroupMembership.joined (member : PrincipalRef) (role : GroupRole)
    (revision historyFloor : U64) : GroupMembership where
  scope := group.scope
  groupId := group.groupId
  member := member
  role := role
  permissions := groupPermissionsForRole role
  state := .active
  joinedRevision := revision
  removedRevision := none
  historyFloorLogicalOrder := historyFloor

def canonicalGroupCreation (creatorScope : TenantScope)
    (creator : PrincipalRef) : Except GroupError (GroupRecord × GroupMembership) := do
  rejectIf (creatorScope ≠ group.scope) .scopeMismatch
  let group ← canonicalGroupRecord group
  rejectIf (group.revision ≠ 0 ∨ group.replicationGeneration ≠ 0) .revisionMismatch
  let role ← creatorRole group.ownership creator
  return (group, .joined group creator role 0 0)

variable (memberships : List GroupMembership)

def canonicalGroupMemberships :
    Except GroupError (List GroupMembership) := do
  rejectIf (memberships.length > maxGroupMembers) .tooManyMembers
  forM memberships (canonicalGroupMembership group)
  let canonical := memberships.sortOn (·.sortKey)
  rejectIf (canonical.anyAdjacent (·.member = ·.member)) .duplicateMembership
  return canonical

-- Entries are addressed by member from here on: canonical lists hold one entry for each.
def activeMember (principal : PrincipalRef) :
    Option GroupMembership :=
  memberships.find? fun membership => membership.member = principal && membership.state = .active

def updateMember (principal : PrincipalRef)
    (f : GroupMembership → GroupMembership) : List GroupMembership :=
  memberships.updateKey (·.member) principal f

def GroupMembership.withRole (membership : GroupMembership) (role : GroupRole) : GroupMembership :=
  { membership with role := role, permissions := groupPermissionsForRole role }

def GroupMembership.removed (membership : GroupMembership) (revision : U64) : GroupMembership :=
  { membership with state := .removed, removedRevision := some revision }

def GroupMembership.rejoined (membership : GroupMembership) (role : GroupRole)
    (revision historyFloor : U64) : GroupMembership :=
  { membership.withRole role with
    state := .active
    joinedRevision := revision
    removedRevision := none
    historyFloorLogicalOrder := historyFloor }

def activeGroupActorRole (actorScope : TenantScope) (actor : PrincipalRef) :
    Except GroupError GroupRole := do
  let group ← canonicalGroupRecord group
  let memberships ← canonicalGroupMemberships group memberships
  rejectIf (actorScope ≠ group.scope) .scopeMismatch
  let entry ← (activeMember memberships actor).okOr .permissionDenied
  return entry.role

def GroupRole.isPrivileged : GroupRole → Bool
  | .owner | .admin => true
  | .member => false

def requireManageMembers (role : GroupRole) : Except GroupError Unit :=
  rejectIf (¬role.isPrivileged) .permissionDenied

def requireManageGroup (role : GroupRole) : Except GroupError Unit :=
  requireManageMembers role

def validateChangeBinding (actorScope : TenantScope) (change : GroupChange) :
    Except GroupError Unit := do
  rejectIf (actorScope ≠ group.scope ∨ change.scope ≠ group.scope) .scopeMismatch
  rejectIf (change.groupId ≠ group.groupId) .groupMismatch
  rejectIf (change.expectedRevision ≠ group.revision) .revisionMismatch

def advanceCryptoState (replacement : Option GroupCryptoState) :
    Except GroupError GroupRecord :=
  match group.cryptoState.capabilityId, replacement with
  | none, none => return group
  | none, some _ | some _, none => throw .invalidCryptoState
  | some currentCapability, some next => do
    validateCryptoState next
    let expectedEpoch ← group.cryptoState.epoch.checkedSucc.okOr .invalidCryptoState
    rejectIf (next.capabilityId ≠ some currentCapability ∨ next.epoch ≠ expectedEpoch ∨
      next.stateRef = group.cryptoState.stateRef) .invalidCryptoState
    return { group with cryptoState := next }

def GroupChangeKind.isSecuritySensitive : GroupChangeKind → Bool
  | .addMember .. | .removeMember .. | .changeRole .. | .transferOwnership .. => true
  | _ => false

def applyChangeCrypto (change : GroupChange) :
    Except GroupError GroupRecord :=
  if change.kind.isSecuritySensitive then
    advanceCryptoState group change.nextCryptoState
  else if change.nextCryptoState.isSome then
    throw .invalidCryptoState
  else
    return group

structure GroupChangeContext where
  actor : PrincipalRef
  actorRole : GroupRole
  nextRevision : U64
  historyFloor : Option U64

variable (actorRole : GroupRole)

def applyAddMember (member : PrincipalRef) (role : GroupRole) (nextRevision : U64)
    (historyFloor : Option U64) : Except GroupError (List GroupMembership) := do
  requireManageMembers actorRole
  rejectIf (role = .owner ∨ (role = .admin ∧ actorRole ≠ .owner)) .invalidRoleTransition
  let historyFloor ← historyFloor.okOr .invalidHistoryFloor
  match memberships.findKey (·.member) member with
  | some entry =>
    rejectIf (entry.state = .active) .memberAlreadyActive
    return updateMember memberships member (·.rejoined role nextRevision historyFloor)
  | none =>
    rejectIf (memberships.length ≥ maxGroupMembers) .tooManyMembers
    return memberships ++ [.joined group member role nextRevision historyFloor]

def applyRemoveMember (actor : PrincipalRef)
    (actorRole : GroupRole) (member : PrincipalRef) (nextRevision : U64) :
    Except GroupError (List GroupMembership) := do
  let target ← (memberships.findKey (·.member) member).okOr .memberNotActive
  rejectIf (target.state ≠ .active) .memberNotActive
  rejectIf (target.role = .owner) .wouldOrphanGroup
  rejectIf (member ≠ actor ∧ ¬actorRole.isPrivileged) .permissionDenied
  rejectIf (member ≠ actor ∧ target.role = .admin ∧ actorRole ≠ .owner) .permissionDenied
  return updateMember memberships member (·.removed nextRevision)

def applyRoleChange (member : PrincipalRef) (role : GroupRole) :
    Except GroupError (List GroupMembership) := do
  rejectIf (actorRole ≠ .owner ∨ role = .owner) .invalidRoleTransition
  let target ← (activeMember memberships member).okOr .memberNotActive
  rejectIf (target.role = .owner) .invalidRoleTransition
  return updateMember memberships member (·.withRole role)

def updateOwnership (ownership : GroupOwnership) (newOwner : PrincipalRef) :
    Except GroupError GroupOwnership :=
  match ownership with
  | .personOwned _ => do
    rejectIf (newOwner.kind ≠ .person) .invalidOwnership
    return .personOwned newOwner
  | .organizationOwned _ => do
    rejectIf (newOwner.kind ≠ .organization) .invalidOwnership
    return .organizationOwned newOwner
  | .temporary _ expiresAt => return .temporary (some newOwner) expiresAt
  | .sharedAdmin | .ownerlessFederated => throw .ownershipTransferNotSupported

def applyOwnershipTransfer (actor : PrincipalRef) (actorRole : GroupRole) (newOwner : PrincipalRef) :
    Except GroupError (GroupRecord × List GroupMembership) := do
  rejectIf (actorRole ≠ .owner) .permissionDenied
  let _target ← (activeMember memberships newOwner).okOr .memberNotActive
  rejectIf (newOwner = actor) .invalidRoleTransition
  let ownership ← updateOwnership group.ownership newOwner
  let memberships := updateMember memberships actor (·.withRole .admin)
  let memberships := updateMember memberships newOwner (·.withRole .owner)
  return ({ group with ownership := ownership }, memberships)

def applyHistoryPolicy (policy : GroupHistoryPolicy) : Except GroupError GroupRecord := do
  requireManageGroup actorRole
  validateHistoryPolicy policy
  return { group with historyPolicy := policy }

def applyPublicPolicy (policy : PublicGroupPolicy) :
    Except GroupError GroupRecord := do
  requireManageGroup actorRole
  rejectIf (group.conversation.kind ≠ .publicGroup) .invalidPublicPolicy
  return { group with publicPolicy := some policy }

def applyDeliveryPolicy (policy : DeliveryPolicy) :
    Except GroupError GroupRecord := do
  requireManageGroup actorRole
  return { group with deliveryPolicy := policy }

def applyAddBridgeMapping (mapping : GroupBridgeMapping) : Except GroupError GroupRecord := do
  requireManageGroup actorRole
  validateBridgeMapping mapping
  rejectIf (group.bridgeMappings.length ≥ maxGroupBridgeMappings) .invalidBridgeMapping
  rejectIf (group.bridgeMappings.any (·.integrationId = mapping.integrationId))
    .duplicateBridgeMapping
  return { group with bridgeMappings := group.bridgeMappings ++ [mapping] }

def applyRemoveBridgeMapping (integrationId : IntegrationId) (externalGroupId : Bytes) :
    Except GroupError GroupRecord := do
  requireManageGroup actorRole
  let mapping : GroupBridgeMapping := ⟨integrationId, externalGroupId⟩
  rejectIf (mapping ∉ group.bridgeMappings) .bridgeMappingNotFound
  return { group with bridgeMappings := group.bridgeMappings.erase mapping }

def applyChangeKind (change : GroupChange) (context : GroupChangeContext) :
    Except GroupError (GroupRecord × List GroupMembership) :=
  match change.kind with
  | .addMember member role =>
    return (group, ← applyAddMember group memberships context.actorRole member role
      context.nextRevision context.historyFloor)
  | .removeMember member =>
    return (group, ← applyRemoveMember memberships context.actor context.actorRole member
      context.nextRevision)
  | .changeRole member role =>
    return (group, ← applyRoleChange memberships context.actorRole member role)
  | .transferOwnership newOwner =>
    applyOwnershipTransfer group memberships context.actor context.actorRole newOwner
  | .setHistoryPolicy policy =>
    return (← applyHistoryPolicy group context.actorRole policy, memberships)
  | .setPublicPolicy policy =>
    return (← applyPublicPolicy group context.actorRole policy, memberships)
  | .setDeliveryPolicy policy =>
    return (← applyDeliveryPolicy group context.actorRole policy, memberships)
  | .addBridgeMapping mapping =>
    return (← applyAddBridgeMapping group context.actorRole mapping, memberships)
  | .removeBridgeMapping integrationId externalGroupId =>
    return (← applyRemoveBridgeMapping group context.actorRole integrationId externalGroupId,
      memberships)

def requireGroupAdminContinuity : Except GroupError Unit :=
  rejectIf (¬memberships.any fun membership =>
    membership.state = .active && membership.role.isPrivileged) .wouldOrphanGroup

def applyGroupChange (actorScope : TenantScope) (actor : PrincipalRef) (change : GroupChange)
    (addHistoryFloorLogicalOrder : Option U64) : Except GroupError GroupTransition := do
  let group ← canonicalGroupRecord group
  let memberships ← canonicalGroupMemberships group memberships
  validateChangeBinding group actorScope change
  let actorEntry ← (activeMember memberships actor).okOr .permissionDenied
  let nextRevision ← group.revision.checkedSucc.okOr .revisionMismatch
  let nextGeneration ← group.replicationGeneration.checkedSucc.okOr .revisionMismatch
  let group ← applyChangeCrypto group change
  let context : GroupChangeContext :=
    { actor := actor
      actorRole := actorEntry.role
      nextRevision := nextRevision
      historyFloor := addHistoryFloorLogicalOrder }
  let (group, memberships) ← applyChangeKind group memberships change context
  let group := { group with revision := nextRevision, replicationGeneration := nextGeneration }
  let memberships ← canonicalGroupMemberships group memberships
  requireGroupAdminContinuity memberships
  return { group := group, memberships := memberships }

namespace Group

-- Group encoders write lengths in eight bytes and a principal's kind behind its identifier.
def pushBytes (value : Bytes) : Bytes :=
  lengthPrefixed 8 value

def pushOption {α : Type} (push : α → Bytes) : Option α → Bytes
  | some value => 1 :: push value
  | none => [0]

def pushScope (scope : TenantScope) : Bytes :=
  pushBytes scope.tenantId.asWireBytes ++
    pushOption (fun namespaceId => pushBytes namespaceId.asWireBytes) scope.namespaceId

def pushPrincipal (principal : PrincipalRef) : Bytes :=
  pushBytes principal.principalId.asWireBytes ++ [.ofNat (principalKindCode principal.kind)]

def pushCryptoState (state : GroupCryptoState) : Bytes :=
  pushOption (fun capability => pushBytes (utf8 capability)) state.capabilityId ++
    beBytes 8 state.epoch ++ pushOption (fun ref => pushBytes ref.asWireBytes) state.stateRef

def pushHistoryPolicy : GroupHistoryPolicy → Bytes
  | .noHistory => [1]
  | .fromJoin => [2]
  | .lastNMessages count => 3 :: beBytes 4 count
  | .fromTimestamp timestamp => 4 :: beBytes 8 (timestamp % 2 ^ 64).toNat
  | .fullHistory => [5]
  | .customPolicy identifier => 6 :: pushBytes (utf8 identifier)

def pushPublicPolicy (policy : PublicGroupPolicy) : Bytes :=
  [match policy.joinPolicy with
    | .openToAll => 1
    | .approvalRequired => 2
    | .inviteOnly => 3,
   match policy.discovery with
    | .unlisted     => 1
    | .discoverable => 2,
   if policy.indexed then 1 else 0]

def roleCode : GroupRole → UInt8
  | .owner  => 1
  | .admin  => 2
  | .member => 3

def changeKindBytes : GroupChangeKind → Bytes
  | .addMember member role => 1 :: (pushPrincipal member ++ [roleCode role])
  | .removeMember member => 2 :: pushPrincipal member
  | .changeRole member role => 3 :: (pushPrincipal member ++ [roleCode role])
  | .transferOwnership newOwner => 4 :: pushPrincipal newOwner
  | .setHistoryPolicy policy => 5 :: pushHistoryPolicy policy
  | .setPublicPolicy policy => 6 :: pushPublicPolicy policy
  | .setDeliveryPolicy policy => [7, .ofNat (deliveryPolicyCode policy)]
  | .addBridgeMapping mapping =>
    8 :: (pushBytes mapping.integrationId.asWireBytes ++ pushBytes mapping.externalGroupId)
  | .removeBridgeMapping integrationId externalGroupId =>
    9 :: (pushBytes integrationId.asWireBytes ++ pushBytes externalGroupId)

def changeBytes (change : GroupChange) : Bytes :=
  pushBytes change.eventId.asWireBytes ++ pushScope change.scope ++
    pushBytes change.groupId.asWireBytes ++ beBytes 8 change.expectedRevision ++
    changeKindBytes change.kind ++ pushOption pushCryptoState change.nextCryptoState

end Group

def groupChangeFingerprint (change : GroupChange) : Digest :=
  sha256 (groupChangeFingerprintV1Domain ++ Group.changeBytes change)

end Ucr
