import Ucr.Protocol.Replication
import Ucr.Store.CallStore

-- Groups in the store: creation, changes with their effect on the calls of the group, and the
-- history floor a joining member gets.

namespace Ucr

open Except

def mapGroupError : GroupError → DurableStoreError
  | .permissionDenied => .permissionDenied
  | .revisionMismatch | .memberAlreadyActive | .memberNotActive | .invalidRoleTransition
  | .ownershipTransferNotSupported | .wouldOrphanGroup => .conflict
  | .tooManyMembers => .full
  | _ => .invalidRecord

-- The lowest logical order a member that joins under the policy may read, given the orders of the
-- messages there are. A policy that counts messages asks for at least one.
def historyFloor (policy : GroupHistoryPolicy) (orders : List U64) :
    StoreResult U64 :=
  let orders := orders.sortOn id
  match policy with
  | .fullHistory | .fromTimestamp _ => return 0
  | .noHistory | .fromJoin => (orders.getLast?.getD 0).checkedSucc.okOr .invalidRecord
  | .lastNMessages count =>
    if orders.length ≤ count.val then
      return 0
    else
      let cutoff := orders.getD (orders.length - count.val) 0
      let visibleAtOrAbove := orders.countP (cutoff ≤ ·)
      if visibleAtOrAbove > count.val then
        cutoff.checkedSucc.okOr .invalidRecord
      else
        return cutoff
  | .customPolicy _ => return Fin.last _

namespace MemoryState

variable (s : MemoryState)

variable (scope : TenantScope)

def messageOrders (conversation : ConversationRef) :
    List U64 :=
  (s.messages.values.filter fun message =>
    message.scope = scope && message.conversation = conversation).map (·.logicalOrder)

variable (group : GroupRecord)

def historyFloorForAdd : StoreResult U64 :=
  historyFloor group.historyPolicy (s.messageOrders group.scope group.conversation)

def requireActiveBridge (mapping : GroupBridgeMapping) :
    StoreResult Unit := do
  let registration ← (s.bridgeRegistrations.get (scope, mapping.integrationId)).okOr .conflict
  rejectIf (registration.state ≠ .active) .conflict

def ensureInitialBridgeRegistrationsActive :
    StoreResult Unit :=
  forM group.bridgeMappings (s.requireActiveBridge group.scope)

def ensureBridgeMappingUniqueness (candidate : GroupRecord)
    (excludeGroupId : Option GroupId) : StoreResult Unit :=
  forM candidate.bridgeMappings fun mapping =>
    rejectIf (s.groups.values.any fun existing =>
      existing.scope = candidate.scope && excludeGroupId ≠ some existing.groupId &&
        mapping ∈ existing.bridgeMappings) .conflict

-- The checks of a group creation; on success it may already have stored the conversation.
def prepareGroup (conversation : ConversationRecord) (group : GroupRecord)
    (creator : ScopedPrincipal) :
    StoreResult (Option (GroupRecord × GroupMembership) × MemoryState) := do
  (validateConversation conversation).mapError fun _ => .invalidRecord
  rejectIf (conversation.parentConversationId.isSome ∨
    ¬isGroupConversationKind conversation.conversation.kind ∨ conversation.scope ≠ group.scope ∨
    conversation.conversation ≠ group.conversation) .invalidRecord
  let (group, creatorMembership) ←
    (canonicalGroupCreation group creator.scope creator.principal).mapError mapGroupError
  match s.groups.get (group.scope, group.groupId) with
  | some existing =>
    let existingCreator := s.groupMemberships.get (group.scope, group.groupId, creator.principal)
    -- The creator's floor depends on the messages there were at the time.
    let duplicate := existingCreator.any fun persisted =>
      existing = group && persisted = { creatorMembership with
        historyFloorLogicalOrder := persisted.historyFloorLogicalOrder }
    rejectIf (¬duplicate) .conflict
    return (none, s)
  | none =>
    rejectIf (s.groupOf group.scope group.conversation).isSome .conflict
    s.ensureInitialBridgeRegistrationsActive group
    s.ensureBridgeMappingUniqueness group none
    let key := (conversation.scope, conversation.conversation.conversationId)
    match ← storeOnce (s.conversations.get key) conversation with
    | .duplicate => return (some (group, creatorMembership), s)
    | .persisted =>
      return (some (group, creatorMembership),
        { s with conversations := s.conversations.put key conversation })

def insertGroup (creatorMembership : GroupMembership) :
    StoreResult (DurableRecordStatus × MemoryState) := do
  let floor ← s.historyFloorForAdd group
  return (.persisted, { s with
    groups := s.groups.put (group.scope, group.groupId) group
    groupMemberships := s.groupMemberships.put
      (group.scope, group.groupId, creatorMembership.member)
      { creatorMembership with historyFloorLogicalOrder := floor } })

-- If the floor cannot be computed the conversation stays behind.
def createGroup (conversation : ConversationRecord) (group : GroupRecord)
    (creator : ScopedPrincipal) : StoreResult DurableRecordStatus × MemoryState :=
  match s.prepareGroup conversation group creator with
  | .error e => (.error e, s)
  | .ok (none, s₁) => (.ok .duplicate, s₁)
  | .ok (some (group, creatorMembership), s₁) => (s₁.insertGroup group creatorMembership).commit s₁

def membersOf (groupId : GroupId) : List GroupMembership :=
  s.groupMemberships.values.filter fun membership =>
    membership.scope = scope && membership.groupId = groupId

def checkedNextOfflineGroupSequence : StoreResult U64 :=
  s.offlineGroupNextSequence.checkedSucc.okOr .full

def membershipKey (membership : GroupMembership) : TenantScope × GroupId × PrincipalRef :=
  (membership.scope, membership.groupId, membership.member)

def replaceMembers (groupId : GroupId)
    (memberships : List GroupMembership) :
    Table (TenantScope × GroupId × PrincipalRef) GroupMembership :=
  (s.groupMemberships.retain fun membership =>
      membership.scope ≠ scope || membership.groupId ≠ groupId).putAll
    (memberships.map fun membership => (membershipKey membership, membership))

def exportChange (actor : ScopedPrincipal) (change : GroupChange)
    (generation : U64) : Option U64 → MemoryState
  | none => s
  | some sequence => { s with
    offlineGroupNextSequence   := sequence
    offlineGroupChangeReplicas :=
      s.offlineGroupChangeReplicas ++ [(sequence, ⟨actor, generation, change⟩)] }

def requireActiveBridgeIfMapped (change : GroupChange) :
    StoreResult Unit :=
  match change.kind with
  | .addBridgeMapping mapping => s.requireActiveBridge change.scope mapping
  | _ => return

-- Only an added member needs a floor.
def historyFloorForChange (change : GroupChange) :
    StoreResult (Option U64) :=
  match change.kind with
  | .addMember .. => some <$> s.historyFloorForAdd group
  | _ => return none

def replicaSequence (exportReplica : Bool) :
    StoreResult (Option U64) :=
  if exportReplica then some <$> s.checkedNextOfflineGroupSequence else return none

def applyGroupChangeInState (actor : ScopedPrincipal) (change : GroupChange)
    (exportReplica : Bool) : StoreResult (DurableRecordStatus × MemoryState) := do
  rejectIf (actor.scope ≠ change.scope) .permissionDenied
  let fingerprint := groupChangeFingerprint change
  let changeKey := (change.scope, change.eventId)
  let group ← (s.groups.get (change.scope, change.groupId)).okOr .invalidRecord
  let memberships := s.membersOf change.scope change.groupId
  let _role ←
    (activeGroupActorRole group memberships actor.scope actor.principal).mapError mapGroupError
  match s.groupChanges.get changeKey with
  | some (recordedActor, existing) =>
    rejectIf (recordedActor ≠ actor.principal) .permissionDenied
    rejectIf (existing ≠ fingerprint) .conflict
    return (.duplicate, s)
  | none =>
    s.requireActiveBridgeIfMapped change
    let historyFloor ← s.historyFloorForChange group change
    let transition ← (applyGroupChange group memberships actor.scope actor.principal change
      historyFloor).mapError mapGroupError
    s.ensureBridgeMappingUniqueness transition.group (some group.groupId)
    rejectIf ((s.events.get changeKey).isSome ∨ (s.callSignals.get changeKey).isSome) .conflict
    let replicaSequence ← s.replicaSequence exportReplica
    let calls ← s.reconcileGroupCallsAfterMembershipChange transition.group transition.memberships
    let changed : MemoryState := { s with
      calls := calls
      groups := s.groups.put (change.scope, change.groupId) transition.group
      groupMemberships := s.replaceMembers change.scope change.groupId transition.memberships
      groupChanges := s.groupChanges.put changeKey (actor.principal, fingerprint) }
    return (.persisted, changed.exportChange actor change transition.group.replicationGeneration
      replicaSequence)

def applyGroupChange (actor : ScopedPrincipal) (change : GroupChange) :
    StoreResult (DurableRecordStatus × MemoryState) :=
  s.applyGroupChangeInState actor change true

end MemoryState

end Ucr
