import Ucr.Store.GroupStore

-- Messages in the store: direct persistence, group messages and who may read them, and the pages
-- and replicas of offline and mesh synchronization.

namespace Ucr

open Except

def DeliveryState.isInitial : DeliveryState → Bool
  | .created | .persisted => true
  | _ => false

def membershipActiveAtGeneration (membership : GroupMembership) (generation : U64) : Bool :=
  membership.joinedRevision ≤ generation && membership.removedRevision.all (generation < ·)

def historyAllows (group : GroupRecord) (membership : GroupMembership) (message : MessageEnvelope) :
    Bool :=
  if message.logicalOrder < membership.historyFloorLogicalOrder then
    false
  else
    match group.historyPolicy with
    | .fromTimestamp _ | .customPolicy _ => false
    | .noHistory | .fromJoin | .lastNMessages _ | .fullHistory => true

def scopedDeviceId (principal : ScopedPrincipal) : StoreResult DeviceId := do
  rejectIf (principal.principal.kind ≠ .device) .permissionDenied
  return principal.principal.principalId

namespace MemoryState

variable (s : MemoryState)

def persistMessageInState (message : MessageEnvelope) :
    StoreResult (DurableRecordStatus × MemoryState) := do
  let canonical ← (canonicalMessage message).mapError fun _ => .invalidRecord
  rejectIf (¬canonical.deliveryState.isInitial) .invalidRecord
  let conversation ←
    (s.conversations.get (canonical.scope, canonical.conversation.conversationId)).okOr .invalidRecord
  rejectIf (conversation.conversation ≠ canonical.conversation) .conflict
  let key := (canonical.scope, canonical.messageId)
  let persisted := { canonical with deliveryState := .persisted }
  match ← storeOnce (s.messages.get key) persisted with
  | .duplicate => return (.duplicate, s)
  | .persisted => return (.persisted, { s with messages := s.messages.put key persisted })

def memberEntry (group : GroupRecord) (principal : PrincipalRef) :
    Option GroupMembership :=
  (s.groupMemberships.get (group.scope, group.groupId, principal)).filter (·.member = principal)

variable (subject : ScopedPrincipal)

-- What both ways of sending a message to a group check first.
def requireSender (canonical : MessageEnvelope) :
    StoreResult GroupRecord := do
  rejectIf (canonical.scope ≠ subject.scope ∨
    canonical.origin.principalId ≠ some subject.principal.principalId) .permissionDenied
  let group ← (s.groupOf canonical.scope canonical.conversation).okOr .permissionDenied
  rejectIf (canonical.deliveryPolicy ≠ group.deliveryPolicy) .invalidRecord
  let membership ← (s.memberEntry group subject.principal).okOr .permissionDenied
  rejectIf (membership.state ≠ .active ∨ .sendMessage ∉ membership.permissions) .permissionDenied
  return group

-- A message becomes a replica only if it could travel: unsigned messages stay local.
def exportMessage (sequence : U64) (replica : OfflineGroupMessageReplica) :
    MemoryState :=
  if (canonicalOfflineGroupMessageReplica replica).isOk then
    { s with
      offlineGroupNextSequence    := sequence
      offlineGroupMessageReplicas := s.offlineGroupMessageReplicas ++ [(sequence, replica)] }
  else
    s

def persistGroupMessage (message : MessageEnvelope) :
    StoreResult (DurableRecordStatus × MemoryState) := do
  let canonical ← (canonicalMessage message).mapError fun _ => .invalidRecord
  rejectIf (¬isGroupConversationKind canonical.conversation.kind ∨
    ¬canonical.deliveryState.isInitial) .invalidRecord
  let group ← s.requireSender subject canonical
  let replicaSequence ← s.checkedNextOfflineGroupSequence
  match ← s.persistMessageInState canonical with
  | (.duplicate, s) => return (.duplicate, s)
  | (.persisted, s) =>
    let replica : OfflineGroupMessageReplica :=
      { author := subject
        groupId := group.groupId
        groupGeneration := group.replicationGeneration
        message := { canonical with deliveryState := .persisted } }
    return (.persisted, s.exportMessage replicaSequence replica)

-- Orders start at one in an empty conversation.
def nextLogicalOrder (orders : List U64) : StoreResult U64 :=
  (orders.foldl max 0).checkedSucc.okOr .full

def persistGroupMessageWithNextLogicalOrder (message : MessageEnvelope) :
    StoreResult ((DurableRecordStatus × MessageEnvelope) × MemoryState) := do
  let canonical ← (canonicalMessage message).mapError fun _ => .invalidRecord
  rejectIf (canonical.logicalOrder ≠ 0 ∨ ¬isGroupConversationKind canonical.conversation.kind ∨
    ¬canonical.deliveryState.isInitial) .invalidRecord
  let group ← s.requireSender subject canonical
  let key := (canonical.scope, canonical.messageId)
  match s.messages.get key with
  | some existing =>
    let repeated := { canonical with
      logicalOrder := existing.logicalOrder, deliveryState := .persisted }
    rejectIf (repeated ≠ existing) .conflict
    return ((.duplicate, existing), s)
  | none =>
    let nextOrder ← nextLogicalOrder (s.messageOrders canonical.scope canonical.conversation)
    let canonical := { canonical with logicalOrder := nextOrder }
    let replicaSequence ← s.checkedNextOfflineGroupSequence
    let (status, s) ← s.persistMessageInState canonical
    let persisted ← (s.messages.get key).okOr .internal
    match status with
    | .duplicate => return ((.duplicate, persisted), s)
    | .persisted =>
      let replica : OfflineGroupMessageReplica :=
        { author := subject
          groupId := group.groupId
          groupGeneration := group.replicationGeneration
          message := persisted }
      return ((.persisted, persisted), s.exportMessage replicaSequence replica)

def groupMessage (scope : TenantScope)
    (messageId : MessageId) : StoreResult (Option MessageEnvelope) := do
  rejectIf (subject.scope ≠ scope) .permissionDenied
  return do
    let message ← s.messages.get (scope, messageId)
    guard (isGroupConversationKind message.conversation.kind)
    let group ← s.groupOf scope message.conversation
    let membership ←
      (s.groupMemberships.get (scope, group.groupId, subject.principal)).filter
        (·.member = subject.principal)
    guard (membership.state = .active ∧ .readHistory ∈ membership.permissions ∧
      historyAllows group membership message)
    return message

def activeEntry (group : GroupRecord) (principal : ScopedPrincipal) :
    Option GroupMembership :=
  (s.memberEntry group principal.principal).filter (·.state = .active)

def requireTwoActiveMembers (group : GroupRecord)
    (source recipient : ScopedPrincipal) : StoreResult GroupMembership := do
  let _source ← (s.activeEntry group source).okOr .permissionDenied
  (s.activeEntry group recipient).okOr .permissionDenied

-- The first items of a stream, and the sequence to go on from if there are more.
def pageOf {α : Type} (maxItems : ℕ) (eligible : List (U64 × α)) : List α × Option U64 :=
  let scanned := eligible.take (maxItems + 1)
  if scanned.length > maxItems then
    (scanned.dropLast.map Prod.snd, scanned.dropLast.getLast?.map Prod.fst)
  else
    (scanned.map Prod.snd, none)

def offlineGroupAfter (scope : TenantScope) (groupId : GroupId) (stream : OfflineGroupStreamKind)
    (cursor : Option OfflineGroupCursor) : StoreResult U64 :=
  match cursor with
  | none => return 0
  | some cursor =>
    (offlineGroupCursorSequence scope groupId stream cursor).mapError fun _ => .invalidRecord

variable (source recipient : ScopedPrincipal)

def offlineGroupMessagePage (scope : TenantScope) (groupId : GroupId)
    (cursor : Option OfflineGroupCursor) (maxItems : ℕ) :
    StoreResult OfflineGroupMessagePage := do
  (validateOfflineGroupPageSize maxItems).mapError fun _ => .invalidRecord
  rejectIf (source.scope ≠ scope ∨ recipient.scope ≠ scope) .permissionDenied
  let after ← offlineGroupAfter scope groupId .messages cursor
  let group ← (s.groups.get (scope, groupId)).okOr .invalidRecord
  let recipientMembership ← s.requireTwoActiveMembers group source recipient
  let (records, next) := pageOf maxItems <| s.offlineGroupMessageReplicas.filter fun entry =>
    entry.1 > after && entry.2.message.scope = scope && entry.2.groupId = groupId &&
      entry.2.author = source && historyAllows group recipientMembership entry.2.message
  return ⟨scope, groupId, records, next.map (offlineGroupCursor scope groupId .messages)⟩

def meshGroupAfter (scope : TenantScope) (groupId : GroupId) (cursor : Option MeshCursor) :
    StoreResult U64 :=
  match cursor with
  | none => return 0
  | some cursor => (meshGroupCursorSequence scope groupId cursor).mapError fun _ => .invalidRecord

-- A replica as it would be handed to the recipient's device, if it may be handed on at all.
def meshOffer (scope : TenantScope) (group : GroupRecord)
    (recipientMembership : GroupMembership) (sourceDevice recipientDevice : DeviceId)
    (replica : OfflineGroupMessageReplica) : Option MeshGroupMessageReplica :=
  let path := (s.meshGroupMessagePaths.get (scope, replica.message.messageId)).getD
    [replica.message.authorDevice.deviceId]
  let mesh : MeshGroupMessageReplica := { record := replica, forwardPath := path }
  if ¬historyAllows group recipientMembership replica.message ∨
      path.length ≥ maxMeshPathDevices ∨ recipientDevice ∈ path ∨
      ¬(canonicalMeshGroupMessageReplica mesh).isOk ∨ ¬(validateMeshSource mesh sourceDevice).isOk then
    none
  else
    some mesh

-- Unlike the offline page this one limits what is scanned, not what is handed out.
def meshGroupMessagePage (scope : TenantScope) (groupId : GroupId) (cursor : Option MeshCursor)
    (maxItems : ℕ) :
    StoreResult MeshGroupMessagePage := do
  (validateMeshGroupPageSize maxItems).mapError fun _ => .invalidRecord
  rejectIf (source.scope ≠ scope ∨ recipient.scope ≠ scope) .permissionDenied
  let sourceDevice ← scopedDeviceId source
  let recipientDevice ← scopedDeviceId recipient
  let after ← meshGroupAfter scope groupId cursor
  let group ← (s.groups.get (scope, groupId)).okOr .invalidRecord
  let recipientMembership ← s.requireTwoActiveMembers group source recipient
  let (scanned, next) := pageOf maxItems <| s.offlineGroupMessageReplicas.filter fun entry =>
    entry.1 > after && entry.2.message.scope = scope && entry.2.groupId = groupId
  let records := scanned.filterMap
    (s.meshOffer scope group recipientMembership sourceDevice recipientDevice)
  return ⟨scope, groupId, records, next.map (meshGroupCursor scope groupId)⟩

end MemoryState

end Ucr
