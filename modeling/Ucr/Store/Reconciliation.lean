import Ucr.Store.GroupMessageStore

-- Taking over group changes and group messages that another device has handed over.

namespace Ucr

open Except

namespace MemoryState

variable (s : MemoryState)

variable (recipient : ScopedPrincipal)

def reconcileOfflineGroupChange (record : OfflineGroupChangeReplica) :
    StoreResult (DurableRecordStatus × MemoryState) := do
  let record ← (canonicalOfflineGroupChangeReplica record).mapError fun _ => .invalidRecord
  rejectIf (recipient.scope ≠ record.change.scope) .permissionDenied
  let group ← (s.groups.get (record.change.scope, record.change.groupId)).okOr .invalidRecord
  let recipientMembership ← (s.activeEntry group recipient).okOr .permissionDenied
  rejectIf (.readHistory ∉ recipientMembership.permissions) .permissionDenied
  let expectedGeneration ← group.replicationGeneration.checkedSucc.okOr .full
  rejectIf (record.groupGeneration > expectedGeneration) .conflict
  s.applyGroupChangeInState record.actor record.change false

-- What both ways of receiving a group message check first.
def requireRecipient (record : OfflineGroupMessageReplica) : StoreResult Unit := do
  rejectIf (recipient.scope ≠ record.message.scope) .permissionDenied
  let group ← (s.groups.get (record.message.scope, record.groupId)).okOr .invalidRecord
  rejectIf (record.message.conversation ≠ group.conversation ∨
    record.message.deliveryPolicy ≠ group.deliveryPolicy ∨
    record.groupGeneration > group.replicationGeneration) .invalidRecord
  let recipientMembership ← ((s.activeEntry group recipient).filter fun membership =>
    .readHistory ∈ membership.permissions).okOr .permissionDenied
  rejectIf (¬historyAllows group recipientMembership record.message) .permissionDenied
  let authorMembership ← (s.memberEntry group record.author.principal).okOr .permissionDenied
  rejectIf (¬membershipActiveAtGeneration authorMembership record.groupGeneration) .permissionDenied

def reconcileOfflineGroupMessage (record : OfflineGroupMessageReplica) :
    StoreResult (DurableRecordStatus × MemoryState) := do
  let record ← (canonicalOfflineGroupMessageReplica record).mapError fun _ => .invalidRecord
  s.requireRecipient recipient record
  s.persistMessageInState record.message

-- The first half of a mesh reconciliation: checks and the message itself.
def receiveMeshGroupMessage (record : MeshGroupMessageReplica) :
    StoreResult ((DurableRecordStatus × MeshGroupMessageReplica) × MemoryState) := do
  let canonical ← (canonicalMeshGroupMessageReplica record).mapError fun _ => .invalidRecord
  let recipientDevice ← scopedDeviceId recipient
  let extended ← (appendMeshRecipient canonical recipientDevice).mapError fun _ => .invalidRecord
  s.requireRecipient recipient extended.record
  let message := extended.record.message
  match s.messages.get (message.scope, message.messageId) with
  | some existing =>
    rejectIf (existing ≠ message) .conflict
    return ((.duplicate, extended), s)
  | none =>
    let (status, s) ← s.persistMessageInState message
    return ((status, extended), s)

def hasMessageReplica (message : MessageEnvelope) : Bool :=
  s.offlineGroupMessageReplicas.any fun entry =>
    entry.2.message.scope = message.scope && entry.2.message.messageId = message.messageId

def relayMeshGroupMessage (status : DurableRecordStatus)
    (extended : MeshGroupMessageReplica) :
    StoreResult (DurableRecordStatus × MemoryState) := do
  let message := extended.record.message
  if s.hasMessageReplica message then
    return (status, s)
  let sequence ← s.checkedNextOfflineGroupSequence
  return (status, { s with
    offlineGroupNextSequence := sequence
    offlineGroupMessageReplicas := s.offlineGroupMessageReplicas ++ [(sequence, extended.record)]
    meshGroupMessagePaths :=
      s.meshGroupMessagePaths.put (message.scope, message.messageId) extended.forwardPath })

-- The message is kept even if no sequence is left to hand it on under.
def reconcileMeshGroupMessage (record : MeshGroupMessageReplica) :
    StoreResult DurableRecordStatus × MemoryState :=
  match s.receiveMeshGroupMessage recipient record with
  | .error e => (.error e, s)
  | .ok ((status, extended), s₁) => (s₁.relayMeshGroupMessage status extended).commit s₁

end MemoryState

end Ucr
