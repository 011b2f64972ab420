import Ucr.Protocol.Group
import Ucr.Protocol.Message

-- Group facts on their way between devices: replicas of changes and messages, the cursors that page
-- through them, and the device paths of the mesh.

namespace Ucr

open Except Encoding

def maxOfflineGroupPageItems : ℕ := 256
def maxMeshGroupPageItems : ℕ := 256
def maxMeshPathDevices : ℕ := 8
def cursorLen : ℕ := 24
def offlineGroupCursorDomain : Bytes := utf8 "UCR-OFFLINE-GROUP-CURSOR-V1\x00"
def meshGroupCursorDomain : Bytes := utf8 "UCR-MESH-GROUP-CURSOR-V1\x00"

inductive OfflineGroupError
  | invalidPageSize
  | invalidCursor
  | scopeMismatch
  | groupMismatch
  | invalidGeneration
  | invalidMessage
  | missingSignature
deriving DecidableEq

inductive MeshError
  | invalidPageSize
  | invalidCursor
  | invalidReplica
  | nonDeviceAuthor
  | emptyPath
  | pathTooLong
  | duplicateDevice
  | authorPathMismatch
  | sourcePathMismatch
  | recipientLoop
deriving DecidableEq

def validateOfflineGroupPageSize (maxItems : ℕ) : Except OfflineGroupError Unit :=
  rejectIf (maxItems = 0 ∨ maxItems > maxOfflineGroupPageItems) .invalidPageSize

def validateMeshGroupPageSize (maxItems : ℕ) : Except MeshError Unit :=
  rejectIf (maxItems = 0 ∨ maxItems > maxMeshGroupPageItems) .invalidPageSize

def canonicalOfflineGroupChangeReplica (record : OfflineGroupChangeReplica) :
    Except OfflineGroupError OfflineGroupChangeReplica := do
  rejectIf (record.actor.scope ≠ record.change.scope) .scopeMismatch
  rejectIf (record.groupGeneration = 0 ∨
    record.groupGeneration ≠ record.change.expectedRevision.saturatingSucc) .invalidGeneration
  return record

def canonicalOfflineGroupMessageReplica (record : OfflineGroupMessageReplica) :
    Except OfflineGroupError OfflineGroupMessageReplica := do
  let message ← (canonicalMessage record.message).mapError fun _ => .invalidMessage
  rejectIf (record.author.scope ≠ message.scope) .scopeMismatch
  rejectIf (¬isGroupConversationKind message.conversation.kind) .groupMismatch
  rejectIf (message.origin.principalId ≠ some record.author.principal.principalId) .invalidMessage
  rejectIf (message.deliveryState ≠ .persisted) .invalidMessage
  rejectIf message.signature.isNone .missingSignature
  return { record with message := message }

variable (replica : MeshGroupMessageReplica)

def canonicalMeshGroupMessageReplica :
    Except MeshError MeshGroupMessageReplica := do
  let record ← (canonicalOfflineGroupMessageReplica replica.record).mapError fun _ =>
    .invalidReplica
  rejectIf (record.author.principal.kind ≠ .device) .nonDeviceAuthor
  rejectIf (record.author.principal.principalId ≠ record.message.authorDevice.deviceId)
    .authorPathMismatch
  rejectIf replica.forwardPath.isEmpty .emptyPath
  rejectIf (replica.forwardPath.length > maxMeshPathDevices) .pathTooLong
  rejectIf (replica.forwardPath.head? ≠ some record.message.authorDevice.deviceId)
    .authorPathMismatch
  rejectIf (¬replica.forwardPath.Nodup) .duplicateDevice
  return { record := record, forwardPath := replica.forwardPath }

-- Only the device at the end of a path may hand the message on.
def validateMeshSource (sourceDeviceId : DeviceId) :
    Except MeshError Unit := do
  let canonical ← canonicalMeshGroupMessageReplica replica
  rejectIf (canonical.forwardPath.getLast? ≠ some sourceDeviceId) .sourcePathMismatch

def appendMeshRecipient (recipientDeviceId : DeviceId) :
    Except MeshError MeshGroupMessageReplica := do
  let canonical ← canonicalMeshGroupMessageReplica replica
  rejectIf (recipientDeviceId ∈ canonical.forwardPath) .recipientLoop
  rejectIf (canonical.forwardPath.length ≥ maxMeshPathDevices) .pathTooLong
  return { canonical with forwardPath := canonical.forwardPath ++ [recipientDeviceId] }

variable (scope : TenantScope)

variable (groupId : GroupId)

-- Cursors hash scope and group without lengths between them.
def cursorScopeBytes : Bytes :=
  scope.tenantId.asWireBytes ++
    (match scope.namespaceId with
      | some namespaceId => 1 :: namespaceId.asWireBytes
      | none => [0]) ++
    groupId.asWireBytes

def offlineGroupCursorBinding (stream : OfflineGroupStreamKind) : Bytes :=
  let streamCode : UInt8 := match stream with
    | .changes  => 1
    | .messages => 2
  (sha256 (offlineGroupCursorDomain ++ cursorScopeBytes scope groupId ++ [streamCode])).bytes.take 16

def meshGroupCursorBinding : Bytes :=
  (sha256 (meshGroupCursorDomain ++ cursorScopeBytes scope groupId)).bytes.take 16

def cursorToken (binding : Bytes) (sourceSequence : U64) : Bytes :=
  binding ++ beBytes 8 sourceSequence

-- The big-endian number a cursor ends in, if it was issued under this binding.
def cursorSequence (binding token : Bytes) : Option U64 :=
  if token.length ≠ cursorLen ∨ token.take 16 ≠ binding then
    none
  else
    some (.ofNat _ ((token.drop 16).foldl (fun n byte => n * 256 + byte.toNat) 0))

def offlineGroupCursor (stream : OfflineGroupStreamKind)
    (sourceSequence : U64) : OfflineGroupCursor :=
  ⟨cursorToken (offlineGroupCursorBinding scope groupId stream) sourceSequence⟩

def offlineGroupCursorSequence (stream : OfflineGroupStreamKind) (cursor : OfflineGroupCursor) :
    Except OfflineGroupError U64 :=
  (cursorSequence (offlineGroupCursorBinding scope groupId stream) cursor.token).okOr .invalidCursor

def meshGroupCursor (sourceSequence : U64) : MeshCursor :=
  ⟨cursorToken (meshGroupCursorBinding scope groupId) sourceSequence⟩

def meshGroupCursorSequence (cursor : MeshCursor) :
    Except MeshError U64 :=
  (cursorSequence (meshGroupCursorBinding scope groupId) cursor.token).okOr .invalidCursor

end Ucr
