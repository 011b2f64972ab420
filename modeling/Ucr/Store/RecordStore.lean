import Ucr.Protocol.Bridge
import Ucr.Protocol.Message
import Ucr.Store.CallStore

-- Conversations, bridge registrations and the grants that admit devices to conferences.

namespace Ucr

open Except

namespace MemoryState

variable (s : MemoryState)

def persistConversation (conversation : ConversationRecord) :
    StoreResult (DurableRecordStatus × MemoryState) := do
  (validateConversation conversation).mapError fun _ => .invalidRecord
  let key := (conversation.scope, conversation.conversation.conversationId)
  forM conversation.parentConversationId.toList fun parentId => do
    let parent ← (s.conversations.get (conversation.scope, parentId)).okOr .invalidRecord
    (validateConversationParentKind conversation.conversation.kind
      parent.conversation.kind).mapError fun _ => .invalidRecord
  match ← storeOnce (s.conversations.get key) conversation with
  | .duplicate => return (.duplicate, s)
  | .persisted =>
    return (.persisted, { s with conversations := s.conversations.put key conversation })

def installBridgeRegistration (registration : BridgeRegistration) :
    StoreResult (DurableRecordStatus × MemoryState) := do
  let canonical ← (canonicalBridgeRegistration registration).mapError fun _ => .invalidRecord
  rejectIf (canonical.state ≠ .active ∨ canonical.generation ≠ 1) .invalidRecord
  let key := (canonical.scope, canonical.integrationId)
  match ← storeOnce (s.bridgeRegistrations.get key) canonical with
  | .duplicate => return (.duplicate, s)
  | .persisted =>
    return (.persisted, { s with bridgeRegistrations := s.bridgeRegistrations.put key canonical })

def transitionBridgeRegistration (scope : TenantScope)
    (integrationId : IntegrationId) (expectedGeneration : U64)
    (nextState : BridgeRegistrationState) :
    StoreResult (DurableRecordStatus × MemoryState) := do
  let key := (scope, integrationId)
  let current ← (s.bridgeRegistrations.get key).okOr .conflict
  let nextGeneration ← expectedGeneration.checkedSucc.okOr .invalidRecord
  if current.generation = nextGeneration ∧ current.state = nextState then
    return (.duplicate, s)
  rejectIf (current.generation ≠ expectedGeneration) .conflict
  (validateBridgeRegistrationTransition current.state nextState).mapError fun _ => .invalidRecord
  let next := { current with state := nextState, generation := nextGeneration }
  let _ ← (canonicalBridgeRegistration next).mapError fun _ => .invalidRecord
  return (.persisted, { s with bridgeRegistrations := s.bridgeRegistrations.put key next })

variable (grant : ConferenceJoinGrantRecord)

def validateMemoryJoinGrant : StoreResult Unit :=
  rejectIf (grant.issuedAtUnixMs < 0 ∨ grant.notBeforeUnixMs < grant.issuedAtUnixMs ∨
    grant.expiresAtUnixMs ≤ grant.notBeforeUnixMs ∨ grant.revoked ∨ grant.redeemed) .invalidRecord

-- Grants for the media of a direct call are only issued while that media call is running.
def requireFirstPartyMedia :
    StoreResult Unit := do
  if grant.integrationId.value ≠ firstPartyDirectMedia then
    return
  let media ← (s.calls.get (grant.scope, grant.callId)).okOr .permissionDenied
  let group ← (s.groups.get (grant.scope, grant.conferenceId)).okOr .permissionDenied
  rejectIf (media.conversation.kind ≠ .privateGroup ∨ media.signallingState = .terminated ∨
    media.conversation ≠ group.conversation) .permissionDenied

def persistConferenceJoinGrant :
    StoreResult (DurableRecordStatus × MemoryState) := do
  validateMemoryJoinGrant grant
  let key := (grant.scope, grant.sessionId)
  match ← storeOnce (s.conferenceJoinGrants.get key) grant with
  | .duplicate => return (.duplicate, s)
  | .persisted =>
    s.requireFirstPartyMedia grant
    return (.persisted, { s with conferenceJoinGrants := s.conferenceJoinGrants.put key grant })

def revokeConferenceJoinGrant (scope : TenantScope) (sessionId : SessionId) :
    StoreResult (ConferenceJoinGrantRecord × MemoryState) := do
  let grant ← (s.conferenceJoinGrants.get (scope, sessionId)).okOr .conflict
  let revoked := { grant with revoked := true }
  return (revoked, { s with
    conferenceJoinGrants := s.conferenceJoinGrants.put (scope, sessionId) revoked })

def redeemConferenceJoinGrant (scope : TenantScope) (sessionId : SessionId) :
    StoreResult (ConferenceJoinGrantRecord × MemoryState) := do
  let grant ← (s.conferenceJoinGrants.get (scope, sessionId)).okOr .conflict
  rejectIf grant.revoked .permissionDenied
  rejectIf (grant.usePolicy = .singleUse ∧ grant.redeemed) .conflict
  let redeemed := { grant with redeemed := true }
  return (redeemed, { s with
    conferenceJoinGrants := s.conferenceJoinGrants.put (scope, sessionId) redeemed })

def hiddenId : OpaqueId := ⟨"expired", by decide, by decide⟩

-- An expired grant keeps its session as a tombstone and loses everything about its holder.
def redactGrant : ConferenceJoinGrantRecord :=
  { grant with
    callId := hiddenId
    integrationId := hiddenId
    participant := ⟨hiddenId, .person⟩
    deviceId := hiddenId
    revoked := true
    redeemed := true }

def isExpiredGrant (nowUnixMs : ℤ) (key : ScopedId)
    (grant : ConferenceJoinGrantRecord) : Bool :=
  grant.expiresAtUnixMs ≤ nowUnixMs && key ∉ s.redactedJoinGrants

def pruneExpiredConferenceJoinGrants (nowUnixMs : ℤ) :
    StoreResult (ℕ × MemoryState) := do
  rejectIf (nowUnixMs < 0) .invalidRecord
  let expired := s.conferenceJoinGrants.entries.filter fun e =>
    s.isExpiredGrant nowUnixMs e.fst e.snd
  return (expired.length, { s with
    conferenceJoinGrants := s.conferenceJoinGrants.mapEntries fun key grant =>
      if s.isExpiredGrant nowUnixMs key grant then redactGrant grant else grant
    redactedJoinGrants := expired.map (·.fst) ++ s.redactedJoinGrants })

end MemoryState

end Ucr
