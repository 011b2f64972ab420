import Ucr.Protocol.Conference
import Ucr.Store.RecordingStore

-- Conference profiles in the store, with the events that tell when a conference starts and ends,
-- and the participants of the conferences.

namespace Ucr

open Except

def maxExternalConferenceIdLen : ℕ := 512
def maxCreateIdempotencyKeyLen : ℕ := 256
def maxExternalUserIdLen : ℕ := 512
def maxUniversalConferenceParticipants : ℕ := 1024

def conferenceLifecycleEventType : UniversalConferenceLifecycle → Option String
  | .live => some "ucr.conference.started"
  | .ended => some "ucr.conference.ended"
  | .scheduled | .waiting | .ending => none

def validateConferenceLifecycleEvent (current : UniversalConferenceProfile) (expectedRevision : U64)
    (lifecycle : UniversalConferenceLifecycle) (event : Option EventEnvelope) :
    StoreResult Unit :=
  match conferenceLifecycleEventType lifecycle, event with
  | none, none => return
  | some expectedType, some event => do
    rejectIf (¬(event.scope = current.scope ∧ event.eventType = expectedType ∧
      event.logicalOrder = expectedRevision.saturatingSucc ∧ event.actor.kind = .system ∧
      event.actor.onBehalfOf = some current.integrationId)) .invalidRecord
    let _ ← (canonicalEvent event).mapError fun _ => .invalidRecord
  | _, _ => throw .invalidRecord

namespace MemoryState

variable (s : MemoryState)

variable (scope : TenantScope)

def ensureIntegrationConferenceQuota (integrationId : IntegrationId) : StoreResult Unit :=
  match (s.serviceResourceQuotaPolicies.get (scope, integrationId)).bind
    (·.maxConcurrentConferences) with
  | none => return
  | some limit =>
    let active := s.universalConferences.values.countP fun existing =>
      existing.scope = scope && existing.integrationId = integrationId &&
        conferenceConsumesResourceQuota existing.lifecycle
    rejectIf (active ≥ limit.val) .full

-- A conference found by one of its indexes is the one being created, or another one.
def sameConference (profile : UniversalConferenceProfile) (key : ScopedId) :
    StoreResult DurableRecordStatus :=
  if s.universalConferences.get key = some profile then return .duplicate else throw .conflict

def persistUniversalConferenceProfile (profile : UniversalConferenceProfile) :
    StoreResult (DurableRecordStatus × MemoryState) := do
  let metadata ← (canonicalConferenceMetadata profile.metadata).mapError fun _ => .invalidRecord
  let profile := { profile with metadata := metadata }
  rejectIf (profile.externalConferenceId.isEmpty ∨
    profile.externalConferenceId.length > maxExternalConferenceIdLen ∨
    profile.createIdempotencyKey.isEmpty ∨
    profile.createIdempotencyKey.utf8ByteSize > maxCreateIdempotencyKeyLen ∨
    profile.revision ≠ 1) .invalidRecord
  let key := (profile.scope, profile.conferenceId)
  let externalKey := (profile.scope, profile.integrationId, profile.externalConferenceId)
  let idempotencyKey := (profile.scope, profile.integrationId, profile.createIdempotencyKey)
  let existing := ((s.universalConferences.get key).map fun _ => key)
    <|> s.universalConferenceExternal.get externalKey
    <|> s.universalConferenceIdempotency.get idempotencyKey
  match existing with
  | some existingKey => return (← s.sameConference profile existingKey, s)
  | none =>
    if conferenceConsumesResourceQuota profile.lifecycle then
      s.ensureIntegrationConferenceQuota profile.scope profile.integrationId
    return (.persisted, { s with
      universalConferenceExternal := s.universalConferenceExternal.put externalKey key
      universalConferenceIdempotency := s.universalConferenceIdempotency.put idempotencyKey key
      universalConferences := s.universalConferences.put key profile })

-- A change is written before it turns out that the revision cannot grow, and stays written then.
def editConference (key : ScopedId) (edited : UniversalConferenceProfile) :
    StoreResult UniversalConferenceProfile × MemoryState :=
  match edited.revision.checkedSucc with
  | none => (.error .invalidRecord, { s with
      universalConferences := s.universalConferences.put key edited })
  | some revision =>
    let next := { edited with revision := revision }
    (.ok next, { s with universalConferences := s.universalConferences.put key next })

def conferenceAndMetadata (key : ScopedId)
    (metadata : List UniversalConferenceMetadataEntry) :
    StoreResult
      (UniversalConferenceProfile × List UniversalConferenceMetadataEntry) := do
  let metadata ← (canonicalConferenceMetadata metadata).mapError fun _ => .invalidRecord
  let current ← (s.universalConferences.get key).okOr .conflict
  return (current, metadata)

def replaceUniversalConferenceMetadata (conferenceId : GroupId) (expectedRevision : U64)
    (metadata : List UniversalConferenceMetadataEntry) :
    StoreResult UniversalConferenceProfile × MemoryState :=
  let key := (scope, conferenceId)
  match s.conferenceAndMetadata key metadata with
  | .error e => (.error e, s)
  | .ok (current, metadata) =>
    if current.revision = expectedRevision.saturatingSucc ∧ current.metadata = metadata then
      (.ok current, s)
    else if current.revision ≠ expectedRevision then
      (.error .conflict, s)
    else
      s.editConference key { current with metadata := metadata }

variable (current : UniversalConferenceProfile)

def ensureQuotaForTransition (scope : TenantScope) (lifecycle : UniversalConferenceLifecycle) :
    StoreResult Unit :=
  if ¬conferenceConsumesResourceQuota current.lifecycle ∧
      conferenceConsumesResourceQuota lifecycle then
    s.ensureIntegrationConferenceQuota scope current.integrationId
  else
    return

def checkConferenceTransition (scope : TenantScope) (expectedRevision : U64)
    (lifecycle : UniversalConferenceLifecycle)
    (entryOpen : Bool) : StoreResult Unit := do
  let lifecycleChangeAllowed :=
    current.lifecycle = lifecycle ∧ current.entryOpen ≠ entryOpen ∨
      validUniversalConferenceTransition current.lifecycle lifecycle
  rejectIf (current.revision ≠ expectedRevision ∨ ¬lifecycleChangeAllowed) .conflict
  s.ensureQuotaForTransition current scope lifecycle

-- The transition has been made already, by the call that is being repeated.
def transitionApplied (expectedRevision : U64)
    (lifecycle : UniversalConferenceLifecycle) (entryOpen : Bool) : Bool :=
  current.revision = expectedRevision.saturatingSucc && current.lifecycle = lifecycle &&
    current.entryOpen = entryOpen

def transitionUniversalConference (conferenceId : GroupId)
    (expectedRevision : U64) (lifecycle : UniversalConferenceLifecycle) (entryOpen : Bool) :
    StoreResult UniversalConferenceProfile × MemoryState :=
  let key := (scope, conferenceId)
  match s.universalConferences.get key with
  | none => (.error .conflict, s)
  | some current =>
    if transitionApplied current expectedRevision lifecycle entryOpen then
      (.ok current, s)
    else
      match s.checkConferenceTransition current scope expectedRevision lifecycle entryOpen with
      | .error e => (.error e, s)
      | .ok ()   =>
        s.editConference key { current with lifecycle := lifecycle, entryOpen := entryOpen }

-- The revision after a transition that has an event; such a transition changes the lifecycle.
def nextConferenceRevision (scope : TenantScope) (expectedRevision : U64)
    (lifecycle : UniversalConferenceLifecycle)
    (event : Option EventEnvelope) : StoreResult U64 := do
  rejectIf (current.revision ≠ expectedRevision ∨
    ¬validUniversalConferenceTransition current.lifecycle lifecycle) .conflict
  s.ensureQuotaForTransition current scope lifecycle
  let nextRevision ← expectedRevision.checkedSucc.okOr .invalidRecord
  rejectIf (event.any (·.logicalOrder ≠ nextRevision)) .invalidRecord
  return nextRevision

-- The profile is written first and put back if its event is refused. A repeated call still appends
-- the event.
def transitionUniversalConferenceWithEvent (conferenceId : GroupId) (expectedRevision : U64)
    (lifecycle : UniversalConferenceLifecycle)
    (entryOpen : Bool) (event : Option EventEnvelope) :
    StoreResult UniversalConferenceProfile × MemoryState :=
  let key := (scope, conferenceId)
  match s.universalConferences.get key with
  | none => (.error .conflict, s)
  | some current =>
    match validateConferenceLifecycleEvent current expectedRevision lifecycle event with
    | .error e => (.error e, s)
    | .ok ()   =>
      if transitionApplied current expectedRevision lifecycle entryOpen then
        match s.appendOptionalEvent event with
        | .error e => (.error e, s)
        | .ok s'   => (.ok current, s')
      else
        match s.nextConferenceRevision current scope expectedRevision lifecycle event with
        | .error e     => (.error e, s)
        | .ok revision =>
          let next := { current with
            lifecycle := lifecycle, entryOpen := entryOpen, revision := revision }
          let written := { s with universalConferences := s.universalConferences.put key next }
          match written.appendOptionalEvent event with
          | .ok s'   => (.ok next, s')
          | .error e => (.error e, { written with
              universalConferences := written.universalConferences.put key current })

def ensureIntegrationParticipantQuota (integrationId : IntegrationId) : StoreResult Unit :=
  match s.serviceResourceQuotaPolicies.get (scope, integrationId) with
  | none => return
  | some policy =>
    let active := s.universalConferenceParticipants.values.countP fun existing =>
      existing.scope = scope && existing.integrationId = integrationId && existing.active
    rejectIf (active ≥ policy.maxConcurrentParticipants.val) .full

def hasConflictingActiveConferenceOwner (conferenceId : GroupId) (participant : PrincipalRef) : Bool :=
  s.universalConferenceParticipants.values.any fun existing =>
    existing.scope = scope && existing.conferenceId = conferenceId && existing.active &&
      existing.role = .owner && existing.participant ≠ participant

-- There is room for one more participant, in the conference and for the integration.
def ensureParticipantRoom (conferenceId : GroupId)
    (integrationId : IntegrationId) : StoreResult Unit := do
  let active := s.universalConferenceParticipants.values.countP fun existing =>
    existing.scope = scope && existing.conferenceId = conferenceId && existing.active
  rejectIf (active ≥ maxUniversalConferenceParticipants) .full
  s.ensureIntegrationParticipantQuota scope integrationId

def persistUniversalConferenceParticipant (participant : UniversalConferenceParticipantProfile) :
    StoreResult (DurableRecordStatus × MemoryState) := do
  rejectIf (participant.externalUserId.isEmpty ∨
    participant.externalUserId.length > maxExternalUserIdLen ∨ participant.revision ≠ 1) .invalidRecord
  let conferenceKey := (participant.scope, participant.conferenceId)
  let key := (conferenceKey, participant.participant)
  rejectIf (s.universalConferences.get conferenceKey = none) .invalidRecord
  let existing := s.universalConferenceParticipants.get key <|>
    s.universalConferenceParticipants.values.find? fun existing =>
      existing.scope = participant.scope && existing.conferenceId = participant.conferenceId &&
        existing.integrationId = participant.integrationId &&
        existing.externalUserId = participant.externalUserId
  match existing with
  | some existing =>
    rejectIf (existing ≠ participant) .conflict
    return (.duplicate, s)
  | none =>
    if participant.active then
      s.ensureParticipantRoom participant.scope participant.conferenceId participant.integrationId
    rejectIf (participant.active ∧ participant.role = .owner ∧ s.hasConflictingActiveConferenceOwner
      participant.scope participant.conferenceId participant.participant) .conflict
    return (.persisted, { s with
      universalConferenceParticipants := s.universalConferenceParticipants.put key participant })

-- Two participants for one external user would mean that the store is damaged.
def universalConferenceParticipantForExternal (conferenceId : GroupId)
    (integrationId : IntegrationId) (externalUserId : Bytes) :
    StoreResult (Option UniversalConferenceParticipantProfile) := do
  rejectIf (externalUserId.isEmpty ∨ externalUserId.length > maxExternalUserIdLen) .invalidRecord
  let matching := s.universalConferenceParticipants.values.filter fun profile =>
    profile.scope = scope && profile.conferenceId = conferenceId &&
      profile.integrationId = integrationId && profile.externalUserId = externalUserId
  rejectIf (1 < matching.length) .corrupt
  return matching.head?

-- The checks come before the question whether the update is a repeated one.
def checkParticipantUpdate (conferenceId : GroupId)
    (participant : PrincipalRef) (policy : ConferenceParticipantPolicy) :
    StoreResult UniversalConferenceParticipantProfile := do
  let current ←
    (s.universalConferenceParticipants.get ((scope, conferenceId), participant)).okOr .conflict
  if policy.active ∧ ¬current.active then
    s.ensureParticipantRoom scope conferenceId current.integrationId
  rejectIf (policy.active ∧ policy.role = .owner ∧
    s.hasConflictingActiveConferenceOwner scope conferenceId participant) .conflict
  return current

-- The new policy stays written also if the revision cannot grow.
def updateUniversalConferenceParticipant (conferenceId : GroupId) (participant : PrincipalRef)
    (expectedRevision : U64)
    (policy : ConferenceParticipantPolicy) :
    StoreResult UniversalConferenceParticipantProfile × MemoryState :=
  let key := ((scope, conferenceId), participant)
  match s.checkParticipantUpdate scope conferenceId participant policy with
  | .error e    => (.error e, s)
  | .ok current =>
    if current.revision = expectedRevision.saturatingSucc ∧
        current.toConferenceParticipantPolicy = policy then
      (.ok current, s)
    else if current.revision ≠ expectedRevision then
      (.error .conflict, s)
    else
      let edited := { current with toConferenceParticipantPolicy := policy }
      match edited.revision.checkedSucc with
      | none => (.error .invalidRecord, { s with
          universalConferenceParticipants := s.universalConferenceParticipants.put key edited })
      | some revision =>
        let next := { edited with revision := revision }
        (.ok next, { s with
          universalConferenceParticipants := s.universalConferenceParticipants.put key next })

end MemoryState

inductive ConferenceOp
  | persistUniversalConferenceProfile (profile : UniversalConferenceProfile)
  | replaceUniversalConferenceMetadata (scope : TenantScope) (conferenceId : GroupId)
      (expectedRevision : U64) (metadata : List UniversalConferenceMetadataEntry)
  | transitionUniversalConference (scope : TenantScope) (conferenceId : GroupId)
      (expectedRevision : U64) (lifecycle : UniversalConferenceLifecycle) (entryOpen : Bool)
  | transitionUniversalConferenceWithEvent (scope : TenantScope) (conferenceId : GroupId)
      (expectedRevision : U64) (lifecycle : UniversalConferenceLifecycle) (entryOpen : Bool)
      (event : Option EventEnvelope)
  | persistUniversalConferenceParticipant (participant : UniversalConferenceParticipantProfile)
  | updateUniversalConferenceParticipant (scope : TenantScope) (conferenceId : GroupId)
      (participant : PrincipalRef) (expectedRevision : U64) (policy : ConferenceParticipantPolicy)

def ConferenceOp.run (s : MemoryState) : ConferenceOp → MemoryState
  | .persistUniversalConferenceProfile profile =>
    ((s.persistUniversalConferenceProfile profile).commit s).2
  | .replaceUniversalConferenceMetadata scope conferenceId expectedRevision metadata =>
    (s.replaceUniversalConferenceMetadata scope conferenceId expectedRevision metadata).2
  | .transitionUniversalConference scope conferenceId expectedRevision lifecycle entryOpen =>
    (s.transitionUniversalConference scope conferenceId expectedRevision lifecycle entryOpen).2
  | .transitionUniversalConferenceWithEvent scope conferenceId expectedRevision lifecycle entryOpen
      event =>
    (s.transitionUniversalConferenceWithEvent scope conferenceId expectedRevision lifecycle
      entryOpen event).2
  | .persistUniversalConferenceParticipant participant =>
    ((s.persistUniversalConferenceParticipant participant).commit s).2
  | .updateUniversalConferenceParticipant scope conferenceId participant expectedRevision policy =>
    (s.updateUniversalConferenceParticipant scope conferenceId participant expectedRevision policy).2

end Ucr
