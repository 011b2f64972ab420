import Ucr.Protocol.Call
import Ucr.Store.State

-- Calls in the store: creation, signals, hang-up of a direct call with its media call, and the
-- projection of group membership into the calls of the group.

namespace Ucr

open Except

def firstPartyDirectMedia : String := "ucr-first-party-direct-media"

def mapCallError : CallSignallingError → DurableStoreError
  | .permissionDenied => .permissionDenied
  | .revisionMismatch | .invalidTransition | .participantAlreadyExists
  | .wouldRemoveInitiator => .conflict
  | .tooManyParticipants => .full
  | _ => .invalidRecord

namespace MemoryState

variable (s : MemoryState)

def groupOf (scope : TenantScope) (conversation : ConversationRef) :
    Option GroupRecord :=
  s.groups.values.find? fun group => group.scope = scope && group.conversation = conversation

def hasActiveMember (scope : TenantScope) (groupId : GroupId)
    (principal : PrincipalRef) : Bool :=
  s.groupMemberships.values.any fun membership =>
    membership.scope = scope && membership.groupId = groupId && membership.member = principal &&
      membership.state = .active

def validatedCallFromState (scope : TenantScope) (callId : CallId) :
    StoreResult (Option CallSession) :=
  match s.calls.get (scope, callId) with
  | none => do
    rejectIf (s.callCreationFingerprints.get (scope, callId)).isSome .corrupt
    return none
  | some session => do
    let canonical ← (canonicalCallSession session).mapError mapCallError
    let recorded ← (s.callCreationFingerprints.get (scope, callId)).okOr .corrupt
    let derived ← (callCreationFingerprint canonical).mapError mapCallError
    rejectIf (recorded ≠ derived) .corrupt
    return some canonical

def requireGroupParticipantsIfNeeded (session : CallSession) :
    StoreResult Unit := do
  if ¬isGroupConversationKind session.conversation.kind then
    return
  let group ← (s.groupOf session.scope session.conversation).okOr .permissionDenied
  rejectIf (¬session.participants.all fun participant =>
    s.hasActiveMember session.scope group.groupId participant.principal) .permissionDenied

def groupActorCurrentIfNeeded (session : CallSession) (actor : PrincipalRef) :
    Bool :=
  if ¬isGroupConversationKind session.conversation.kind then
    true
  else
    (s.groupOf session.scope session.conversation).any fun group =>
      s.hasActiveMember session.scope group.groupId actor

def requireGroupSignalTargetIfNeeded (session : CallSession)
    (signal : CallSignal) : StoreResult Unit :=
  match signal.kind with
  | .participantUpdate participant .add => do
    if ¬isGroupConversationKind session.conversation.kind then
      return
    let group ← (s.groupOf session.scope session.conversation).okOr .permissionDenied
    rejectIf (¬s.hasActiveMember session.scope group.groupId participant) .permissionDenied
  | _ => return

variable (creator : ScopedPrincipal)

-- A media call may only be created while the direct call it belongs to is running.
def requireParentCurrent (session : CallSession)
    (parent : CallSession) : StoreResult Unit := do
  rejectIf (parent.scope ≠ session.scope ∨ parent.callId = session.callId ∨
    parent.initiatedBy ≠ creator.principal ∨ session.initiatedBy ≠ parent.initiatedBy ∨
    session.participants.length ≠ 2 ∨
    (¬session.participants.all fun participant =>
      parent.participants.any fun member => member.principal = participant.principal) ∨
    parent.conversation.kind ≠ .direct ∨ parent.signallingState ≠ .active ∨
    parent.participants.length ≠ 2 ∨
    ¬parent.participants.all fun participant =>
      participant.state = .accepted && participant.leftRevision.isNone) .permissionDenied
  let current ← s.validatedCallFromState parent.scope parent.callId
  rejectIf (current ≠ some parent) .permissionDenied

def createCallWithParentGuard (session : CallSession)
    (parent : Option CallSession) :
    StoreResult (DurableRecordStatus × MemoryState) := do
  let session ← (canonicalCallCreation session creator.scope creator.principal).mapError mapCallError
  let creationFingerprint ← (callCreationFingerprint session).mapError mapCallError
  let key := (session.scope, session.callId)
  forM parent.toList (s.requireParentCurrent creator session)
  let conversation ←
    (s.conversations.get (session.scope, session.conversation.conversationId)).okOr .invalidRecord
  rejectIf (conversation.conversation ≠ session.conversation) .invalidRecord
  match ← s.validatedCallFromState session.scope session.callId with
  | some existing =>
    rejectIf (¬s.groupActorCurrentIfNeeded existing creator.principal) .permissionDenied
    let recorded ← (s.callCreationFingerprints.get key).okOr .corrupt
    rejectIf (¬(recorded = creationFingerprint ∧ creator.principal = existing.initiatedBy)) .conflict
    return (.duplicate, s)
  | none =>
    s.requireGroupParticipantsIfNeeded session
    return (.persisted, { s with
      callCreationFingerprints := s.callCreationFingerprints.put key creationFingerprint
      calls := s.calls.put key session })

def createCall (session : CallSession) :
    StoreResult (DurableRecordStatus × MemoryState) :=
  s.createCallWithParentGuard creator session none

def createCallIfParentCurrent (session parent : CallSession) :
    StoreResult (DurableRecordStatus × MemoryState) :=
  s.createCallWithParentGuard creator session (some parent)

end MemoryState

def CallSignalKind.isTerminate : CallSignalKind → Bool
  | .terminate _ => true
  | _ => false

-- Whether a repeated signal may be answered to this actor.
def duplicateActorAllowed (session : CallSession) (actor : PrincipalRef) (appliedRevision : U64) :
    Bool :=
  match session.participant actor with
  | none => false
  | some participant =>
    if session.signallingState = .terminated then
      session.revision = appliedRevision
    else if activeCallParticipant session actor then
      true
    else
      match participant.state with
      | .rejected | .busy =>
        participant.leftRevision.isNone && session.revision ≥ appliedRevision
      | .left => participant.leftRevision = some appliedRevision
      | .invited | .ringing | .accepted => false

namespace MemoryState

variable (s : MemoryState)

def recordSignal (actor : PrincipalRef) (signal : CallSignal)
    (next : CallSession) : MemoryState :=
  { s with
    calls := s.calls.put (signal.scope, signal.callId) next
    callSignals := s.callSignals.put (signal.scope, signal.eventId)
      (actor, callSignalFingerprint signal, next.revision) }

variable (actor : ScopedPrincipal)

def applyCallSignalInState (signal : CallSignal) :
    StoreResult (DurableRecordStatus × MemoryState) := do
  rejectIf (actor.scope ≠ signal.scope) .permissionDenied
  let fingerprint := callSignalFingerprint signal
  let eventKey := (signal.scope, signal.eventId)
  let current ← (← s.validatedCallFromState signal.scope signal.callId).okOr .invalidRecord
  rejectIf (¬s.groupActorCurrentIfNeeded current actor.principal) .permissionDenied
  match s.callSignals.get eventKey with
  | some (recordedActor, existing, appliedRevision) =>
    rejectIf (recordedActor ≠ actor.principal ∨
      ¬duplicateActorAllowed current actor.principal appliedRevision) .permissionDenied
    rejectIf (existing ≠ fingerprint) .conflict
    return (.duplicate, s)
  | none =>
    rejectIf (¬activeCallParticipant current actor.principal) .permissionDenied
    s.requireGroupSignalTargetIfNeeded current signal
    let next ← (applyCallSignal current actor.scope actor.principal signal).mapError mapCallError
    -- Events, group changes and call signals share one space of event identifiers.
    rejectIf ((s.events.get eventKey).isSome ∨ (s.groupChanges.get eventKey).isSome) .conflict
    return (.persisted, s.recordSignal actor.principal signal next)

def callForParticipant (subject : ScopedPrincipal) (scope : TenantScope)
    (callId : CallId) : StoreResult (Option CallSession) := do
  rejectIf (subject.scope ≠ scope) .permissionDenied
  match ← s.validatedCallFromState scope callId with
  | none => return none
  | some session =>
    if ¬activeCallParticipant session subject.principal ∨
        ¬s.groupActorCurrentIfNeeded session subject.principal then
      return none
    return some session

def isFirstPartyDerivedJoin (scope : TenantScope) (callId : CallId)
    (grant : ConferenceJoinGrantRecord) : Bool :=
  grant.scope = scope && grant.callId = callId && grant.integrationId.value = firstPartyDirectMedia

def revokeFirstPartyDerivedJoins (scope : TenantScope) (derivedCallId : CallId) :
    MemoryState :=
  { s with conferenceJoinGrants := s.conferenceJoinGrants.mapEntries fun _ grant =>
      if isFirstPartyDerivedJoin scope derivedCallId grant then
        { grant with revoked := true }
      else
        grant }

-- The signal that ends a media call in the given state.
def derivedTermination : CallSignallingState → Option CallSignalKind
  | .terminated => none
  | .inviting | .ringing => some .cancel
  | .active | .reconnecting => some (.terminate .completed)

def derivedSignal (scope : TenantScope) (callId : CallId) (eventId : EventId) (revision : U64)
    (kind : CallSignalKind) : CallSignal where
  eventId := eventId
  scope := scope
  callId := callId
  expectedRevision := revision
  kind := kind

def terminateDerived (direct : CallSession) (derivedCallId : CallId)
    (derivedEventId : EventId) : StoreResult MemoryState := do
  match ← s.validatedCallFromState direct.scope derivedCallId with
  | none => return s
  | some media =>
    rejectIf (media.scope ≠ direct.scope ∨ media.conversation.kind ≠ .privateGroup ∨
      media.initiatedBy ≠ direct.initiatedBy ∨
      media.participants.length ≠ direct.participants.length ∨
      ¬media.participants.all fun member =>
        direct.participants.any fun p => p.principal = member.principal) .permissionDenied
    match derivedTermination media.signallingState with
    | none => return s
    | some kind =>
      let mediaActor : ScopedPrincipal := ⟨direct.scope, direct.initiatedBy⟩
      let mediaSignal :=
        derivedSignal direct.scope derivedCallId derivedEventId media.revision kind
      let (_, s) ← s.applyCallSignalInState mediaActor mediaSignal
      return s

-- Both transitions of a hang-up. A failure of the second leaves the first one written.
def hangUp (directSignal : CallSignal)
    (direct : CallSession) (derivedCallId : CallId) (derivedEventId : EventId) :
    StoreResult DurableRecordStatus × MemoryState :=
  match s.applyCallSignalInState actor directSignal with
  | .error e => (.error e, s)
  | .ok (.duplicate, s₁) => (.ok .duplicate, s₁)
  | .ok (.persisted, s₁) =>
    match s₁.terminateDerived direct derivedCallId derivedEventId with
    | .error e => (.error e, s₁)
    | .ok s₂   => (.ok .persisted, s₂)

def restoreCall (before : MemoryState) (calls : Table ScopedId CallSession) (key : ScopedId) :
    Table ScopedId CallSession :=
  match before.calls.get key with
  | some call => calls.put key call
  | none      => calls

def restoreSignal (before : MemoryState) (signals : Table ScopedId (PrincipalRef × Digest × U64))
    (key : ScopedId) : Table ScopedId (PrincipalRef × Digest × U64) :=
  match before.callSignals.get key with
  | some record => signals.put key record
  | none => signals.erase key

-- Puts back what a failed hang-up has overwritten.
def rollBack (s before : MemoryState) (callKeys eventKeys : List ScopedId) : MemoryState :=
  { s with
    calls := callKeys.foldl before.restoreCall s.calls
    callSignals := eventKeys.foldl before.restoreSignal s.callSignals }

def requireDirectCall (directSignal : CallSignal)
    (derivedCallId : CallId) : StoreResult CallSession := do
  rejectIf (actor.scope ≠ directSignal.scope ∨ derivedCallId = directSignal.callId ∨
    ¬directSignal.kind.isTerminate) .permissionDenied
  let direct ←
    (← s.validatedCallFromState directSignal.scope directSignal.callId).okOr .invalidRecord
  rejectIf (direct.conversation.kind ≠ .direct) .permissionDenied
  return direct

def terminateDirectCallWithDerived (directSignal : CallSignal) (derivedCallId : CallId)
    (derivedEventId : EventId) :
    StoreResult DurableRecordStatus × MemoryState :=
  match s.requireDirectCall actor directSignal derivedCallId with
  | .error e   => (.error e, s)
  | .ok direct =>
    match s.hangUp actor directSignal direct derivedCallId derivedEventId with
    | (.error e, s') =>
      (.error e, s'.rollBack s
        [(direct.scope, direct.callId), (direct.scope, derivedCallId)]
        [(direct.scope, directSignal.eventId), (direct.scope, derivedEventId)])
    | (.ok status, s') => (.ok status, s'.revokeFirstPartyDerivedJoins direct.scope derivedCallId)

def activeMembersOf (memberships : List GroupMembership) : List PrincipalRef :=
  (memberships.filter (·.state = .active)).map (·.member)

-- The calls of the group after a change of its members.
def reconcileGroupCallsAfterMembershipChange (group : GroupRecord)
    (memberships : List GroupMembership) : StoreResult (Table ScopedId CallSession) :=
  s.calls.rewriteM fun current => do
    if current.scope ≠ group.scope ∨ current.conversation ≠ group.conversation then
      return none
    let next ←
      (reconcileGroupCallMembership current (activeMembersOf memberships)).mapError mapCallError
    return if next ≠ current then some next else none

end MemoryState

end Ucr
