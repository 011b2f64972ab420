import Ucr.Lib.Except
import Ucr.Lib.Keyed
import Ucr.Lib.Sha256
import Ucr.Lib.Sort
import Ucr.Objects.Call

-- The call signalling state machine: canonical sessions, the signals participants send, and the
-- projection of group membership into a call.

namespace Ucr

open Except Encoding

def maxCallParticipants : ℕ := 1024
def callCreationFingerprintV1Domain : Bytes := utf8 "UCR-CALL-CREATION-V1\x00"
def callSignalFingerprintV1Domain : Bytes := utf8 "UCR-CALL-SIGNAL-V1\x00"

def isCallConversationKind : ConversationKind → Bool
  | .direct | .privateGroup | .publicGroup => true
  | _ => false

namespace CallParticipantState

-- Invited, ringing and accepted participants still take part in the call.
def isLive : CallParticipantState → Bool
  | .invited | .ringing | .accepted => true
  | _ => false

def isPending : CallParticipantState → Bool
  | .invited | .ringing => true
  | _ => false

end CallParticipantState

namespace CallParticipant

def sortKey (p : CallParticipant) : String ×ₗ ℕ :=
  p.principal.sortKey

def isActive (p : CallParticipant) : Bool :=
  p.state.isLive && p.leftRevision.isNone

end CallParticipant

namespace CallSession

variable (session : CallSession)

def participant (principal : PrincipalRef) : Option CallParticipant :=
  session.participants.findKey (·.principal) principal

-- The source hands out a mutable reference to the first entry of the principal.
def updateParticipant (principal : PrincipalRef)
    (f : CallParticipant → CallParticipant) : CallSession :=
  { session with participants := session.participants.updateKey (·.principal) principal f }

def setState (principal : PrincipalRef) (state : CallParticipantState) :
    CallSession :=
  session.updateParticipant principal fun value => { value with state := state }

def invite (target : PrincipalRef) (revision : U64) : CallSession :=
  let added : CallParticipant :=
    { principal := target, state := .invited, joinedRevision := revision, leftRevision := none }
  { session with participants := session.participants ++ [added] }

def leave (target : PrincipalRef) (revision : U64) : CallSession :=
  session.updateParticipant target fun value =>
    { value with state := .left, leftRevision := some revision }

-- A participant that drops out takes its open reconnect cycle with it.
def closeReconnectIf (closes : Bool) : CallSession :=
  if closes then
    { session with reconnectingParticipant := none, signallingState := .active }
  else
    session

-- Whether some participant other than the initiator is in a state of the given kind.
def anyRemote (p : CallParticipantState → Bool) : Bool :=
  session.participants.any fun value => value.principal ≠ session.initiatedBy && p value.state

def sorted : CallSession :=
  { session with participants := session.participants.sortOn (·.sortKey) }

def terminate (reason : CallTerminationReason) : CallSession :=
  { session with
    reconnectingParticipant := none
    signallingState := .terminated
    terminationReason := some reason }

end CallSession

def validateParticipant (participant : CallParticipant) (sessionRevision : U64) :
    Except CallSignallingError Unit := do
  rejectIf (participant.joinedRevision > sessionRevision) .invalidParticipant
  match participant.state with
  | .left =>
    let left ← participant.leftRevision.okOr .invalidParticipant
    rejectIf (left < participant.joinedRevision ∨ left > sessionRevision) .invalidParticipant
  | _ => rejectIf participant.leftRevision.isSome .invalidParticipant

variable (session : CallSession)

-- The session's own invariants on who may be reconnecting.
def validateReconnecting : Except CallSignallingError Unit :=
  match session.signallingState with
  | .reconnecting => do
    let reconnecting ← session.reconnectingParticipant.okOr .invalidSession
    let value ← (session.participant reconnecting).okOr .invalidSession
    rejectIf (value.state ≠ .accepted ∨ value.leftRevision.isSome) .invalidSession
  | _ => rejectIf session.reconnectingParticipant.isSome .invalidSession

-- The signalling state has to agree with what the remote participants have asserted. The arms of
-- the source are tried in order, so the termination reason is only looked at when the others pass.
def validateLifecycle : Except CallSignallingError Unit :=
  let anyAccepted := session.anyRemote (· = .accepted)
  let anyRinging := session.anyRemote (· = .ringing)
  let anyPending := session.anyRemote (·.isPending)
  match session.signallingState with
  | .inviting => do
    rejectIf (anyAccepted ∨ anyRinging) .invalidSession
    rejectIf (¬anyPending) .invalidSession
    rejectIf session.terminationReason.isSome .invalidSession
  | .ringing => do
    rejectIf (anyAccepted ∨ ¬anyRinging) .invalidSession
    rejectIf session.terminationReason.isSome .invalidSession
  | .active | .reconnecting => do
    rejectIf (¬anyAccepted) .invalidSession
    rejectIf session.terminationReason.isSome .invalidSession
  | .terminated => rejectIf session.terminationReason.isNone .invalidSession

def canonicalCallSession : Except CallSignallingError CallSession := do
  rejectIf (¬isCallConversationKind session.conversation.kind) .invalidConversationKind
  rejectIf (session.participants.length < 2) .invalidSession
  rejectIf (session.participants.length > maxCallParticipants) .tooManyParticipants
  let canonical := session.sorted
  rejectIf (canonical.participants.anyAdjacent (·.principal = ·.principal)) .duplicateParticipant
  forM canonical.participants (validateParticipant · canonical.revision)
  let initiator ← (canonical.participant canonical.initiatedBy).okOr .invalidSession
  rejectIf (initiator.state ≠ .accepted ∨ initiator.leftRevision.isSome) .invalidSession
  rejectIf (¬(canonical.mediaNegotiationGeneration = 0 ↔ canonical.mediaNegotiationRef.isNone))
    .invalidSession
  validateReconnecting canonical
  validateLifecycle canonical
  return canonical

def canonicalCallCreation (actorScope : TenantScope)
    (actor : PrincipalRef) : Except CallSignallingError CallSession := do
  rejectIf (actorScope ≠ session.scope) .scopeMismatch
  rejectIf (actor ≠ session.initiatedBy) .permissionDenied
  rejectIf (session.revision ≠ 0 ∨ session.replicationGeneration ≠ 0 ∨
    session.mediaNegotiationGeneration ≠ 0 ∨ session.mediaNegotiationRef.isSome ∨
    session.reconnectingParticipant.isSome ∨ session.terminationReason.isSome ∨
    session.signallingState ≠ .inviting) .invalidSession
  let canonical ← canonicalCallSession session
  forM canonical.participants fun participant => do
    let expected : CallParticipantState :=
      if participant.principal = canonical.initiatedBy then .accepted else .invited
    rejectIf (participant.state ≠ expected ∨ participant.joinedRevision ≠ 0 ∨
      participant.leftRevision.isSome) .invalidParticipant
  return canonical

namespace Call

-- Identifiers and texts are written behind their length in four bytes.
def pushBytes (value : Bytes) : Bytes :=
  lengthPrefixed 4 value

def pushScope (scope : TenantScope) : Bytes :=
  pushBytes scope.tenantId.asWireBytes ++
    match scope.namespaceId with
    | some namespaceId => 1 :: pushBytes namespaceId.asWireBytes
    | none => [0]

def pushPrincipal (principal : PrincipalRef) : Bytes :=
  .ofNat (principalKindCode principal.kind) :: pushBytes principal.principalId.asWireBytes

def terminationReasonCode : CallTerminationReason → UInt8
  | .rejected  => 1
  | .busy      => 2
  | .cancelled => 3
  | .timedOut  => 4
  | .completed => 5
  | .failed    => 6

def signalKindBytes : CallSignalKind → Bytes
  | .ringing => [1]
  | .accept => [2]
  | .reject => [3]
  | .busy => [4]
  | .cancel => [5]
  | .timeout => [6]
  | .reconnect .started => [7, 1]
  | .reconnect .restored => [7, 2]
  | .participantUpdate p .add    => 8 :: (pushPrincipal p ++ [1])
  | .participantUpdate p .remove => 8 :: (pushPrincipal p ++ [2])
  | .mediaRenegotiation ref => 9 :: pushBytes ref.asWireBytes
  | .terminate reason => [10, terminationReasonCode reason]

def signalBytes (signal : CallSignal) : Bytes :=
  pushBytes signal.eventId.asWireBytes ++ pushScope signal.scope ++
    pushBytes signal.callId.asWireBytes ++ beBytes 8 signal.expectedRevision ++
    signalKindBytes signal.kind

-- What a creation fingerprint covers: everything but the mutable signalling state, and of the
-- participants only those of revision zero.
def creationBytes (canonical : CallSession) (origin : List PrincipalRef) : Bytes :=
  pushScope canonical.scope ++ pushBytes canonical.callId.asWireBytes ++
    pushBytes canonical.conversation.conversationId.asWireBytes ++
    [.ofNat (conversationKindCode canonical.conversation.kind)] ++
    pushPrincipal canonical.initiatedBy ++ beBytes 4 origin.length ++
    origin.flatMap pushPrincipal

end Call

def callCreationFingerprint : Except CallSignallingError Digest := do
  let canonical ← canonicalCallSession session
  let originParticipants := canonical.participants.filter (·.joinedRevision = 0)
  rejectIf (originParticipants.length < 2 ∨
    ¬originParticipants.any (·.principal = canonical.initiatedBy)) .invalidSession
  rejectIf (originParticipants.length ≥ 2 ^ 32) .overflow
  return sha256 (callCreationFingerprintV1Domain ++
    Call.creationBytes canonical (originParticipants.map (·.principal)))

def callSignalFingerprint (signal : CallSignal) : Digest :=
  sha256 (callSignalFingerprintV1Domain ++ Call.signalBytes signal)

variable (actor : PrincipalRef)

def activeCallParticipant : Bool :=
  (session.participant actor).any (·.isActive)

def settleIfNoViableRemote (reason : CallTerminationReason) :
    CallSession :=
  if ¬session.anyRemote (·.isLive) then
    session.terminate reason
  else if session.anyRemote (· = .accepted) then
    if session.signallingState ≠ .reconnecting then
      { session with signallingState := .active }
    else
      session
  -- Unlike the two tests above this one does not leave the initiator out.
  else if session.participants.any (·.state = .ringing) then
    { session with reconnectingParticipant := none, signallingState := .ringing }
  else
    { session with reconnectingParticipant := none, signallingState := .inviting }

def applyRinging :
    Except CallSignallingError CallSession := do
  let value ← (session.participant actor).okOr .participantNotActive
  rejectIf (value.principal = session.initiatedBy ∨ value.state ≠ .invited) .invalidTransition
  let session := session.setState actor .ringing
  match session.signallingState with
  | .active | .reconnecting => return session
  | _ => return { session with signallingState := .ringing }

def applyAccept :
    Except CallSignallingError CallSession := do
  let value ← (session.participant actor).okOr .participantNotActive
  rejectIf (value.principal = session.initiatedBy ∨ ¬value.state.isPending) .invalidTransition
  let session := session.setState actor .accepted
  if session.signallingState ≠ .reconnecting then
    return { session with signallingState := .active }
  else
    return session

def rejectOrBusy (state : CallParticipantState) :
    Except CallSignallingError CallSession := do
  let value ← (session.participant actor).okOr .participantNotActive
  rejectIf (value.principal = session.initiatedBy ∨ ¬value.state.isPending) .invalidTransition
  return session.setState actor state

def applyDecline (participantState : CallParticipantState) (terminationReason : CallTerminationReason) :
    Except CallSignallingError CallSession := do
  let session ← rejectOrBusy session actor participantState
  return settleIfNoViableRemote session terminationReason

def requireInitiatorWithoutRemoteAccept :
    Except CallSignallingError Unit :=
  rejectIf (actor ≠ session.initiatedBy ∨ session.anyRemote (· = .accepted)) .permissionDenied

def applyPreAcceptTermination (reason : CallTerminationReason) :
    Except CallSignallingError CallSession := do
  requireInitiatorWithoutRemoteAccept session actor
  return session.terminate reason

def applyReconnect (phase : CallReconnectPhase) :
    Except CallSignallingError CallSession := do
  let value ← (session.participant actor).okOr .permissionDenied
  rejectIf (value.state ≠ .accepted) .permissionDenied
  match phase, session.signallingState with
  | .started, .active =>
    return { session with
      reconnectingParticipant := some actor, signallingState := .reconnecting }
  | .restored, .reconnecting =>
    rejectIf (session.reconnectingParticipant ≠ some actor) .permissionDenied
    return { session with reconnectingParticipant := none, signallingState := .active }
  | _, _ => throw .invalidTransition

variable (actor target : PrincipalRef)

def addParticipant (revision : U64) :
    Except CallSignallingError CallSession := do
  rejectIf (actor ≠ session.initiatedBy) .permissionDenied
  rejectIf (session.participants.length ≥ maxCallParticipants) .tooManyParticipants
  rejectIf (session.participant target).isSome .participantAlreadyExists
  return session.invite target revision

def removeParticipant (revision : U64) :
    Except CallSignallingError CallSession := do
  rejectIf (target = session.initiatedBy) .wouldRemoveInitiator
  rejectIf (actor ≠ session.initiatedBy ∧ actor ≠ target) .permissionDenied
  let value ← (session.participant target).okOr .participantNotActive
  rejectIf (¬value.state.isLive) .invalidTransition
  let session := session.leave target revision
  let session := session.closeReconnectIf (session.reconnectingParticipant = some target)
  return settleIfNoViableRemote session .completed

def applyParticipantUpdate (kind : CallParticipantUpdateKind) (revision : U64) :
    Except CallSignallingError CallSession :=
  match kind with
  | .add    => addParticipant session actor target revision
  | .remove => removeParticipant session actor target revision

def applyMediaRenegotiation (negotiationRef : OpaqueId) : Except CallSignallingError CallSession := do
  let accepted := (session.participant actor).any (·.state = .accepted)
  rejectIf (¬(session.signallingState = .active ∨ session.signallingState = .reconnecting) ∨
    ¬accepted) .permissionDenied
  let generation ← session.mediaNegotiationGeneration.checkedSucc.okOr .overflow
  return { session with
    mediaNegotiationGeneration := generation, mediaNegotiationRef := some negotiationRef }

def applyExplicitTermination (reason : CallTerminationReason) :
    Except CallSignallingError CallSession := do
  rejectIf (¬(reason = .completed ∨ reason = .failed)) .invalidTransition
  let value ← (session.participant actor).okOr .permissionDenied
  rejectIf (actor ≠ session.initiatedBy ∧
    (value.state ≠ .accepted ∨ isGroupConversationKind session.conversation.kind)) .permissionDenied
  return session.terminate reason

def applyCallSignalKind (revision : U64) :
    CallSignalKind → Except CallSignallingError CallSession
  | .ringing => applyRinging session actor
  | .accept => applyAccept session actor
  | .reject => applyDecline session actor .rejected .rejected
  | .busy => applyDecline session actor .busy .busy
  | .cancel => applyPreAcceptTermination session actor .cancelled
  | .timeout => applyPreAcceptTermination session actor .timedOut
  | .reconnect phase => applyReconnect session actor phase
  | .participantUpdate p kind => applyParticipantUpdate session actor p kind revision
  | .mediaRenegotiation ref => applyMediaRenegotiation session actor ref
  | .terminate reason => applyExplicitTermination session actor reason

variable (current : CallSession)

-- Everything `apply_call_signal` does before it canonicalizes its result.
def callSignalTransition (actorScope : TenantScope) (actor : PrincipalRef)
    (signal : CallSignal) : Except CallSignallingError CallSession := do
  let next ← canonicalCallSession current
  rejectIf (actorScope ≠ next.scope ∨ signal.scope ≠ next.scope) .scopeMismatch
  rejectIf (signal.callId ≠ next.callId) .callMismatch
  rejectIf (signal.expectedRevision ≠ next.revision) .revisionMismatch
  rejectIf (next.signallingState = .terminated) .invalidTransition
  rejectIf (¬activeCallParticipant next actor) .permissionDenied
  let revision ← next.revision.checkedSucc.okOr .overflow
  let generation ← next.replicationGeneration.checkedSucc.okOr .overflow
  let next ← applyCallSignalKind next actor revision signal.kind
  return { next with revision := revision, replicationGeneration := generation }

def applyCallSignal (actorScope : TenantScope) (actor : PrincipalRef)
    (signal : CallSignal) : Except CallSignallingError CallSession := do
  let next ← callSignalTransition current actorScope actor signal
  canonicalCallSession next

namespace CallSession

-- A remote participant that is still active but no longer a member of the group.
def isRevoked (session : CallSession) (activeMembers : List PrincipalRef) (p : CallParticipant) :
    Bool :=
  p.principal ≠ session.initiatedBy && p.isActive && p.principal ∉ activeMembers

def revokeRemotes (session : CallSession) (activeMembers : List PrincipalRef) (revision : U64) :
    CallSession :=
  let reconnectOwnerRevoked :=
    session.reconnectingParticipant.any fun owner => owner ∉ activeMembers
  let revoked := { session with
    participants := session.participants.map fun p =>
      if session.isRevoked activeMembers p then
        { p with state := .left, leftRevision := some revision }
      else
        p }
  settleIfNoViableRemote (revoked.closeReconnectIf reconnectOwnerRevoked) .completed

end CallSession

-- The new session before it is canonicalized, or nothing if the membership changes nothing.
def groupMembershipTransition (activeMembers : List PrincipalRef) :
    Except CallSignallingError (CallSession × Option CallSession) := do
  let next ← canonicalCallSession current
  rejectIf (¬isGroupConversationKind next.conversation.kind) .invalidConversationKind
  if next.signallingState = .terminated then
    return (next, none)
  let initiatorRevoked := next.initiatedBy ∉ activeMembers
  let hasRevokedActiveParticipant := next.participants.any (next.isRevoked activeMembers)
  if ¬initiatorRevoked ∧ ¬hasRevokedActiveParticipant then
    return (next, none)
  let revision ← next.revision.checkedSucc.okOr .overflow
  let generation ← next.replicationGeneration.checkedSucc.okOr .overflow
  let changed :=
    if initiatorRevoked then
      next.terminate .completed
    else
      next.revokeRemotes activeMembers revision
  return (next, some { changed with revision := revision, replicationGeneration := generation })

def reconcileGroupCallMembership (activeMembers : List PrincipalRef) :
    Except CallSignallingError CallSession := do
  let (unchanged, changed?) ← groupMembershipTransition current activeMembers
  match changed? with
  | none => return unchanged
  | some changed => canonicalCallSession changed

end Ucr
