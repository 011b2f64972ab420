import Ucr.Conference.RuntimeState
import Ucr.Lib.Prog
import Ucr.Realtime.Attendance
import Ucr.Store.RecordStore

-- How sessions are let into calls and out again, and when the placement of a call is given back.
-- These are programs that wait for a gate, for providers and for other nodes, and others go on
-- meanwhile. What such a program does between two awaits is at most one step.

namespace Ucr

open Interleaving Except

inductive JoinTokenError
  | malformed
  | notYetValid
  | expired
  | unknownGrant
  | revoked

def mapJoinTokenError : JoinTokenError → CanonicalErrorCode
  | .malformed | .notYetValid | .expired | .unknownGrant | .revoked => .unauthenticated

def mapRegistryError : RealtimeRegistryError → CanonicalErrorCode
  | .expired | .claimMismatch => .unauthenticated
  | .capacityExceeded => .resourceExhausted
  | .clockRollback => .temporarilyUnavailable
  | .sessionUnavailable => .notFound
  | .sequenceOverflow => .internal

def mapStoreError : DurableStoreError → CanonicalErrorCode
  | .invalidRecord => .invalidArgument
  | .conflict => .conflict
  | .full => .resourceExhausted
  | .unavailable => .temporarilyUnavailable
  | .permissionDenied => .permissionDenied
  | .corrupt | .unsupportedSchemaVersion | .foreignStore | .internal => .internal

structure JoinGrantState where
  claims   : RealtimeSessionClaims
  revoked  : Bool
  redeemed : Bool

structure JoinTokenIssuer where
  grants : List JoinGrantState

namespace JoinTokenIssuer

variable (issuer : JoinTokenIssuer)

def requireLiveGrant (claims : RealtimeSessionClaims) : Except JoinTokenError Unit := do
  let entry ← (issuer.grants.find? (·.claims.sessionId = claims.sessionId)).okOr .unknownGrant
  rejectIf (entry.claims ≠ claims) .malformed
  rejectIf entry.revoked .revoked

def validateLiveClaims (claims : RealtimeSessionClaims) (nowUnixMs : ℤ) :
    Except JoinTokenError Unit := do
  rejectIf (nowUnixMs < claims.notBeforeUnixMs) .notYetValid
  rejectIf (nowUnixMs ≥ claims.expiresAtUnixMs) .expired
  issuer.requireLiveGrant claims

def grantKey (grant : JoinGrantState) : ScopedId :=
  (grant.claims.scope, grant.claims.sessionId)

def revoke (scope : TenantScope) (sessionId : SessionId) :
    Except JoinTokenError Unit × JoinTokenIssuer :=
  match issuer.grants.findKey grantKey (scope, sessionId) with
  | none   => (.error .unknownGrant, issuer)
  | some _ =>
    (.ok (), ⟨issuer.grants.updateKey grantKey (scope, sessionId) ({ · with revoked := true })⟩)

end JoinTokenIssuer

-- First-party calls are joined with durable grants only.
def requiresDurableFirstPartyJoin (claims : RealtimeSessionClaims) : Bool :=
  startsWith claims.callId.value "fp-m-"

def usePolicyMatches : ConferenceJoinGrantUsePolicy → JoinGrantUsePolicy → Bool
  | .singleUse, .singleUse | .reusable, .reusable => true
  | _, _ => false

def requireDurableGrantMatchesClaims (record : ConferenceJoinGrantRecord)
    (claims : RealtimeSessionClaims) : Except CanonicalErrorCode Unit :=
  rejectIf (record.scope ≠ claims.scope ∨ record.callId ≠ claims.callId ∨
    record.participant ≠ claims.participant ∨ claims.deviceId ≠ some record.deviceId ∨
    record.sessionId ≠ claims.sessionId ∨ record.issuedAtUnixMs ≠ claims.issuedAtUnixMs ∨
    record.notBeforeUnixMs ≠ claims.notBeforeUnixMs ∨
    record.expiresAtUnixMs ≠ claims.expiresAtUnixMs ∨
    ¬usePolicyMatches record.usePolicy claims.usePolicy) .unauthenticated

inductive RuntimeCallCleanupDecision
  | keep
  | cleanup

namespace MemoryState

variable (s : MemoryState)

def groupForConversation (scope : TenantScope) (conversationId : ConversationId) :
    Option GroupRecord :=
  s.groups.values.find? fun group =>
    group.scope = scope && group.conversation.conversationId = conversationId

def conferenceLifecycle (scope : TenantScope) (conversationId : ConversationId) :
    Option UniversalConferenceLifecycle := do
  let group ← s.groupForConversation scope conversationId
  let conference ← s.universalConferences.get (scope, group.groupId)
  return conference.lifecycle

def cleanupDecision (call : ScopedId) : StoreResult RuntimeCallCleanupDecision := do
  match ← s.validatedCallFromState call.1 call.2 with
  | none => return .keep
  | some session =>
    if session.signallingState = .terminated then
      return .cleanup
    else
      match s.conferenceLifecycle call.1 session.conversation.conversationId with
      | some .ending | some .ended => return .cleanup
      | _ => return .keep

end MemoryState

-- What the programs share. Of the gate, the stripes that are held.
structure RealtimeNode where
  registry : RealtimeSessionRegistry
  store : MemoryState
  joinIssuer : JoinTokenIssuer
  conferenceState : ConferenceRuntimeState
  gates : List ℕ

-- What the outside world can be asked. A program can be dropped wherever it waits.
structure NodeAnswers where
  nowUnixMs : ℤ
  clockAvailable : Bool
  cancelled : Bool
  nonce : Option OpaqueId
  ensured : Except CanonicalErrorCode Unit
  released : Except CanonicalErrorCode Unit
  -- A provider closes a session, or fails, or takes too long, or is closing it for somebody else.
  closed : Except CanonicalErrorCode Unit
  -- Which of the closes under way is completed next.
  completed : ℕ
  device : RealtimeSessionClaims → Option DeviceRef
  integration : AttendanceTransition → Except CanonicalErrorCode (Option EventEnvelope)

inductive ReleasePath
  | admission
  | leave
  | sweep
  | retry
  | cleanup
deriving DecidableEq

-- What leaves a trace. A release is told with the time, and with the sessions of the call that are
-- registered at that moment.
inductive PlacementEvent
  | entered (stripe : ℕ)
  | admitted (claims : RealtimeSessionClaims)
  | listed (activeClaims : List RealtimeSessionClaims)
  | retired (call : ScopedId)
  | released (path : ReleasePath) (call : ScopedId) (nowUnixMs : ℤ)
      (registered : List RealtimeSessionClaims)
deriving DecidableEq

-- What is done without waiting. A failure does not undo anything.
abbrev NodeM := InPlace RealtimeNode CanonicalErrorCode

inductive Stop
  | error (code : CanonicalErrorCode)
  | cancelled

abbrev Placing := Fallible RealtimeNode NodeAnswers PlacementEvent Stop

def RealtimeSessionClaims.call (claims : RealtimeSessionClaims) : ScopedId :=
  (claims.scope, claims.callId)

def RealtimeSessionRegistry.claims (r : RealtimeSessionRegistry) : List RealtimeSessionClaims :=
  r.entries.toList.map (·.claims)

namespace RealtimeNode

variable (node : RealtimeNode)

-- The result is kept for later: a session is retired also when its grant cannot be revoked.
def revokeGrant (claims : RealtimeSessionClaims) : Except CanonicalErrorCode Unit × RealtimeNode :=
  match node.store.conferenceJoinGrants.get (claims.scope, claims.sessionId) with
  | some record =>
    match requireDurableGrantMatchesClaims record claims with
    | .error e => (.error e, node)
    | .ok ()   =>
      let (result, store) :=
        (node.store.revokeConferenceJoinGrant claims.scope claims.sessionId).commit node.store
      ((result.map fun _ => ()).mapError mapStoreError, { node with store })
  | none =>
    let (result, joinIssuer) := node.joinIssuer.revoke claims.scope claims.sessionId
    (result.mapError mapJoinTokenError, { node with joinIssuer })

def attendanceStore (answers : NodeAnswers) (transition : AttendanceTransition) :
    Except CanonicalErrorCode MemoryState := do
  let event ← attendanceEvent (answers.device transition.claims) transition
  match ← answers.integration transition with
  | none => ((node.store.appendEvent event).mapError mapStoreError).map Prod.snd
  | some integration =>
    ((node.store.appendEventsAtomically [event, integration]).mapError mapStoreError).map Prod.snd

def appendAttendance (answers : NodeAnswers) (transition : AttendanceTransition) :
    Except CanonicalErrorCode Unit × RealtimeNode :=
  match node.attendanceStore answers transition with
  | .error e  => (.error e, node)
  | .ok store => (.ok (), { node with store })

end RealtimeNode

namespace NodeM

variable {α : Type}

-- An operation on the registry, with its failure as a value.
def tryRegistry
    (f : RealtimeSessionRegistry → RegistryResult α) :
    NodeM (Except RealtimeRegistryError α) :=
  fun node => (.ok (f node.registry).1, { node with registry := (f node.registry).2 })

def registry
    (f : RealtimeSessionRegistry → RegistryResult α) :
    NodeM α := do
  InPlace.ofExcept ((← tryRegistry f).mapError mapRegistryError)

def modifyRegistry (f : RealtimeSessionRegistry → RealtimeSessionRegistry) : NodeM Unit :=
  registry fun r => (.ok (), f r)

def hasPendingWebrtcCloseForCall (call : ScopedId) : NodeM Bool :=
  registry fun r => (.ok (r.pendingWebrtcCloses.any fun pending =>
    pending.scope = call.1 && pending.callId = call.2), r)

def requireLiveCanonicalJoinGrant (claims : RealtimeSessionClaims) (nowUnixMs : ℤ) : NodeM Unit := do
  let node ← get
  match node.store.conferenceJoinGrants.get (claims.scope, claims.sessionId) with
  | some record => InPlace.ofExcept do
    requireDurableGrantMatchesClaims record claims
    rejectIf record.revoked (mapJoinTokenError .revoked)
    rejectIf (nowUnixMs < record.notBeforeUnixMs) (mapJoinTokenError .notYetValid)
    rejectIf (nowUnixMs ≥ record.expiresAtUnixMs) (mapJoinTokenError .expired)
  | none => InPlace.ofExcept do
    rejectIf (requiresDurableFirstPartyJoin claims) .unauthenticated
    (node.joinIssuer.validateLiveClaims claims nowUnixMs).mapError mapJoinTokenError

def registeredClaims (call : ScopedId) : NodeM (List RealtimeSessionClaims) :=
  registry fun r => (.ok (r.claims.filter (·.call = call)), r)

-- The placement is given back from here on.
def invokeRelease (path : ReleasePath) (call : ScopedId) (answers : NodeAnswers) :
    NodeM PlacementEvent :=
  return .released path call answers.nowUnixMs (← registeredClaims call)

def releaseIfInactive (lifecycle : Bool) (path : ReleasePath) (call : ScopedId) (nowUnixMs : ℤ)
    (answers : NodeAnswers) : NodeM (Option PlacementEvent) := do
  let active ← registry (·.activeCallSessionCountAt call nowUnixMs)
  let pending ← hasPendingWebrtcCloseForCall call
  if active = 0 ∧ ¬pending ∧ lifecycle then
    some <$> invokeRelease path call answers
  else
    return none

def releaseCandidate (call : ScopedId) (nowUnixMs : ℤ) (answers : NodeAnswers) :
    NodeM (Option PlacementEvent) := do
  let active ← registry (·.activeCallSessionCountAt call nowUnixMs)
  if active ≠ 0 then
    modifyRegistry (·.acknowledgeExpiredCallCleanup call)
    return none
  else if ← hasPendingWebrtcCloseForCall call then
    return none
  else
    some <$> invokeRelease .sweep call answers

-- Here nobody looks whether there are sessions.
def releaseClosed (call : ScopedId) (answers : NodeAnswers) : NodeM (Option PlacementEvent) := do
  if ← hasPendingWebrtcCloseForCall call then
    return none
  else
    some <$> invokeRelease .cleanup call answers

def retireSession (claims : RealtimeSessionClaims) (nowUnixMs : ℤ) (expectedSessionSequence : U64) :
    NodeM (AttendanceTransition × Except CanonicalErrorCode Unit) := do
  if expectedSessionSequence = 0 then
    throw .conflict
  else if (← registry (·.currentJoinGeneration claims nowUnixMs)) ≠ expectedSessionSequence then
    throw .conflict
  else
    let revoked ← modifyGet (·.revokeGrant claims)
    modifyRegistry (·.queueWebrtcClose claims)
    let transition ← registry (·.leaveIfSequence claims expectedSessionSequence nowUnixMs)
    return (transition, revoked)

-- Retires the sessions one after another. The first failure to tell about one of them is kept.
def retireClosedCallSessions (nowUnixMs : ℤ) (answers : NodeAnswers) :
    List RealtimeSessionClaims → NodeM (List SessionId × Option CanonicalErrorCode)
  | [] => return ([], none)
  | claims :: rest => do
    match ← tryRegistry (·.currentJoinGeneration claims nowUnixMs) with
    | .error .sessionUnavailable => retireClosedCallSessions nowUnixMs answers rest
    | .error e => throw (mapRegistryError e)
    | .ok generation =>
      modifyRegistry (·.queueWebrtcClose claims)
      let transition ← registry (·.leaveIfSequence claims generation nowUnixMs)
      let attendance ← modifyGet (·.appendAttendance answers transition)
      let (retired, attendanceError) ← retireClosedCallSessions nowUnixMs answers rest
      return (claims.sessionId :: retired, attendance.failed <|> attendanceError)

-- The calls in the order of their keys, as for what conferences keep in memory.
def listCalls (nowUnixMs : ℤ) :
    NodeM (List RealtimeSessionClaims × List ScopedId × List SessionKey) := do
  let activeClaims ← registry (·.activeClaimsAt nowUnixMs)
  let node ← get
  let tracked := activeClaims.map (·.call) ++ node.conferenceState.trackedCalls
  let calls := (tracked.foldl ConferenceRuntimeState.insertTrackedCall ∅).values.sortOn fun call =>
    (ConferenceRuntimeState.trackedCallKey call).map UInt8.toNat
  return (activeClaims, calls, node.registry.pendingWebrtcCloses)

end NodeM

namespace Placing

variable {α : Type}

def sync (f : NodeAnswers → NodeM α) (emit : α → Option PlacementEvent) : Placing α :=
  Fallible.atomic
    (fun answers node => (((f answers).run node).1.mapError .error, ((f answers).run node).2))
    fun result => result.toOption.bind emit

def quietly (f : NodeAnswers → NodeM α) : Placing α :=
  sync f fun _ => none

def awaited (f : NodeAnswers → Except CanonicalErrorCode α) : Placing α :=
  Fallible.atomic
    (fun answers node =>
      (if answers.cancelled then .error .cancelled else (f answers).mapError .error, node))
    fun _ => none

-- Goes on also after a failure, but not if the program is dropped.
def attempt (p : Placing α) : Placing (Except CanonicalErrorCode α) :=
  .mk (p.run >>= fun
    | .ok a => pure (.ok (.ok a))
    | .error (.error e) => pure (.ok (.error e))
    | .error .cancelled => pure (.error .cancelled))

-- Does what is left to do when the program fails or is dropped.
def orElse (p : Placing α) (last : NodeM Unit) : Placing α :=
  .mk (p.run >>= fun
    | .ok a    => pure (.ok a)
    | .error e => do
      let _ ← (quietly fun _ => last).run
      pure (.error e))

end Placing

-- A service with or without placements, and how its calls share the stripes of the gate.
structure RealtimeService where
  sfuPlacementLifecycle : Bool
  sfuPlacementStripe    : ScopedId → Fin 64

namespace RealtimeService

open NodeM Placing

variable {α : Type} (service : RealtimeService)

def enter (call : ScopedId) : Placing Unit :=
  Fallible.atomic
    (fun answers node =>
      if answers.cancelled then (.error .cancelled, node)
      else (.ok (), { node with gates := (service.sfuPlacementStripe call).val :: node.gates }))
    fun
    | .ok ()   => some (.entered (service.sfuPlacementStripe call))
    | .error _ => none

def exit (call : ScopedId) : Placing Unit :=
  quietly fun _ => modify fun node =>
    { node with gates := node.gates.erase (service.sfuPlacementStripe call).val }

-- The gate is left in any case.
def gated (call : ScopedId) (p : Placing α) : Placing α := do
  service.enter call
  let result ← Fallible.ofProg p.run
  service.exit call
  Fallible.ofExcept result

def acknowledgeExpiredCallCleanup (call : ScopedId) : Placing Unit :=
  quietly fun _ => modifyRegistry (·.acknowledgeExpiredCallCleanup call)

def releaseSfuCallPlacementForCallIfInactive (path : ReleasePath) (call : ScopedId)
    (nowUnixMs : ℤ) : Placing Unit := do
  match ← sync (releaseIfInactive service.sfuPlacementLifecycle path call nowUnixMs) id with
  | none   => return ()
  | some _ =>
    awaited (·.released)
    acknowledgeExpiredCallCleanup call

def confirmPendingWebrtcClose (session : SessionKey) : Placing Unit := do
  awaited (·.closed)
  quietly fun _ => modifyRegistry (·.acknowledgeWebrtcClose session)

def ensureSfuCallPlacement : Placing Unit :=
  if service.sfuPlacementLifecycle then awaited (·.ensured) else return ()

def queueCallCleanupCandidate (call : ScopedId) : NodeM Unit :=
  if service.sfuPlacementLifecycle then registry (·.queueCallCleanupCandidate call) else return ()

def freshNow : Placing ℤ :=
  quietly fun answers =>
    if answers.clockAvailable then return answers.nowUnixMs else throw .temporarilyUnavailable

variable (claims : RealtimeSessionClaims)

-- The failure to join is kept as a value: by then the call need not be queued any more.
def joinPlaced (nowUnixMs : ℤ) :
    Placing (ℤ × Except RealtimeRegistryError RealtimeJoinOutcome) := do
  service.ensureSfuCallPlacement
  let fresh ← freshNow
  let nowUnixMs := max fresh nowUnixMs
  match ← attempt (quietly fun _ => requireLiveCanonicalJoinGrant claims nowUnixMs) with
  | .error e =>
    let _ ← attempt (service.releaseSfuCallPlacementForCallIfInactive .admission claims.call nowUnixMs)
    throw (.error e)
  | .ok () =>
    let joined ← sync (fun answers => tryRegistry (·.join claims nowUnixMs answers.nonce)) fun
      | .ok _    => some (.admitted claims)
      | .error _ => none
    return (nowUnixMs, joined)

def admitRealtimeSessionWithSfuPlacement (nowUnixMs : ℤ) :
    Placing RealtimeJoinOutcome :=
  service.gated claims.call do
    quietly fun _ => requireLiveCanonicalJoinGrant claims nowUnixMs
    let (nowUnixMs, joined) ← (service.joinPlaced claims nowUnixMs).orElse
      (service.queueCallCleanupCandidate claims.call)
    match joined with
    | .ok outcome => return outcome
    | .error e    =>
      let _ ← attempt
        (service.releaseSfuCallPlacementForCallIfInactive .admission claims.call nowUnixMs)
      throw (.error (mapRegistryError e))

-- The gate is free while the provider closes the session.
def leaveRealtimeSessionWithSfuPlacement (nowUnixMs : ℤ)
    (expectedSessionSequence : U64) :
    Placing (AttendanceTransition × Except CanonicalErrorCode Unit) := do
  let (transition, revoked) ← service.gated claims.call
    (quietly fun _ => retireSession claims nowUnixMs expectedSessionSequence)
  let closed ← attempt (confirmPendingWebrtcClose claims.session)
  let placementCleanup ← service.gated claims.call do
    match closed with
    | .ok ()   =>
      attempt (service.releaseSfuCallPlacementForCallIfInactive .leave claims.call nowUnixMs)
    | .error e => return .error e
  return (transition, do revoked; placementCleanup)

def sweepCandidate (call : ScopedId) (nowUnixMs : ℤ) : Placing ℕ := do
  match ← sync (releaseCandidate call nowUnixMs) id with
  | none   => return 0
  | some _ =>
    match ← attempt (awaited (·.released)) with
    | .error _ => return 0
    | .ok ()   =>
      acknowledgeExpiredCallCleanup call
      return 1

def sweepCandidates (nowUnixMs : ℤ) : List ScopedId → Placing ℕ
  | [] => return 0
  | call :: rest => do
    let released ← service.gated call (sweepCandidate call nowUnixMs)
    return released + (← sweepCandidates nowUnixMs rest)

def sweepExpiredSfuPlacementsAt (nowUnixMs : ℤ) : Placing ℕ :=
  if service.sfuPlacementLifecycle then do
    let candidates ← quietly fun _ => registry (·.expiredCallCleanupCandidatesAt nowUnixMs)
    service.sweepCandidates nowUnixMs candidates
  else
    return 0

def maxParallelCloseRetries : ℕ := 8

def retryCompleted (nowUnixMs : ℤ) (session : SessionKey) (closed : Except CanonicalErrorCode Unit) :
    Placing Unit := do
  match closed with
  | .error e => throw (.error e)
  | .ok ()   =>
    quietly fun _ => modifyRegistry (·.acknowledgeWebrtcClose session)
    service.gated (session.scope, session.callId)
      (service.releaseSfuCallPlacementForCallIfInactive .retry (session.scope, session.callId) nowUnixMs)

-- A bounded number of closes is under way at a time, and they are completed in any order. One turn
-- for each of them.
def retryRounds (nowUnixMs : ℤ) :
    ℕ → (waiting inFlight : List SessionKey) → Placing (Option CanonicalErrorCode)
  | 0, _, _ => return none
  | rounds + 1, waiting, inFlight => do
    let free := maxParallelCloseRetries - inFlight.length
    let inFlight := inFlight ++ waiting.take free
    let (completed, closed) ← awaited fun answers => .ok (answers.completed, answers.closed)
    match inFlight[completed % inFlight.length]? with
    | none => return none
    | some session =>
      let result ← attempt (service.retryCompleted nowUnixMs session closed)
      let laterError ← retryRounds nowUnixMs rounds (waiting.drop free)
        (inFlight.eraseIdx (completed % inFlight.length))
      return result.failed <|> laterError

def retryPendingWebrtcCloses (nowUnixMs : ℤ) (pending : List SessionKey) : Placing Unit := do
  match ← service.retryRounds nowUnixMs pending.length pending [] with
  | none   => return ()
  | some e => throw (.error e)

structure RetiredCall where
  call : ScopedId
  sessions : List SessionId
  attendanceError : Option CanonicalErrorCode

structure RealtimeCleanupSweep where
  inspectedCalls : ℕ
  closedCalls : ℕ
  sessionsReaped : ℕ
  ephemeralEntriesRemoved : ℕ

def retireCall (nowUnixMs : ℤ) (activeClaims : List RealtimeSessionClaims) (call : ScopedId) :
    Placing RetiredCall :=
  service.gated call (sync
    (fun answers => do
      service.queueCallCleanupCandidate call
      let (sessions, attendanceError) ←
        retireClosedCallSessions nowUnixMs answers (activeClaims.filter (·.call = call))
      return ⟨call, sessions, attendanceError⟩)
    fun _ => some (.retired call))

def decideCleanup (call : ScopedId) : Placing RuntimeCallCleanupDecision :=
  quietly fun _ => do InPlace.ofExcept (((← get).store.cleanupDecision call).mapError mapStoreError)

def retireCalls (nowUnixMs : ℤ) (activeClaims : List RealtimeSessionClaims) :
    List ScopedId → Placing (List RetiredCall)
  | [] => return []
  | call :: rest => do
    match ← decideCleanup call with
    | .keep    => retireCalls nowUnixMs activeClaims rest
    | .cleanup =>
      let retired ← service.retireCall nowUnixMs activeClaims call
      return retired :: (← retireCalls nowUnixMs activeClaims rest)

def confirmCloses (call : ScopedId) : List SessionId → Placing (Option CanonicalErrorCode)
  | [] => return none
  | sessionId :: rest => do
    let closed ← attempt (confirmPendingWebrtcClose ⟨call.1, call.2, sessionId⟩)
    return closed.failed <|> (← confirmCloses call rest)

def clearCallEphemeralState (call : ScopedId) : Placing ℕ :=
  quietly fun _ => modifyGet fun node =>
    let (removed, conferenceState) := node.conferenceState.clearCallEphemeralState call
    (removed, { node with conferenceState })

-- What went wrong, and how many entries were removed.
abbrev CleanupOutcome := Option CanonicalErrorCode × ℕ

def releaseClosedCall (call : ScopedId) : Placing CleanupOutcome := do
  match ← sync (releaseClosed call) id with
  | none   => return (none, 0)
  | some _ =>
    match ← attempt (awaited (·.released)) with
    | .error e => return (some e, 0)
    | .ok ()   =>
      acknowledgeExpiredCallCleanup call
      return (none, ← clearCallEphemeralState call)

def clearClosedCall (call : ScopedId) : Placing CleanupOutcome := do
  if ← quietly fun _ => hasPendingWebrtcCloseForCall call then
    return (none, 0)
  else
    return (none, ← clearCallEphemeralState call)

def finishCall (retired : RetiredCall) : Placing CleanupOutcome := do
  let closeError ← confirmCloses retired.call retired.sessions
  service.gated retired.call do
    match closeError <|> retired.attendanceError with
    | some e => return (some e, 0)
    | none   =>
      if service.sfuPlacementLifecycle then
        releaseClosedCall retired.call
      else
        clearClosedCall retired.call

def finishCalls : List RetiredCall → Placing CleanupOutcome
  | [] => return (none, 0)
  | retired :: rest => do
    let (firstError, removed) ← service.finishCall retired
    let (laterError, removedLater) ← finishCalls rest
    return (firstError <|> laterError, removed + removedLater)

def cleanupClosedConferencesAt (nowUnixMs : ℤ) : Placing RealtimeCleanupSweep := do
  let (activeClaims, calls, previouslyPending) ← sync (fun _ => listCalls nowUnixMs) fun listed =>
    some (.listed listed.1)
  let retired ← service.retireCalls nowUnixMs activeClaims calls
  let (firstError, removed) ← service.finishCalls retired
  let retried ← attempt (service.retryPendingWebrtcCloses nowUnixMs previouslyPending)
  match firstError <|> retried.failed with
  | some e => throw (.error e)
  | none   =>
    return {
      inspectedCalls := calls.length
      closedCalls := retired.length
      sessionsReaped := (retired.map (·.sessions.length)).sum
      ephemeralEntriesRemoved := removed }

end RealtimeService

inductive RealtimeTask
  | admission (claims : RealtimeSessionClaims) (nowUnixMs : ℤ)
  | leave (claims : RealtimeSessionClaims) (nowUnixMs : ℤ) (expectedSessionSequence : U64)
  | sweep (nowUnixMs : ℤ)
  | retry (nowUnixMs : ℤ) (pending : List SessionKey)
  | cleanup (nowUnixMs : ℤ)

namespace RealtimeService

variable (service : RealtimeService)

def program : RealtimeTask → Prog RealtimeNode NodeAnswers PlacementEvent Unit
  | .admission claims now => do
    let _ ← (service.admitRealtimeSessionWithSfuPlacement claims now).run
  | .leave claims now expected => do
    let _ ← (service.leaveRealtimeSessionWithSfuPlacement claims now expected).run
  | .sweep now => do let _ ← (service.sweepExpiredSfuPlacementsAt now).run
  | .retry now pending => do let _ ← (service.retryPendingWebrtcCloses now pending).run
  | .cleanup now => do let _ ← (service.cleanupClosedConferencesAt now).run

-- What happens without these programs: anything in the store and in what conferences keep in
-- memory, new grants, and every other operation of the registry.
inductive Outside : RealtimeNode → RealtimeNode → Prop
  | store (node : RealtimeNode) (store : MemoryState) : Outside node { node with store }
  | joinIssuer (node : RealtimeNode) (joinIssuer : JoinTokenIssuer) :
      Outside node { node with joinIssuer }
  | conferenceState (node : RealtimeNode) (conferenceState : ConferenceRuntimeState) :
      Outside node { node with conferenceState }
  | registry (node : RealtimeNode) (op : RegistryOp)
      (h : ∀ claims now nonce, op ≠ .join claims now nonce) :
      Outside node { node with registry := (op.run node.registry).2 }

def placements : Workload RealtimeNode NodeAnswers PlacementEvent RealtimeTask Unit where
  program := service.program
  env     := Outside
  allows node
    | .entered stripe => stripe ∉ node.gates
    | _ => True

end RealtimeService

end Ucr
