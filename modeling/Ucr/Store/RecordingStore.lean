import Ucr.Protocol.Recording
import Ucr.Store.EventStore

-- Recordings in the store. A transition may be written together with the lifecycle event that tells
-- of it, and with the operation it asks the media provider for.

namespace Ucr

open Except

def mapRecordingProtocolError : RecordingProtocolError → DurableStoreError
  | .invalidPolicy | .invalidSession | .invalidConsent | .overflow => .invalidRecord
  | .invalidTransition | .consentRequired | .expired => .conflict

def recordingLifecycleEventType : RecordingState → Option String
  | .active => some "ucr.recording.started"
  | .stopped => some "ucr.recording.stopped"
  | .expired => some "ucr.recording.expired"
  | .deleted => some "ucr.recording.deleted"
  | .waitingForConsent | .ready => none

def validateRecordingLifecycleEvent (current next : RecordingSession)
    (event : Option EventEnvelope) : StoreResult Unit :=
  let expectedType :=
    if current.state = next.state then none else recordingLifecycleEventType next.state
  match expectedType, event with
  | none, none => return
  | some expectedType, some event => do
    rejectIf (¬(event.scope = current.scope ∧ event.eventType = expectedType ∧
      event.logicalOrder = next.revision)) .invalidRecord
    let _ ← (canonicalEvent event).mapError fun _ => .invalidRecord
  | _, _ => throw .invalidRecord

def recordingProviderOperationKey (request : RecordingProviderRequest) :
    ScopedId × U64 × RecordingProviderOperation :=
  ((request.scope, request.recordingId), request.lifecycleRevision, request.operation)

-- What the transitions of a recording have in common.
abbrev RecordingTransition := RecordingSession → Except RecordingProtocolError RecordingSession

namespace MemoryState

variable (s : MemoryState)

def persistRecording (recording : RecordingSession) :
    StoreResult (DurableRecordStatus × MemoryState) := do
  (validateRecordingSession recording).mapError mapRecordingProtocolError
  let key := (recording.scope, recording.recordingId)
  match ← storeOnce (s.recordings.get key) recording with
  | .duplicate => return (.duplicate, s)
  | .persisted => return (.persisted, { s with recordings := s.recordings.put key recording })

variable (key : ScopedId)

-- The recording before and after a transition that is based on its current revision.
def nextRecording (expectedRevision : U64)
    (transition : RecordingTransition) :
    StoreResult (RecordingSession × RecordingSession) := do
  let current ← (s.recordings.get key).okOr .conflict
  rejectIf (current.revision ≠ expectedRevision) .conflict
  let next ← (transition current).mapError mapRecordingProtocolError
  return (current, next)

def transitionRecording (expectedRevision : U64)
    (transition : RecordingTransition) :
    StoreResult (RecordingSession × MemoryState) := do
  let (_, next) ← s.nextRecording key expectedRevision transition
  return (next, { s with recordings := s.recordings.put key next })

-- The same with the event that has to go with it.
def nextRecordingWithEvent (expectedRevision : U64)
    (transition : RecordingTransition) (event : Option EventEnvelope) :
    StoreResult (RecordingSession × RecordingSession) := do
  let (current, next) ← s.nextRecording key expectedRevision transition
  validateRecordingLifecycleEvent current next event
  return (current, next)

def appendOptionalEvent :
    Option EventEnvelope → StoreResult MemoryState
  | none => return s
  | some event => do
    let (_, s) ← s.appendEvent event
    return s

-- The recording is written first and put back if its event is refused.
def transitionRecordingWithEvent (expectedRevision : U64)
    (transition : RecordingTransition) (event : Option EventEnvelope) :
    StoreResult RecordingSession × MemoryState :=
  match s.nextRecordingWithEvent key expectedRevision transition event with
  | .error e => (.error e, s)
  | .ok (current, next) =>
    if next = current then
      (.ok current, s)
    else
      let written := { s with recordings := s.recordings.put key next }
      match written.appendOptionalEvent event with
      | .ok s'   => (.ok next, s')
      | .error e =>
        (.error e, { written with recordings := written.recordings.put key current })

def transitionRecordingWithEventAndProviderOperation (expectedRevision : U64)
    (transition : RecordingTransition) (event : EventEnvelope)
    (operation : RecordingProviderOperation) :
    StoreResult RecordingSession × MemoryState :=
  match s.nextRecordingWithEvent key expectedRevision transition (some event) with
  | .error e => (.error e, s)
  | .ok (current, next) =>
    if next = current then
      (.ok current, s)
    else
      let record : RecordingProviderOperationRecord :=
        ⟨.forSession next operation, .pending, 0, event.wallTimeUnixMs⟩
      let providerKey := recordingProviderOperationKey record.request
      if (s.recordingProviderOperations.get providerKey).isSome then
        (.error .conflict, s)
      else
        let written := { s with
          recordings := s.recordings.put key next
          recordingProviderOperations := s.recordingProviderOperations.put providerKey record }
        match written.appendEvent event with
        | .ok (_, s') => (.ok next, s')
        | .error e    => (.error e, { written with
            recordings := written.recordings.put key current
            recordingProviderOperations := written.recordingProviderOperations.erase providerKey })

def putRecordingProviderOperation (record : RecordingProviderOperationRecord) : MemoryState :=
  { s with
    recordingProviderOperations :=
      s.recordingProviderOperations.put (recordingProviderOperationKey record.request) record }

def prepareRecordingProviderOperation (record : RecordingProviderOperationRecord) :
    StoreResult (DurableRecordStatus × MemoryState) := do
  rejectIf (record.request.lifecycleRevision = 0 ∨ record.request.expiresAtUnixMs < 0 ∨
    record.availableAtUnixMs < 0) .invalidRecord
  match ← storeOnce (s.recordingProviderOperations.get
      (recordingProviderOperationKey record.request)) record with
  | .duplicate => return (.duplicate, s)
  | .persisted => return (.persisted, s.putRecordingProviderOperation record)

-- A pending operation comes to its end. What has ended this way stays as it is.
def endRecordingProviderOperation (state : RecordingProviderOperationState)
    (request : RecordingProviderRequest) : StoreResult (Unit × MemoryState) := do
  let record ← (s.recordingProviderOperations.get
    (recordingProviderOperationKey request)).okOr .conflict
  rejectIf (record.request ≠ request) .conflict
  if record.state = state then
    return ((), s)
  else
    rejectIf (record.state ≠ .pending) .conflict
    let attempts := record.attempts.checkedSucc.getD record.attempts
    return ((), s.putRecordingProviderOperation { record with attempts, state })

def markRecordingProviderOperationApplied (request : RecordingProviderRequest) :
    StoreResult (Unit × MemoryState) :=
  s.endRecordingProviderOperation .applied request

def markRecordingProviderOperationFailed (request : RecordingProviderRequest) :
    StoreResult (Unit × MemoryState) :=
  s.endRecordingProviderOperation .failed request

def retryRecordingProviderOperation (request : RecordingProviderRequest)
    (nextAttemptUnixMs : ℤ) : StoreResult (Unit × MemoryState) := do
  let record ← (s.recordingProviderOperations.get
    (recordingProviderOperationKey request)).okOr .conflict
  rejectIf (record.request ≠ request ∨ record.state ≠ .pending ∨
    nextAttemptUnixMs ≤ record.availableAtUnixMs) .conflict
  let attempts ← record.attempts.checkedSucc.okOr .invalidRecord
  return ((), s.putRecordingProviderOperation
    { record with attempts, availableAtUnixMs := nextAttemptUnixMs })

end MemoryState

-- The operations on recordings. Each transition comes alone, with its event, or with its event and
-- the provider operation that belongs to it.
inductive RecordingOp
  | persistRecording (recording : RecordingSession)
  | setRecordingConsent (scope : TenantScope) (recordingId : RecordingId) (expectedRevision : U64)
      (participant : PrincipalRef) (state : RecordingConsentState) (nowUnixMs : ℤ)
  | startRecording (scope : TenantScope) (recordingId : RecordingId) (expectedRevision : U64)
      (nowUnixMs : ℤ)
  | stopRecording (scope : TenantScope) (recordingId : RecordingId) (expectedRevision : U64)
      (nowUnixMs : ℤ)
  | expireRecording (scope : TenantScope) (recordingId : RecordingId) (expectedRevision : U64)
      (nowUnixMs : ℤ)
  | deleteRecording (scope : TenantScope) (recordingId : RecordingId) (expectedRevision : U64)
      (nowUnixMs : ℤ)
  | setRecordingConsentWithEvent (scope : TenantScope) (recordingId : RecordingId)
      (expectedRevision : U64) (participant : PrincipalRef) (state : RecordingConsentState)
      (nowUnixMs : ℤ) (event : Option EventEnvelope)
  | startRecordingWithEvent (scope : TenantScope) (recordingId : RecordingId)
      (expectedRevision : U64) (nowUnixMs : ℤ) (event : EventEnvelope)
  | stopRecordingWithEvent (scope : TenantScope) (recordingId : RecordingId)
      (expectedRevision : U64) (nowUnixMs : ℤ) (event : EventEnvelope)
  | expireRecordingWithEvent (scope : TenantScope) (recordingId : RecordingId)
      (expectedRevision : U64) (nowUnixMs : ℤ) (event : EventEnvelope)
  | deleteRecordingWithEvent (scope : TenantScope) (recordingId : RecordingId)
      (expectedRevision : U64) (nowUnixMs : ℤ) (event : EventEnvelope)
  | setRecordingConsentWithEventAndProviderStop (scope : TenantScope) (recordingId : RecordingId)
      (expectedRevision : U64) (participant : PrincipalRef) (state : RecordingConsentState)
      (nowUnixMs : ℤ) (event : EventEnvelope)
  | startRecordingWithEventAndProviderOperation (scope : TenantScope) (recordingId : RecordingId)
      (expectedRevision : U64) (nowUnixMs : ℤ) (event : EventEnvelope)
  | stopRecordingWithEventAndProviderOperation (scope : TenantScope) (recordingId : RecordingId)
      (expectedRevision : U64) (nowUnixMs : ℤ) (event : EventEnvelope)
  | expireRecordingWithEventAndProviderOperation (scope : TenantScope) (recordingId : RecordingId)
      (expectedRevision : U64) (nowUnixMs : ℤ) (event : EventEnvelope)
  | deleteRecordingWithEventAndProviderOperation (scope : TenantScope) (recordingId : RecordingId)
      (expectedRevision : U64) (nowUnixMs : ℤ) (event : EventEnvelope)
  | prepareRecordingProviderOperation (record : RecordingProviderOperationRecord)
  | markRecordingProviderOperationApplied (request : RecordingProviderRequest)
  | retryRecordingProviderOperation (request : RecordingProviderRequest) (nextAttemptUnixMs : ℤ)
  | markRecordingProviderOperationFailed (request : RecordingProviderRequest)

def RecordingOp.run (s : MemoryState) : RecordingOp → MemoryState
  | .persistRecording recording => ((s.persistRecording recording).commit s).2
  | .setRecordingConsent scope id revision participant state now =>
    ((s.transitionRecording (scope, id) revision
      (applyRecordingConsent · participant state now)).commit s).2
  | .startRecording scope id revision now =>
    ((s.transitionRecording (scope, id) revision (Ucr.startRecording · now)).commit s).2
  | .stopRecording scope id revision now =>
    ((s.transitionRecording (scope, id) revision (Ucr.stopRecording · now)).commit s).2
  | .expireRecording scope id revision now =>
    ((s.transitionRecording (scope, id) revision (Ucr.expireRecording · now)).commit s).2
  | .deleteRecording scope id revision now =>
    ((s.transitionRecording (scope, id) revision (Ucr.deleteRecording · now)).commit s).2
  | .setRecordingConsentWithEvent scope id revision participant state now event =>
    (s.transitionRecordingWithEvent (scope, id) revision
      (applyRecordingConsent · participant state now) event).2
  | .startRecordingWithEvent scope id revision now event =>
    (s.transitionRecordingWithEvent (scope, id) revision (Ucr.startRecording · now) (some event)).2
  | .stopRecordingWithEvent scope id revision now event =>
    (s.transitionRecordingWithEvent (scope, id) revision (Ucr.stopRecording · now) (some event)).2
  | .expireRecordingWithEvent scope id revision now event =>
    (s.transitionRecordingWithEvent (scope, id) revision (Ucr.expireRecording · now) (some event)).2
  | .deleteRecordingWithEvent scope id revision now event =>
    (s.transitionRecordingWithEvent (scope, id) revision (Ucr.deleteRecording · now) (some event)).2
  | .setRecordingConsentWithEventAndProviderStop scope id revision participant state now event =>
    (s.transitionRecordingWithEventAndProviderOperation (scope, id) revision
      (applyRecordingConsent · participant state now) event .stop).2
  | .startRecordingWithEventAndProviderOperation scope id revision now event =>
    (s.transitionRecordingWithEventAndProviderOperation (scope, id) revision
      (Ucr.startRecording · now) event .start).2
  | .stopRecordingWithEventAndProviderOperation scope id revision now event =>
    (s.transitionRecordingWithEventAndProviderOperation (scope, id) revision
      (Ucr.stopRecording · now) event .stop).2
  | .expireRecordingWithEventAndProviderOperation scope id revision now event =>
    (s.transitionRecordingWithEventAndProviderOperation (scope, id) revision
      (Ucr.expireRecording · now) event .delete).2
  | .deleteRecordingWithEventAndProviderOperation scope id revision now event =>
    (s.transitionRecordingWithEventAndProviderOperation (scope, id) revision
      (Ucr.deleteRecording · now) event .delete).2
  | .prepareRecordingProviderOperation record =>
    ((s.prepareRecordingProviderOperation record).commit s).2
  | .markRecordingProviderOperationApplied request =>
    ((s.markRecordingProviderOperationApplied request).commit s).2
  | .retryRecordingProviderOperation request nextAttemptUnixMs =>
    ((s.retryRecordingProviderOperation request nextAttemptUnixMs).commit s).2
  | .markRecordingProviderOperationFailed request =>
    ((s.markRecordingProviderOperationFailed request).commit s).2

end Ucr
