import Ucr.Objects.Basic

-- Recordings of calls: their consent, their lifetime, and the work they ask a provider for.

namespace Ucr

inductive RecordingState
  | waitingForConsent
  | ready
  | active
  | stopped
  | expired
  | deleted
deriving DecidableEq

inductive RecordingConsentState
  | pending
  | granted
  | denied
  | revoked
deriving DecidableEq

structure RecordingPolicy where
  requireAllParticipantConsent : Bool
  notifyAllParticipants : Bool
  retentionSeconds : U64
  policyReference : Option String
deriving DecidableEq

structure RecordingConsent where
  participant : PrincipalRef
  state : RecordingConsentState
  decidedAtUnixMs : ℤ
deriving DecidableEq

structure RecordingSession where
  scope : TenantScope
  recordingId : RecordingId
  callId : CallId
  requestedBy : PrincipalRef
  policy : RecordingPolicy
  state : RecordingState
  consents : List RecordingConsent
  requestedAtUnixMs : ℤ
  startedAtUnixMs : Option ℤ
  stoppedAtUnixMs : Option ℤ
  expiresAtUnixMs : ℤ
  revision : U64
deriving DecidableEq

inductive RecordingProviderOperation
  | start
  | stop
  | delete
deriving DecidableEq

structure RecordingProviderRequest where
  scope : TenantScope
  recordingId : RecordingId
  callId : CallId
  lifecycleRevision : U64
  operation : RecordingProviderOperation
  expiresAtUnixMs : ℤ
deriving DecidableEq

def RecordingProviderRequest.forSession (session : RecordingSession)
    (operation : RecordingProviderOperation) : RecordingProviderRequest where
  scope := session.scope
  recordingId := session.recordingId
  callId := session.callId
  lifecycleRevision := session.revision
  operation := operation
  expiresAtUnixMs := session.expiresAtUnixMs

inductive RecordingProviderOperationState
  | pending
  | applied
  | failed
deriving DecidableEq

structure RecordingProviderOperationRecord where
  request : RecordingProviderRequest
  state : RecordingProviderOperationState
  attempts : U32
  availableAtUnixMs : ℤ
deriving DecidableEq

end Ucr
