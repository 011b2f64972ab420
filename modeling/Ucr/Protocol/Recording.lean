import Ucr.Lib.Except
import Ucr.Objects.Recording

-- The life of a recording: consent, start, stop, expiry and deletion.

namespace Ucr

open Except

def minRecordingRetentionSeconds : U64 := 60
def maxRecordingRetentionSeconds : U64 := 31536000
def maxRecordingPolicyReferenceBytes : ℕ := 512
def maxRecordingConsents : ℕ := 1024

inductive RecordingProtocolError
  | invalidPolicy
  | invalidSession
  | invalidConsent
  | invalidTransition
  | consentRequired
  | expired
  | overflow
deriving DecidableEq

namespace RecordingSession

variable (session : RecordingSession)

-- A decision is made while the session lasts, and a pending consent has no time.
def evident (consent : RecordingConsent) : Bool :=
  match consent.state with
  | .pending => consent.decidedAtUnixMs = 0
  | .granted | .denied | .revoked =>
    session.requestedAtUnixMs ≤ consent.decidedAtUnixMs &&
      consent.decidedAtUnixMs < session.expiresAtUnixMs

def anyExplicitDenial : Bool :=
  session.consents.any fun consent => consent.state = .denied || consent.state = .revoked

def allGranted : Bool :=
  session.consents.all (·.state = .granted)

def recordingAllowed : Bool :=
  (!session.policy.requireAllParticipantConsent || session.allGranted) && !session.anyExplicitDenial

-- What the state of a session says about its consents and times.
def consistent : Bool :=
  match session.state with
  | .waitingForConsent =>
    !session.recordingAllowed && session.startedAtUnixMs.isNone && session.stoppedAtUnixMs.isNone
  | .ready =>
    session.recordingAllowed && session.startedAtUnixMs.isNone && session.stoppedAtUnixMs.isNone
  | .active =>
    session.recordingAllowed && session.startedAtUnixMs.isSome && session.stoppedAtUnixMs.isNone
  | .stopped => session.stoppedAtUnixMs.isSome
  | .expired | .deleted => true

end RecordingSession

def validateRecordingSession (session : RecordingSession) : Except RecordingProtocolError Unit := do
  rejectIf (session.revision = 0 ∨ session.requestedAtUnixMs < 0 ∨
    ¬session.policy.notifyAllParticipants ∨
    session.policy.retentionSeconds < minRecordingRetentionSeconds ∨
    maxRecordingRetentionSeconds < session.policy.retentionSeconds ∨
    (session.policy.policyReference.any fun value =>
      value.isEmpty || value.utf8ByteSize > maxRecordingPolicyReferenceBytes) ∨
    session.consents.length > maxRecordingConsents) .invalidPolicy
  let retentionMs : ℤ := session.policy.retentionSeconds.val * 1000
  rejectIf (retentionMs > maxI64) .overflow
  let expectedExpiry := session.requestedAtUnixMs + retentionMs
  rejectIf (expectedExpiry > maxI64) .overflow
  rejectIf (session.expiresAtUnixMs ≠ expectedExpiry) .invalidSession
  rejectIf (¬(session.consents.map (·.participant)).Nodup) .invalidConsent
  rejectIf (¬session.consents.all session.evident) .invalidConsent
  rejectIf (¬session.consistent) .invalidSession

def nextRevision (session : RecordingSession) : Except RecordingProtocolError U64 :=
  session.revision.checkedSucc.okOr .overflow

-- The consents with the decision of one participant, if they are among them.
def decideConsent (participant : PrincipalRef) (state : RecordingConsentState) (nowUnixMs : ℤ) :
    List RecordingConsent → Option (List RecordingConsent)
  | [] => none
  | consent :: rest =>
    if consent.participant = participant then
      some ({ consent with state := state, decidedAtUnixMs := nowUnixMs } :: rest)
    else
      (decideConsent participant state nowUnixMs rest).map (consent :: ·)

-- A decision against the recording stops it while it runs; before that, decisions make it ready or
-- not.
def stateAfterConsent (session : RecordingSession) (state : RecordingConsentState)
    (nowUnixMs : ℤ) : RecordingSession :=
  if session.state = .active ∧ state ≠ .granted then
    { session with state := .stopped, stoppedAtUnixMs := some nowUnixMs }
  else if session.state ≠ .active then
    { session with state := if session.recordingAllowed then .ready else .waitingForConsent }
  else
    session

variable (current : RecordingSession)

def applyRecordingConsent (participant : PrincipalRef)
    (state : RecordingConsentState) (nowUnixMs : ℤ) :
    Except RecordingProtocolError RecordingSession := do
  validateRecordingSession current
  rejectIf (state = .pending ∨ nowUnixMs < current.requestedAtUnixMs ∨
    nowUnixMs ≥ current.expiresAtUnixMs) .invalidConsent
  rejectIf (current.state = .stopped ∨ current.state = .expired ∨ current.state = .deleted)
    .invalidTransition
  let consents ← (decideConsent participant state nowUnixMs current.consents).okOr .invalidConsent
  let decided := stateAfterConsent { current with consents := consents } state nowUnixMs
  let revision ← nextRevision current
  let next := { decided with revision := revision }
  validateRecordingSession next
  return next

def startRecording (nowUnixMs : ℤ) :
    Except RecordingProtocolError RecordingSession := do
  validateRecordingSession current
  rejectIf (nowUnixMs < current.requestedAtUnixMs ∨ nowUnixMs ≥ current.expiresAtUnixMs) .expired
  rejectIf (current.state = .waitingForConsent) .consentRequired
  rejectIf (current.state ≠ .ready) .invalidTransition
  let revision ← nextRevision current
  let next := { current with
    state := .active, startedAtUnixMs := some nowUnixMs, revision := revision }
  validateRecordingSession next
  return next

def stopRecording (nowUnixMs : ℤ) :
    Except RecordingProtocolError RecordingSession := do
  validateRecordingSession current
  rejectIf (nowUnixMs < current.requestedAtUnixMs ∨ nowUnixMs > current.expiresAtUnixMs)
    .invalidTransition
  rejectIf (¬(current.state = .waitingForConsent ∨ current.state = .ready ∨
    current.state = .active)) .invalidTransition
  let revision ← nextRevision current
  let next := { current with
    state := .stopped, stoppedAtUnixMs := some nowUnixMs, revision := revision }
  validateRecordingSession next
  return next

-- The stop time of a recording that ends at a given time, where it is still running.
def stoppedBy (unixMs : ℤ) : Option ℤ :=
  if current.state = .active ∧ current.stoppedAtUnixMs.isNone then some unixMs
  else current.stoppedAtUnixMs

def expireRecording (nowUnixMs : ℤ) :
    Except RecordingProtocolError RecordingSession := do
  validateRecordingSession current
  rejectIf (nowUnixMs < current.expiresAtUnixMs) .invalidTransition
  rejectIf (current.state = .deleted) .invalidTransition
  if current.state = .expired then
    return current
  let revision ← nextRevision current
  let next := { current with
    state := .expired
    stoppedAtUnixMs := stoppedBy current current.expiresAtUnixMs
    revision := revision }
  validateRecordingSession next
  return next

def deleteRecording (nowUnixMs : ℤ) :
    Except RecordingProtocolError RecordingSession := do
  validateRecordingSession current
  if current.state = .deleted then
    return current
  rejectIf (nowUnixMs < current.requestedAtUnixMs) .invalidTransition
  let revision ← nextRevision current
  let next := { current with
    state := .deleted
    stoppedAtUnixMs := stoppedBy current (min nowUnixMs current.expiresAtUnixMs)
    revision := revision }
  validateRecordingSession next
  return next

end Ucr
