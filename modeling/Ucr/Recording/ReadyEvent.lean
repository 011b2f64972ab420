import Ucr.Store.EventStore

-- The event that tells that a provider has finished a recording. It is named after a hash of the
-- request to stop it.

namespace Ucr

open Encoding Except Protobuf

-- All that is hashed before the revision is text.
def readyText (label : String) (request : RecordingProviderRequest) : String :=
  "ucr.recording.ready.v1\x00" ++ label ++ "\x00" ++ request.scope.tenantId.value ++ "\x00" ++
    request.scope.namespaceId.elim "\x00" ("\x01" ++ ·.value) ++
    "\x00" ++ request.recordingId.value ++ "\x00" ++ request.callId.value

def readyPreimage (label : String) (request : RecordingProviderRequest) : Bytes :=
  utf8 (readyText label request) ++ beBytes 8 request.lifecycleRevision.val

def hexDigits (bytes : Bytes) : List Char :=
  bytes.flatMap fun byte => [Nat.digitChar (byte.toNat / 16), Nat.digitChar (byte.toNat % 16)]

def derivedRecordingReadyId (label : String) (request : RecordingProviderRequest) :
    Except CanonicalErrorCode OpaqueId :=
  (OpaqueId.new ("recording-ready-" ++ label ++ "-" ++
    String.ofList (hexDigits (sha256 (readyPreimage label request)).bytes))).okOr .internal

def recordingProviderReadyEvent (recording : RecordingSession) (request : RecordingProviderRequest)
    (readyAtUnixMs : ℤ) (recoveredAfterUpgrade : Bool) : Except CanonicalErrorCode EventEnvelope := do
  rejectIf (recording.scope ≠ request.scope ∨ recording.recordingId ≠ request.recordingId ∨
    recording.callId ≠ request.callId ∨ recording.revision < request.lifecycleRevision ∨
    recording.state ∉ [.stopped, .expired, .deleted] ∨ request.operation ≠ .stop ∨ readyAtUnixMs < 0)
    .invalidArgument
  let eventId ← derivedRecordingReadyId "event" request
  let actorId ← derivedRecordingReadyId "actor" request
  let deviceId ← derivedRecordingReadyId "device" request
  let identityId ← derivedRecordingReadyId "identity" request
  return {
    eventId
    scope := request.scope
    eventType := "ucr.recording.ready"
    payload :=
      messageField 1 (pbScope request.scope) ++
        messageField 2 (pbOpaque request.recordingId) ++
        messageField 3 (pbOpaque request.callId) ++
        uint64Field 4 request.lifecycleRevision.val ++
        int64Field 5 readyAtUnixMs ++
        uint64Field 6 recoveredAfterUpgrade.toNat
    actor := ⟨actorId, .system, some recording.requestedBy.principalId⟩
    sourceDevice := ⟨deviceId, identityId⟩
    wallTimeUnixMs := readyAtUnixMs
    logicalOrder := request.lifecycleRevision
    correlation := ⟨eventId, none, some ("recording-ready:" ++ request.lifecycleRevision.val.repr)⟩
    schemaVersion := runtimeEnvelopeSchemaV1
    integrityMetadata := []
    extensions := [] }

end Ucr
