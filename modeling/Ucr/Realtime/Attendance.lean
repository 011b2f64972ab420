import Ucr.Realtime.Op
import Ucr.Store.EventStore

-- The events that tell who joined and left a call. They are named after the session and its
-- sequence.

namespace Ucr

open Except Protobuf

def attendanceEventType : AttendanceTransitionKind → String
  | .joined => "ucr.conference.attendance.joined.v1"
  | .left => "ucr.conference.attendance.left.v1"
  | .reconnected => "ucr.conference.attendance.reconnected.v1"
  | .mediaReady => "ucr.conference.attendance.media_ready.v1"

def attendanceKindSlug : AttendanceTransitionKind → String
  | .joined => "joined"
  | .left => "left"
  | .reconnected => "reconnected"
  | .mediaReady => "media-ready"

def pbAttendanceKind : AttendanceTransitionKind → ℕ
  | .joined => 1
  | .left => 2
  | .reconnected => 3
  | .mediaReady => 4

def pbPrincipalKind : PrincipalKind → ℕ
  | .person => 1
  | .device => 2
  | .serviceAccount => 3
  | .aiAgent => 4
  | .bot => 5
  | .organization => 6
  | .automation => 7
  | .externalPlatform => 8

def pbPrincipalRef (principal : PrincipalRef) : Bytes :=
  messageField 1 (pbOpaque principal.principalId) ++ uint64Field 2 (pbPrincipalKind principal.kind)

namespace AttendanceTransition

variable (t : AttendanceTransition)

def payload : Bytes :=
  messageField 1 (pbScope t.claims.scope) ++
    messageField 2 (pbOpaque t.claims.callId) ++
    messageField 3 (pbOpaque t.claims.sessionId) ++
    messageField 4 (pbPrincipalRef t.claims.participant) ++
    optionalField 5 (t.claims.deviceId.map pbOpaque) ++
    uint64Field 6 (pbAttendanceKind t.kind) ++
    int64Field 7 t.occurredAtUnixMs ++
    uint64Field 8 t.sessionSequence.val

def actor : ActorRef :=
  match t.claims.participant.kind with
  | .person => ⟨t.claims.participant.principalId, .person, none⟩
  | .aiAgent => ⟨t.claims.participant.principalId, .aiAgent, none⟩
  | .bot => ⟨t.claims.participant.principalId, .bot, none⟩
  | .organization => ⟨t.claims.participant.principalId, .organization, none⟩
  | .device | .serviceAccount | .automation | .externalPlatform =>
    ⟨t.claims.sessionId, .system, some t.claims.participant.principalId⟩

def eventIdText : String :=
  "attendance-" ++ t.claims.sessionId.value ++ "-" ++ attendanceKindSlug t.kind ++ "-" ++
    t.sessionSequence.val.repr

def idempotencyKey : String :=
  "attendance:" ++ attendanceKindSlug t.kind ++ ":" ++ t.sessionSequence.val.repr

def envelope (device : DeviceRef) (eventId : EventId) : EventEnvelope where
  eventId
  scope := t.claims.scope
  eventType := attendanceEventType t.kind
  payload := t.payload
  actor := t.actor
  sourceDevice := device
  wallTimeUnixMs := t.occurredAtUnixMs
  logicalOrder := t.sessionSequence
  correlation := ⟨t.claims.sessionId, none, some t.idempotencyKey⟩
  schemaVersion := runtimeEnvelopeSchemaV1
  integrityMetadata := []
  extensions := []

end AttendanceTransition

-- The device is the one the claims are bound to, if it is still active.
def attendanceEvent (device : Option DeviceRef) (t : AttendanceTransition) :
    Except CanonicalErrorCode EventEnvelope := do
  let device ← device.okOr .unauthenticated
  let eventId ← (OpaqueId.new t.eventIdText).okOr .internal
  (canonicalEvent (t.envelope device eventId)).mapError fun _ => .internal

end Ucr
