import Ucr.Objects.Event
import Ucr.Protocol.Message

-- Canonical commands, events, subscriptions and sync sessions; the cursors and the byte budget of
-- event delivery.

namespace Ucr

open Except Encoding

def maxIdempotencyKeyLen : ℕ := 256
def maxCommandPayloadLen : ℕ := defaultMaxPayloadLen
def maxEventPayloadLen : ℕ := defaultMaxPayloadLen
def maxEventIntegrityMetadataLen : ℕ := 64 * 1024
def maxEventSubscriptionFilters : ℕ := 64
def maxEventBatchItems : ℕ := 256
def maxEventDeliverySize : ℕ :=
  maxEventPayloadLen + maxEventIntegrityMetadataLen +
    maxProtocolExtensions * (maxNamespacedIdentifierLen + maxExtensionPayloadLen) +
    9 * OpaqueId.maxLen + maxIdempotencyKeyLen + maxNamespacedIdentifierLen + 64
def maxEventDeliveryBatchBytes : ℕ := maxEventDeliverySize
def maxEventDeliveryAttempts : U32 := 100
def maxEventConsumerCursorLen : ℕ := 64
def maxWebhookUriLen : ℕ := 2048
def eventRetryBaseMs : ℕ := 1000
def eventRetryMaxMs : ℕ := 60000
def maxPartialSyncConversations : ℕ := 256
def eventConsumerCursorV1Domain : Bytes := utf8 "UCR-EVENT-CONSUMER-CURSOR-V1\x00"
def antiEntropySessionBindingV1Domain : Bytes :=
  utf8 "ucr:anti-entropy-session-binding:sha256:v1\x00"
def maxAntiEntropyPageItems : ℕ := 256
def maxAntiEntropyCursorLen : ℕ := 4096
def eventFingerprintSha256V1Domain : Bytes := utf8 "ucr:event-fingerprint:sha256:v1\x00"

inductive CommandError
  | invalidCommandType
  | missingIdempotencyKey
  | emptyIdempotencyKey
  | idempotencyKeyTooLong
  | payloadTooLarge
  | invalidSchemaVersion
  | invalidExtension
  | duplicateExtension
  | tooManyExtensions
  | extensionPayloadTooLarge
  | idempotencyConflict

inductive EventError
  | invalidEventType
  | idempotencyKeyTooLong
  | payloadTooLarge
  | integrityMetadataTooLarge
  | invalidSchemaVersion
  | invalidExtension
  | duplicateExtension
  | tooManyExtensions
  | extensionPayloadTooLarge

inductive EventApiError
  | invalidFilter
  | duplicateFilter
  | tooManyFilters
  | invalidMaxInFlight
  | invalidMaxAttempts
  | invalidWebhookUri
  | invalidCursor
  | invalidBatchSize

inductive SyncError
  | sameEndpoint
  | invalidInitialState
  | fullSelectionHasConversations
  | partialSelectionEmpty
  | tooManyConversations
  | duplicateConversation
  | illegalTransition

inductive AntiEntropyError
  | sessionNotActive
  | partialSelectionUnsupported
  | invalidPageSize
  | tooManySummaries
  | emptyCursor
  | cursorTooLarge

def mapCommandExtensionError : ExtensionError → CommandError
  | .invalidNamespace | .unsupportedCritical => .invalidExtension
  | .tooManyExtensions => .tooManyExtensions
  | .duplicateExtension => .duplicateExtension
  | .payloadTooLarge => .extensionPayloadTooLarge

def validateCommand (command : CommandEnvelope) : Except CommandError Unit := do
  (validateNamespacedIdentifier command.commandType).mapError fun _ => .invalidCommandType
  let key ← command.correlation.idempotencyKey.okOr .missingIdempotencyKey
  rejectIf (key = "") .emptyIdempotencyKey
  rejectIf (key.utf8ByteSize > maxIdempotencyKeyLen) .idempotencyKeyTooLong
  rejectIf (command.payload.length > maxCommandPayloadLen) .payloadTooLarge
  rejectIf (command.schemaVersion.major = 0) .invalidSchemaVersion
  let _ ← (canonicalProtocolExtensions command.extensions).mapError mapCommandExtensionError

def canonicalCommand (command : CommandEnvelope) : Except CommandError CommandEnvelope := do
  validateCommand command
  let extensions ←
    (canonicalProtocolExtensions command.extensions).mapError mapCommandExtensionError
  return { command with extensions := extensions }

-- The command an incoming one repeats, or nothing if the two are unrelated.
def compareCommandIdempotency (original incoming : CommandEnvelope) :
    Except CommandError (Option CommandId) := do
  let original ← canonicalCommand original
  let incoming ← canonicalCommand incoming
  if original.scope ≠ incoming.scope ∨
      original.correlation.idempotencyKey ≠ incoming.correlation.idempotencyKey then
    return none
  rejectIf (¬(original.commandType = incoming.commandType ∧ original.payload = incoming.payload ∧
    original.schemaVersion = incoming.schemaVersion ∧ original.extensions = incoming.extensions))
    .idempotencyConflict
  return some original.commandId

def acceptedCommandReceipt (commandId : CommandId) : CommandReceipt :=
  ⟨commandId, .accepted, none, runtimeEnvelopeSchemaV1, []⟩

def duplicateCommandReceipt (commandId originalCommandId : CommandId) : CommandReceipt :=
  ⟨commandId, .duplicate, some originalCommandId, runtimeEnvelopeSchemaV1, []⟩

def mapEventExtensionError : ExtensionError → EventError
  | .invalidNamespace | .unsupportedCritical => .invalidExtension
  | .tooManyExtensions => .tooManyExtensions
  | .duplicateExtension => .duplicateExtension
  | .payloadTooLarge => .extensionPayloadTooLarge

variable (event : EventEnvelope)

def validateEvent : Except EventError Unit := do
  (validateNamespacedIdentifier event.eventType).mapError fun _ => .invalidEventType
  rejectIf (event.correlation.idempotencyKey.any (·.utf8ByteSize > maxIdempotencyKeyLen))
    .idempotencyKeyTooLong
  rejectIf (event.payload.length > maxEventPayloadLen) .payloadTooLarge
  rejectIf (event.integrityMetadata.length > maxEventIntegrityMetadataLen) .integrityMetadataTooLarge
  rejectIf (event.schemaVersion.major = 0) .invalidSchemaVersion
  let _ ← (canonicalProtocolExtensions event.extensions).mapError mapEventExtensionError

def canonicalEvent : Except EventError EventEnvelope := do
  validateEvent event
  let extensions ← (canonicalProtocolExtensions event.extensions).mapError mapEventExtensionError
  return { event with extensions := extensions }

-- The filters in order, each with its predecessor.
def validateFilters : Option String → List String → Except EventApiError Unit
  | _, [] => return
  | previous, filter :: rest => do
    (validateNamespacedIdentifier filter).mapError fun _ => .invalidFilter
    rejectIf (previous = some filter) .duplicateFilter
    validateFilters (some filter) rest

def validateWebhookUri (uri : String) : Except EventApiError Unit := do
  rejectIf (uri.utf8ByteSize > maxWebhookUriLen ∨ ¬uri.toList.all (·.toNat < 128) ∨
    ¬startsWith uri "https://" ∨ '@' ∈ uri.toList ∨ '?' ∈ uri.toList ∨ '#' ∈ uri.toList)
    .invalidWebhookUri
  let authority := (uri.toList.drop 8).takeWhile (· ≠ '/')
  rejectIf (authority.isEmpty ∨ authority.head? = some '.' ∨ authority.getLast? = some '.')
    .invalidWebhookUri

variable (subscription : EventSubscription)

def validateEventSubscription : Except EventApiError Unit := do
  rejectIf (subscription.eventTypes.length > maxEventSubscriptionFilters) .tooManyFilters
  validateFilters none (subscription.eventTypes.sortOn id)
  rejectIf (subscription.maxInFlight = 0 ∨ subscription.maxInFlight.val > maxEventBatchItems)
    .invalidMaxInFlight
  rejectIf (subscription.maxAttempts = 0 ∨ subscription.maxAttempts > maxEventDeliveryAttempts)
    .invalidMaxAttempts
  match subscription.mode with
  | .durableStream => rejectIf subscription.webhookUri.isSome .invalidWebhookUri
  | .webhook => do
    rejectIf (subscription.maxInFlight ≠ 1) .invalidMaxInFlight
    let uri ← subscription.webhookUri.okOr .invalidWebhookUri
    validateWebhookUri uri

def canonicalEventSubscription :
    Except EventApiError EventSubscription := do
  validateEventSubscription subscription
  return { subscription with eventTypes := subscription.eventTypes.sortOn id }

def validateEventConsumerCursor (cursor : EventConsumerCursor) : Except EventApiError Unit :=
  rejectIf (cursor.token.isEmpty ∨ cursor.token.length > maxEventConsumerCursorLen) .invalidCursor

def validateEventBatchSize (maxItems : ℕ) : Except EventApiError Unit :=
  rejectIf (maxItems = 0 ∨ maxItems > maxEventBatchItems) .invalidBatchSize

def eventRetryDelayMs (nextAttempt : U32) : ℕ :=
  min (eventRetryBaseMs * 2 ^ min (nextAttempt.val - 2) 31) eventRetryMaxMs

def eventConsumerCursorToken (scope : TenantScope) (subscription : EventSubscription)
    (generation : U64) (endPosition : ℕ) (attempt : U32) : EventConsumerCursor :=
  let scopeBytes := lengthPrefixed 4 scope.tenantId.asWireBytes ++
    match scope.namespaceId with
    | some namespaceId => 1 :: lengthPrefixed 4 namespaceId.asWireBytes
    | none => [0]
  ⟨(sha256 (eventConsumerCursorV1Domain ++ scopeBytes ++
    lengthPrefixed 4 subscription.subscriptionId.asWireBytes ++ beBytes 8 generation ++
    beBytes 8 endPosition ++ beBytes 4 attempt)).bytes⟩

def OpaqueId.wireLen (id : OpaqueId) : ℕ :=
  id.asWireBytes.length

-- The weight one event has in a delivery batch: all its variable-length fields and a fixed share.
def eventDeliverySize : Except EventError ℕ := do
  validateEvent event
  return event.eventId.wireLen + event.scope.tenantId.wireLen +
    event.scope.namespaceId.elim 0 (·.wireLen) + event.eventType.utf8ByteSize +
    event.payload.length + event.actor.actorId.wireLen + event.actor.onBehalfOf.elim 0 (·.wireLen) +
    event.sourceDevice.deviceId.wireLen + event.sourceDevice.identityId.wireLen +
    event.correlation.correlationId.wireLen + event.correlation.causationId.elim 0 (·.wireLen) +
    event.correlation.idempotencyKey.elim 0 (·.utf8ByteSize) + event.integrityMetadata.length + 64 +
    (event.extensions.map fun extension =>
      extension.name.utf8ByteSize + extension.payload.length).sum

-- The size of a batch with one more event, or nothing if that event has to start the next batch.
def eventDeliveryBatchNextSize (currentBytes : ℕ) (event : EventEnvelope) :
    Except EventError (Option ℕ) := do
  let eventBytes ← eventDeliverySize event
  let next := currentBytes + eventBytes
  return if next ≤ maxEventDeliveryBatchBytes then some next else none

-- The source searches the filters by bisection: those of a canonical subscription are sorted.
def eventMatchesSubscription (event : EventEnvelope) : Bool :=
  subscription.scope = event.scope &&
    (subscription.eventTypes.isEmpty || event.eventType ∈ subscription.eventTypes) &&
    (canonicalEvent event).isOk

def actorKindCode : ActorKind → UInt8
  | .person => 1
  | .aiAgent => 2
  | .bot => 3
  | .organization => 4
  | .system => 5

def eventFingerprint : Except EventError Digest := do
  let event ← canonicalEvent event
  let hashId (id : OpaqueId) := lengthPrefixed 8 id.asWireBytes
  let hashString (text : String) := lengthPrefixed 8 (utf8 text)
  return sha256 (eventFingerprintSha256V1Domain ++ hashId event.eventId ++
    hashId event.scope.tenantId ++ pushOptional hashId event.scope.namespaceId ++
    hashString event.eventType ++ lengthPrefixed 8 event.payload ++ hashId event.actor.actorId ++
    [actorKindCode event.actor.kind] ++ pushOptional hashId event.actor.onBehalfOf ++
    hashId event.sourceDevice.deviceId ++ hashId event.sourceDevice.identityId ++
    beBytes 8 (event.wallTimeUnixMs % 2 ^ 64).toNat ++ beBytes 8 event.logicalOrder ++
    hashId event.correlation.correlationId ++ pushOptional hashId event.correlation.causationId ++
    pushOptional hashString event.correlation.idempotencyKey ++
    beBytes 4 event.schemaVersion.major ++ beBytes 4 event.schemaVersion.minor ++
    lengthPrefixed 8 event.integrityMetadata ++ beBytes 8 event.extensions.length ++
    event.extensions.flatMap fun extension => hashString extension.name ++
      [if extension.critical then 1 else 0] ++ lengthPrefixed 8 extension.payload)

def canonicalSyncSession (session : SyncSession) : Except SyncError SyncSession := do
  rejectIf (session.sourceEndpointId = session.targetEndpointId) .sameEndpoint
  rejectIf (session.state ≠ .prepared) .invalidInitialState
  rejectIf (session.selection.conversationIds.length > maxPartialSyncConversations)
    .tooManyConversations
  match session.selection.mode with
  | .full => rejectIf (¬session.selection.conversationIds.isEmpty) .fullSelectionHasConversations
  | .partialSelection =>
    rejectIf session.selection.conversationIds.isEmpty .partialSelectionEmpty
  rejectIf (¬session.selection.conversationIds.Nodup) .duplicateConversation
  return { session with selection := { session.selection with
    conversationIds := session.selection.conversationIds.sortOn (·.value) } }

def canTransitionSync : SyncState → SyncState → Bool
  | .prepared, .active | .paused, .active => true
  | .prepared, .cancelled | .prepared, .failed => true
  | .active, .cancelled | .active, .failed => true
  | .paused, .cancelled | .paused, .failed => true
  | .active, .paused | .active, .completed => true
  | .paused, .completed => true
  | _, _ => false

def validateSyncTransition (current next : SyncState) : Except SyncError Unit :=
  rejectIf (¬canTransitionSync current next) .illegalTransition

def validateAntiEntropySession (session : SyncSession) : Except AntiEntropyError Unit := do
  rejectIf (session.state ≠ .active) .sessionNotActive
  rejectIf (session.selection.mode = .partialSelection) .partialSelectionUnsupported

def validateAntiEntropyPageSize (maxItems : ℕ) : Except AntiEntropyError Unit :=
  rejectIf (maxItems = 0 ∨ maxItems > maxAntiEntropyPageItems) .invalidPageSize

def validateAntiEntropySummaryCount (count : ℕ) : Except AntiEntropyError Unit :=
  rejectIf (count > maxAntiEntropyPageItems) .tooManySummaries

def validateAntiEntropyCursor (token : Bytes) : Except AntiEntropyError Unit := do
  rejectIf token.isEmpty .emptyCursor
  rejectIf (token.length > maxAntiEntropyCursorLen) .cursorTooLarge

def antiEntropySessionBinding (session : SyncSession) : Bytes :=
  let hashId (id : OpaqueId) := lengthPrefixed 8 id.asWireBytes
  (sha256 (antiEntropySessionBindingV1Domain ++ hashId session.sessionId ++
    hashId session.scope.tenantId ++ pushOptional hashId session.scope.namespaceId ++
    hashId session.sourceEndpointId ++ hashId session.targetEndpointId)).bytes

end Ucr
