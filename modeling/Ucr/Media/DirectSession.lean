import Ucr.Crypto.Aead
import Ucr.Lib.Table
import Ucr.Lib.Transaction
import Ucr.Protocol.Media

-- End-to-end encrypted media between the two devices of a direct call. A session belongs to one of
-- them and to one key epoch at a time; per stream it remembers the last number it has sealed and
-- the last one it has opened.

namespace Ucr

open Except

def mediaE2eeHandshakeV1Domain : Bytes := utf8 "UCR-MEDIA-E2EE-HANDSHAKE-V1\x00"

inductive MediaE2eeBindingError
  | invalidContext
  | reusedEphemeralKey

inductive MediaE2eeError
  | authorization
  | store
  | protocol (error : MediaE2eeProtocolError)
  | crypto (error : AeadError)
  | binding (error : MediaE2eeBindingError)
  | scopeMismatch
  | participantMismatch
  | deviceMismatch
  | deviceParticipantMismatch
  | deviceUnavailable
  | deviceInactive
  | callUnavailable
  | callNotActive
  | directCallRequired
  | negotiationGenerationMismatch
  | missingNegotiation
  | negotiationBindingMismatch
  | negotiationResolve
  | negotiationResultInvalid
  | negotiatedCapabilityUnavailable
  | negotiatedParticipantsInvalid
  | negotiatedParticipantSetMismatch
  | unsupportedNegotiationExtension
  | capabilityUnavailable
  | unauthenticatedPeerSession
  | peerTrust
  | sessionBindingMismatch
  | directionMismatch
  | mediaKindMismatch
  | streamMismatch
  | codecFrameInvalid
  | replay
  | outboundSequenceRegression
  | streamCapacityExceeded
  | epochRotationInvalid
  | ephemeralReuse
  | keyEpochCapacityExceeded
  | groupCryptoUnavailable

abbrev AgreementPublicKey := { bytes : Bytes // bytes.length = 32 }

def bindMediaE2eeTranscript (context : MediaE2eeContext)
    (initiatorEphemeral responderEphemeral : AgreementPublicKey) :
    Except MediaE2eeBindingError Digest := do
  rejectIf (initiatorEphemeral = responderEphemeral) .reusedEphemeralKey
  let contextBinding ← (mediaE2eeContextBinding context).mapError fun _ => .invalidContext
  return sha256 (mediaE2eeHandshakeV1Domain ++ contextBinding.bytes ++ initiatorEphemeral.val ++
    responderEphemeral.val)

-- The two traffic keys of an authenticated session, with the transcript they were derived from.
structure EstablishedSession (Key : Type) where
  transcriptBinding : Digest
  outbound : Key
  inbound : Key
  authenticatedPeerDeviceId : Option DeviceId

inductive DirectRole
  | initiator
  | responder

namespace DirectRole

def peer (role : DirectRole) (context : MediaE2eeContext) : PrincipalRef :=
  match role with
  | .initiator => context.responder
  | .responder => context.initiator

def peerDevice (role : DirectRole) (context : MediaE2eeContext) : DeviceId :=
  match role with
  | .initiator => context.responderDeviceId
  | .responder => context.initiatorDeviceId

end DirectRole

def directRole (localPrincipal : ScopedPrincipal) (localDeviceId : DeviceId)
    (context : MediaE2eeContext) : Except MediaE2eeError DirectRole :=
  if localPrincipal.scope ≠ context.scope then
    .error .scopeMismatch
  else if localPrincipal.principal = context.initiator ∧ localDeviceId = context.initiatorDeviceId then
    .ok .initiator
  else if localPrincipal.principal = context.responder ∧ localDeviceId = context.responderDeviceId then
    .ok .responder
  else if localPrincipal.principal = context.initiator ∨
      localPrincipal.principal = context.responder then
    .error .deviceMismatch
  else
    .error .participantMismatch

structure StreamCursorKey where
  mediaKind : MediaKind
  streamId  : OpaqueId
deriving DecidableEq

structure MediaE2eeSession (Key : Type) where
  localPrincipal : ScopedPrincipal
  localDeviceId : DeviceId
  context : CanonicalMediaE2eeContext
  established : EstablishedSession Key
  usedEphemerals : List AgreementPublicKey
  outboundSequences : Table StreamCursorKey U64
  inboundSequences : Table StreamCursorKey U64

-- What the call record, the negotiation, the devices, their keys and the permissions answer while a
-- call runs: the authority behind the context, the peer's current key, and the permission.
structure MediaAuthority where
  authority : Except MediaE2eeError Unit
  peer : Except MediaE2eeError Unit
  authorization : Except MediaE2eeError Unit

def requireNextOutboundSequence (sequences : Table StreamCursorKey U64) (key : StreamCursorKey)
    (sequence : U64) : Except MediaE2eeError Unit :=
  rejectIf ((sequences.get key).any (sequence ≤ ·)) .outboundSequenceRegression

def requireStreamCapacity (sequences : Table StreamCursorKey U64) (key : StreamCursorKey) :
    Except MediaE2eeError Unit :=
  rejectIf (sequences.get key = none ∧ sequences.entries.length ≥ maxMediaStreamsPerEpoch)
    .streamCapacityExceeded

def sameContextExceptEpoch (left right : MediaE2eeContext) : Bool :=
  left.scope = right.scope ∧ left.callId = right.callId ∧ left.initiator = right.initiator ∧
    left.responder = right.responder ∧ left.initiatorDeviceId = right.initiatorDeviceId ∧
    left.responderDeviceId = right.responderDeviceId ∧ left.negotiationRef = right.negotiationRef ∧
    left.negotiationGeneration = right.negotiationGeneration ∧ left.cryptoSuite = right.cryptoSuite

variable {Key : Type}

-- What a call of one device works on: its session, and what has been encrypted so far under any
-- key.
structure Endpoint (Key : Type) where
  session : MediaE2eeSession Key
  made    : List (Aead.Box Key AeadNonce)

abbrev MediaCall (Key α : Type) := InPlace (Endpoint Key) MediaE2eeError α

namespace MediaE2eeSession

def rotate (session : MediaE2eeSession Key) (answers : MediaAuthority)
    (nextContext : MediaE2eeContext) (nextSession : EstablishedSession Key)
    (initiatorEphemeral responderEphemeral : AgreementPublicKey) :
    Except MediaE2eeError (MediaE2eeSession Key) := do
  let nextContext ← (canonicalMediaE2eeContext nextContext).mapError .protocol
  rejectIf (¬sameContextExceptEpoch session.context.toMediaE2eeContext
    nextContext.toMediaE2eeContext) .epochRotationInvalid
  let epoch ← session.context.keyEpoch.checkedSucc.okOr .epochRotationInvalid
  rejectIf (nextContext.keyEpoch ≠ epoch) .epochRotationInvalid
  rejectIf (session.usedEphemerals.length / 2 ≥ maxMediaKeyEpochsPerSession)
    .keyEpochCapacityExceeded
  rejectIf (initiatorEphemeral = responderEphemeral ∨ initiatorEphemeral ∈ session.usedEphemerals ∨
    responderEphemeral ∈ session.usedEphemerals) .ephemeralReuse
  answers.authority
  let role ← directRole session.localPrincipal session.localDeviceId nextContext.toMediaE2eeContext
  rejectIf (nextSession.authenticatedPeerDeviceId ≠
    some (role.peerDevice nextContext.toMediaE2eeContext)) .unauthenticatedPeerSession
  answers.peer
  let binding ← (bindMediaE2eeTranscript nextContext.toMediaE2eeContext initiatorEphemeral
    responderEphemeral).mapError .binding
  rejectIf (nextSession.transcriptBinding ≠ binding) .sessionBindingMismatch
  return { session with
    context := nextContext
    established := nextSession
    usedEphemerals := session.usedEphemerals ++ [initiatorEphemeral, responderEphemeral]
    outboundSequences := ∅
    inboundSequences := ∅ }

-- What a stream descriptor says of the call and the source.
structure StreamBinding where
  scope : TenantScope
  callId : CallId
  streamId : OpaqueId
  source : PrincipalRef
  negotiationRef : OpaqueId
  negotiationGeneration : U64

def requireDescriptorBinding (session : MediaE2eeSession Key) (answers : MediaAuthority)
    (stream : StreamBinding) (outbound : Bool) : Except MediaE2eeError Unit := do
  rejectIf (stream.scope ≠ session.context.scope ∨ stream.callId ≠ session.context.callId)
    .scopeMismatch
  rejectIf (stream.negotiationRef ≠ session.context.negotiationRef ∨
    stream.negotiationGeneration ≠ session.context.negotiationGeneration) .negotiationBindingMismatch
  let role ← directRole session.localPrincipal session.localDeviceId
    session.context.toMediaE2eeContext
  let expectedSource := if outbound then session.localPrincipal.principal
    else role.peer session.context.toMediaE2eeContext
  rejectIf (stream.source ≠ expectedSource) .directionMismatch
  rejectIf (stream.streamId.asWireBytes = []) .streamMismatch
  answers.authority
  answers.peer
  answers.authorization

end MediaE2eeSession

def AudioStreamDescriptor.binding (descriptor : AudioStreamDescriptor) :
    MediaE2eeSession.StreamBinding where
  scope := descriptor.scope
  callId := descriptor.callId
  streamId := descriptor.streamId
  source := descriptor.source
  negotiationRef := descriptor.negotiationRef
  negotiationGeneration := descriptor.negotiationGeneration

def VideoStreamDescriptor.binding (descriptor : VideoStreamDescriptor) :
    MediaE2eeSession.StreamBinding where
  scope := descriptor.scope
  callId := descriptor.callId
  streamId := descriptor.streamId
  source := descriptor.source
  negotiationRef := descriptor.negotiationRef
  negotiationGeneration := descriptor.negotiationGeneration

namespace MediaE2eeSession

def header (session : MediaE2eeSession Key) (role : DirectRole) (mediaKind : MediaKind)
    (streamId : OpaqueId) (sequence mediaTimestamp : U64) (keyframe : Bool) :
    MediaE2eeFrameHeader where
  scope := session.context.scope
  callId := session.context.callId
  streamId := streamId
  source := session.localPrincipal.principal
  recipient := role.peer session.context.toMediaE2eeContext
  negotiationRef := session.context.negotiationRef
  negotiationGeneration := session.context.negotiationGeneration
  keyEpoch := session.context.keyEpoch
  cryptoSuite := session.context.cryptoSuite
  sessionBinding := session.established.transcriptBinding
  mediaKind := mediaKind
  sequence := sequence
  mediaTimestamp := mediaTimestamp
  keyframe := keyframe

variable (cipher : TrafficCipher Key)

-- What is encrypted stays known to whoever decrypts with the same key.
def encryptOutbound (nonce : Option AeadNonce) (plaintext aad : Bytes) :
    MediaCall Key Ciphertext := do
  let key := (← get).session.established.outbound
  let encrypted ← (TrafficKey.encrypt cipher key nonce plaintext aad).mapError MediaE2eeError.crypto
  modify fun endpoint => { endpoint with
    made := endpoint.made ++ [⟨key, encrypted.nonce, aad, encrypted.bytes⟩] }
  return encrypted

def decryptInbound [DecidableEq Key] (endpoint : Endpoint Key) (ciphertext : Ciphertext) (aad : Bytes) :
    Except MediaE2eeError Bytes :=
  (TrafficKey.decrypt (cipher.decryptMade endpoint.made endpoint.session.established.inbound)
    ciphertext aad).mapError .crypto

def sealPayload (nonce : Option AeadNonce) (mediaKind : MediaKind) (streamId : OpaqueId)
    (sequence mediaTimestamp : U64) (keyframe : Bool) (plaintext : Bytes) :
    MediaCall Key EncryptedMediaFrame := do
  let session := (← get).session
  let key : StreamCursorKey := ⟨mediaKind, streamId⟩
  requireNextOutboundSequence session.outboundSequences key sequence
  requireStreamCapacity session.outboundSequences key
  let role ← directRole session.localPrincipal session.localDeviceId
    session.context.toMediaE2eeContext
  let header := session.header role mediaKind streamId sequence mediaTimestamp keyframe
  let aad ← (mediaE2eeFrameAad header).mapError MediaE2eeError.protocol
  let encrypted ← encryptOutbound cipher nonce plaintext aad
  let output : EncryptedMediaFrame := ⟨header, encrypted.nonce, encrypted.bytes⟩
  (validateEncryptedMediaFrame session.context.toMediaE2eeContext output).mapError
    MediaE2eeError.protocol
  modify fun endpoint => { endpoint with
    session.outboundSequences := endpoint.session.outboundSequences.put key sequence }
  return output

def openPayload [DecidableEq Key] (mediaKind : MediaKind) (streamId : OpaqueId)
    (frame : EncryptedMediaFrame) :
    MediaCall Key Bytes := do
  let endpoint ← get
  let session := endpoint.session
  (validateEncryptedMediaFrame session.context.toMediaE2eeContext frame).mapError
    MediaE2eeError.protocol
  rejectIf (frame.header.mediaKind ≠ mediaKind) MediaE2eeError.mediaKindMismatch
  rejectIf (frame.header.streamId ≠ streamId) MediaE2eeError.streamMismatch
  let role ← directRole session.localPrincipal session.localDeviceId
    session.context.toMediaE2eeContext
  rejectIf (frame.header.source ≠ role.peer session.context.toMediaE2eeContext ∨
    frame.header.recipient ≠ session.localPrincipal.principal) MediaE2eeError.directionMismatch
  rejectIf (frame.header.sessionBinding ≠ session.established.transcriptBinding)
    MediaE2eeError.sessionBindingMismatch
  let aad ← (mediaE2eeFrameAad frame.header).mapError MediaE2eeError.protocol
  let plaintext ← decryptInbound cipher endpoint ⟨frame.nonce, frame.ciphertext⟩ aad
  let key : StreamCursorKey := ⟨mediaKind, streamId⟩
  requireStreamCapacity session.inboundSequences key
  rejectIf ((session.inboundSequences.get key).any (frame.header.sequence ≤ ·)) MediaE2eeError.replay
  modify fun endpoint => { endpoint with
    session.inboundSequences := endpoint.session.inboundSequences.put key frame.header.sequence }
  return plaintext

def sealAudio (answers : MediaAuthority) (nonce : Option AeadNonce)
    (descriptor : AudioStreamDescriptor) (frame : EncodedAudioFrame) :
    MediaCall Key EncryptedMediaFrame := do
  (validateAudioFrameForStream descriptor frame).mapError fun _ => MediaE2eeError.codecFrameInvalid
  (← get).session.requireDescriptorBinding answers descriptor.binding true
  sealPayload cipher nonce .audio descriptor.streamId frame.sequence frame.mediaTimestampSamples false
    frame.payload

def sealVideo (answers : MediaAuthority) (nonce : Option AeadNonce)
    (descriptor : VideoStreamDescriptor) (frame : EncodedVideoFrame) :
    MediaCall Key EncryptedMediaFrame := do
  (validateVideoFrameForStream descriptor frame).mapError fun _ => MediaE2eeError.codecFrameInvalid
  (← get).session.requireDescriptorBinding answers descriptor.binding true
  sealPayload cipher nonce .video descriptor.streamId frame.sequence frame.mediaTimestampUs
    frame.keyframe frame.payload

def openAudio [DecidableEq Key] (answers : MediaAuthority) (descriptor : AudioStreamDescriptor)
    (frame : EncryptedMediaFrame) : MediaCall Key EncodedAudioFrame := do
  (← get).session.requireDescriptorBinding answers descriptor.binding false
  let plaintext ← openPayload cipher .audio descriptor.streamId frame
  let output : EncodedAudioFrame := {
    scope := descriptor.scope
    callId := descriptor.callId
    streamId := descriptor.streamId
    source := descriptor.source
    negotiationRef := descriptor.negotiationRef
    negotiationGeneration := descriptor.negotiationGeneration
    sequence := frame.header.sequence
    mediaTimestampSamples := frame.header.mediaTimestamp
    payload := plaintext }
  (validateAudioFrameForStream descriptor output).mapError fun _ => MediaE2eeError.codecFrameInvalid
  return output

def openVideo [DecidableEq Key] (answers : MediaAuthority) (descriptor : VideoStreamDescriptor)
    (frame : EncryptedMediaFrame) : MediaCall Key EncodedVideoFrame := do
  (← get).session.requireDescriptorBinding answers descriptor.binding false
  let plaintext ← openPayload cipher .video descriptor.streamId frame
  let output : EncodedVideoFrame := {
    scope := descriptor.scope
    callId := descriptor.callId
    streamId := descriptor.streamId
    source := descriptor.source
    negotiationRef := descriptor.negotiationRef
    negotiationGeneration := descriptor.negotiationGeneration
    sequence := frame.header.sequence
    mediaTimestampUs := frame.header.mediaTimestamp
    keyframe := frame.header.keyframe
    payload := plaintext }
  (validateVideoFrameForStream descriptor output).mapError fun _ => MediaE2eeError.codecFrameInvalid
  return output

end MediaE2eeSession

-- A direct call seen from outside: two sessions, and what they have handed to the network and to
-- their users. A record says what a frame means to the user of a stream.
structure MediaRecord where
  keyEpoch : U64
  key : StreamCursorKey
  sequence : U64
  mediaTimestamp : U64
  keyframe : Bool
  payload : Bytes
deriving DecidableEq

inductive Side
  | first
  | second
deriving DecidableEq

def Side.other : Side → Side
  | .first  => .second
  | .second => .first

structure DirectMedia (Key : Type) where
  session : Side → MediaE2eeSession Key
  made    : List (Aead.Box Key AeadNonce)
  sent    : Side → List (MediaRecord × EncryptedMediaFrame)
  opened  : Side → List MediaRecord

inductive DirectMediaCall (Key : Type)
  | sealAudio (answers : MediaAuthority) (nonce : Option AeadNonce)
      (descriptor : AudioStreamDescriptor) (frame : EncodedAudioFrame)
  | sealVideo (answers : MediaAuthority) (nonce : Option AeadNonce)
      (descriptor : VideoStreamDescriptor) (frame : EncodedVideoFrame)
  | openAudio (answers : MediaAuthority) (descriptor : AudioStreamDescriptor)
      (frame : EncryptedMediaFrame)
  | openVideo (answers : MediaAuthority) (descriptor : VideoStreamDescriptor)
      (frame : EncryptedMediaFrame)
  | rotate (answers : MediaAuthority) (nextContext : MediaE2eeContext)
      (nextSession : EstablishedSession Key)
      (initiatorEphemeral responderEphemeral : AgreementPublicKey)

def DirectMediaCall.asked : DirectMediaCall Key → Option EncryptedMediaFrame
  | .openAudio _ _ frame => some frame
  | .openVideo _ _ frame => some frame
  | _ => none

namespace DirectMedia

def start (first second : MediaE2eeSession Key) : DirectMedia Key where
  session | .first => first | .second => second
  made   := []
  sent _ := []
  opened _ := []

variable (media : DirectMedia Key)

def endpoint (side : Side) : Endpoint Key :=
  ⟨media.session side, media.made⟩

def leave (side : Side) (endpoint : Endpoint Key) : DirectMedia Key :=
  { media with
    session := Function.update media.session side endpoint.session
    made    := endpoint.made }

def epoch (side : Side) : U64 :=
  (media.session side).context.keyEpoch

def sendRecord (side : Side) (record : MediaRecord)
    (result : Except MediaE2eeError EncryptedMediaFrame) : DirectMedia Key :=
  match result with
  | .ok frame => { media with
      sent := Function.update media.sent side (media.sent side ++ [(record, frame)]) }
  | .error _ => media

def openRecord (side : Side) (result : Except MediaE2eeError MediaRecord) :
    DirectMedia Key :=
  match result with
  | .ok record => { media with
      opened := Function.update media.opened side (media.opened side ++ [record]) }
  | .error _ => media

def audioRecord (keyEpoch : U64) (frame : EncodedAudioFrame) : MediaRecord where
  keyEpoch := keyEpoch
  key := ⟨.audio, frame.streamId⟩
  sequence := frame.sequence
  mediaTimestamp := frame.mediaTimestampSamples
  keyframe := false
  payload := frame.payload

def videoRecord (keyEpoch : U64) (frame : EncodedVideoFrame) : MediaRecord where
  keyEpoch := keyEpoch
  key := ⟨.video, frame.streamId⟩
  sequence := frame.sequence
  mediaTimestamp := frame.mediaTimestampUs
  keyframe := frame.keyframe
  payload := frame.payload

open MediaE2eeSession

variable (cipher : TrafficCipher Key)

def call [DecidableEq Key] (media : DirectMedia Key) (side : Side) :
    DirectMediaCall Key → DirectMedia Key
  | .sealAudio answers nonce descriptor frame =>
    let (result, endpoint) :=
      (MediaE2eeSession.sealAudio cipher answers nonce descriptor frame).run (media.endpoint side)
    (media.leave side endpoint).sendRecord side (audioRecord (media.epoch side) frame) result
  | .sealVideo answers nonce descriptor frame =>
    let (result, endpoint) :=
      (MediaE2eeSession.sealVideo cipher answers nonce descriptor frame).run (media.endpoint side)
    (media.leave side endpoint).sendRecord side (videoRecord (media.epoch side) frame) result
  | .openAudio answers descriptor frame =>
    let (result, endpoint) :=
      (MediaE2eeSession.openAudio cipher answers descriptor frame).run (media.endpoint side)
    (media.leave side endpoint).openRecord side (audioRecord (media.epoch side) <$> result)
  | .openVideo answers descriptor frame =>
    let (result, endpoint) :=
      (MediaE2eeSession.openVideo cipher answers descriptor frame).run (media.endpoint side)
    (media.leave side endpoint).openRecord side (videoRecord (media.epoch side) <$> result)
  | .rotate answers nextContext nextSession initiatorEphemeral responderEphemeral =>
    match (media.session side).rotate answers nextContext nextSession initiatorEphemeral
      responderEphemeral with
    | .ok session => media.leave side ⟨session, media.made⟩
    | .error _    => media

def run [DecidableEq Key] (media : DirectMedia Key) (calls : List (Side × DirectMediaCall Key)) :
    DirectMedia Key :=
  calls.foldl (fun media next => media.call cipher next.1 next.2) media

end DirectMedia

end Ucr
