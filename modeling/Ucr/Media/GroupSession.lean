import Ucr.Crypto.Aead
import Ucr.Lib.Table
import Ucr.Lib.Transaction
import Ucr.Protocol.Device
import Ucr.Protocol.Group
import Ucr.Protocol.Media

-- End-to-end encrypted media in a group call. All members share the secret of the epoch, so that a
-- frame is attributed by the signature of the device that has sealed it.

namespace Ucr

open Except

inductive GroupMediaE2eeError
  | authorization
  | store
  | protocol (error : GroupMediaE2eeProtocolError)
  | crypto (error : AeadError)
  | key (error : GroupMediaE2eeProtocolError)
  | capabilityUnavailable
  | scopeMismatch
  | deviceParticipantMismatch
  | principalIdentityBindingUnavailable
  | principalIdentityBindingMismatch
  | deviceUnavailable
  | deviceInactive
  | trust
  | invalidTrustedKey (error : CryptoContractError)
  | signing
  | signingKeyMismatch
  | sourceSignatureInvalid
  | callUnavailable
  | callNotActive
  | groupCallRequired
  | negotiationGenerationMismatch
  | negotiationBindingMismatch
  | groupUnavailable
  | groupMismatch
  | groupCryptoUnavailable
  | groupCryptoStateMismatch
  | membershipUnavailable
  | sourceNotAccepted
  | sourceNotMember
  | mediaKindMismatch
  | screenShareNegotiationRequired
  | replay
  | outboundSequenceRegression
  | streamCapacityExceeded

-- What the store answers at one moment. A read may fail.
structure GroupMediaStore where
  callForParticipant : ScopedPrincipal → TenantScope → CallId →
    Except GroupMediaE2eeError (Option CallSession)
  groupForConversation : TenantScope → ConversationId →
    Except GroupMediaE2eeError (Option GroupRecord)
  groupMembershipForActiveMember : ScopedPrincipal → TenantScope → GroupId → PrincipalRef →
    Except GroupMediaE2eeError (Option GroupMembership)
  device : TenantScope → DeviceId → Except GroupMediaE2eeError (Option DeviceDescriptor)
  principalIdentityBinding : TenantScope → PrincipalRef →
    Except GroupMediaE2eeError (Option IdentityId)
  resolveActiveSigningKey : TenantScope → DeviceId → Option IdentityId → KeyId →
    Except GroupMediaE2eeError PublicKeyDescriptor

-- What a call reads: the authority of its own device first, then what it needs to know of the
-- device that signs, when the store may have changed.
structure GroupMediaReads where
  capability : Except GroupMediaE2eeError Unit
  authorization : Except GroupMediaE2eeError Unit
  authority : GroupMediaStore
  source : GroupMediaStore

structure GroupStreamCursorKey where
  source : PrincipalRef
  sourceDeviceId : DeviceId
  mediaKind : MediaKind
  streamId : OpaqueId
deriving DecidableEq

structure GroupMediaE2eeSession (Secret : Type) where
  localPrincipal : ScopedPrincipal
  localDeviceId : DeviceId
  context : GroupMediaE2eeContext
  epochSecret : Secret
  outboundSequences : Table GroupStreamCursorKey U64
  inboundSequences : Table GroupStreamCursorKey U64

-- The primitives: the cipher, the derivation of a traffic key from the secret of an epoch, the
-- binding of its context and a text, and the signatures of devices.
structure GroupMediaCrypto (Key Secret : Type) where
  cipher     : TrafficCipher Key
  expand     : Secret → Digest → Bytes → Key
  signatures : SignatureScheme Bytes Digest Bytes

def acceptedParticipant (call : CallSession) (principal : PrincipalRef) : Bool :=
  call.participants.any fun participant =>
    participant.principal = principal ∧ participant.state = .accepted ∧
      participant.leftRevision = none

namespace GroupMediaStore

def requireActiveBoundParticipantDevice (store : GroupMediaStore) (scope : TenantScope)
    (participant : PrincipalRef) (deviceId : DeviceId) :
    Except GroupMediaE2eeError DeviceDescriptor := do
  let device ← (← store.device scope deviceId).okOr .deviceUnavailable
  rejectIf (¬deviceAllowsProtectedAccess device) .deviceInactive
  if participant.kind = .device then
    rejectIf (participant.principalId.asWireBytes ≠ deviceId.asWireBytes) .deviceParticipantMismatch
    return device
  else
    let identityId ← (← store.principalIdentityBinding scope participant).okOr
      .principalIdentityBindingUnavailable
    rejectIf (identityId ≠ device.identityId) .principalIdentityBindingMismatch
    return device

def validateGroupMediaE2eeAuthority (store : GroupMediaStore) (localPrincipal : ScopedPrincipal)
    (localDeviceId : DeviceId) (context : GroupMediaE2eeContext) :
    Except GroupMediaE2eeError CallSession := do
  let context ← (canonicalGroupMediaE2eeContext context).mapError .protocol
  rejectIf (localPrincipal.scope ≠ context.scope) .scopeMismatch
  let _ ← store.requireActiveBoundParticipantDevice context.scope localPrincipal.principal
    localDeviceId
  let call ← (← store.callForParticipant localPrincipal context.scope context.callId).okOr
    .callUnavailable
  rejectIf (call.conversation.kind ≠ .privateGroup ∧ call.conversation.kind ≠ .publicGroup)
    .groupCallRequired
  rejectIf (call.signallingState ≠ .active) .callNotActive
  rejectIf (call.mediaNegotiationGeneration ≠ context.negotiationGeneration)
    .negotiationGenerationMismatch
  rejectIf (call.mediaNegotiationRef ≠ some context.negotiationRef) .negotiationBindingMismatch
  rejectIf (¬acceptedParticipant call localPrincipal.principal) .sourceNotAccepted
  let group ← (← store.groupForConversation context.scope call.conversation.conversationId).okOr
    .groupUnavailable
  rejectIf (group.groupId ≠ context.groupId ∨ group.conversation ≠ call.conversation) .groupMismatch
  rejectIf (group.cryptoState.capabilityId ≠ some groupMlsCapability) .groupCryptoUnavailable
  rejectIf (group.cryptoState.epoch ≠ context.cryptoEpoch ∨
    group.cryptoState.stateRef ≠ some context.cryptoStateRef) .groupCryptoStateMismatch
  let membership ← (← store.groupMembershipForActiveMember localPrincipal context.scope
    context.groupId localPrincipal.principal).okOr .membershipUnavailable
  rejectIf (membership.state ≠ .active) .membershipUnavailable
  return call

def resolveSourceVerifyingKey (store : GroupMediaStore) (sourceDevice : DeviceDescriptor)
    (frame : EncryptedGroupMediaFrame) : Except GroupMediaE2eeError Bytes := do
  let signature := frame.sourceSignature
  let trusted ← store.resolveActiveSigningKey frame.header.scope frame.header.sourceDeviceId
    (some sourceDevice.identityId) signature.keyId
  (validatePublicKeyDescriptor trusted).mapError .invalidTrustedKey
  rejectIf (trusted.purpose ≠ .signing ∨ signature.algorithmId ≠ trusted.algorithmId ∨
    signature.algorithmVersion ≠ trusted.algorithmVersion) .sourceSignatureInvalid
  rejectIf (trusted.publicKey.length ≠ ed25519PublicKeyLen) .sourceSignatureInvalid
  return trusted.publicKey

end GroupMediaStore

def requireNextGroupSequence (sequences : Table GroupStreamCursorKey U64)
    (key : GroupStreamCursorKey) (sequence : U64) : Except GroupMediaE2eeError Unit :=
  rejectIf ((sequences.get key).any (sequence ≤ ·)) .outboundSequenceRegression

def requireGroupStreamCapacity (sequences : Table GroupStreamCursorKey U64)
    (key : GroupStreamCursorKey) : Except GroupMediaE2eeError Unit :=
  rejectIf (sequences.get key = none ∧ sequences.entries.length ≥ maxMediaStreamsPerEpoch)
    .streamCapacityExceeded

def GroupMediaFrameHeader.cursorKey (header : GroupMediaFrameHeader) : GroupStreamCursorKey where
  source := header.source
  sourceDeviceId := header.sourceDeviceId
  mediaKind := header.mediaKind
  streamId := header.streamId

variable {Key Secret : Type}

def deriveGroupMediaTrafficKey (crypto : GroupMediaCrypto Key Secret) (epochSecret : Secret)
    (context : GroupMediaE2eeContext) (source : PrincipalRef) (sourceDeviceId : DeviceId)
    (streamId : OpaqueId) (mediaKind : MediaKind) : Except GroupMediaE2eeProtocolError Key := do
  let binding ← groupMediaContextBinding context
  let keyContext ← groupMediaKeyContext context source sourceDeviceId streamId mediaKind
  return crypto.expand epochSecret binding (utf8 "UCR-GROUP-MEDIA-TRAFFIC-KDF-V1\x00" ++ keyContext)

def openSession (reads : GroupMediaReads) (localPrincipal : ScopedPrincipal)
    (localDeviceId : DeviceId) (context : GroupMediaE2eeContext) (epochSecret : Secret) :
    Except GroupMediaE2eeError (GroupMediaE2eeSession Secret) := do
  reads.capability
  let context ← (canonicalGroupMediaE2eeContext context).mapError .protocol
  let _ ← reads.authority.validateGroupMediaE2eeAuthority localPrincipal localDeviceId context
  return {
    localPrincipal
    localDeviceId
    context
    epochSecret
    outboundSequences := ∅
    inboundSequences  := ∅ }

-- What a call of one device works on: its session, and every text that was signed, with the key.
structure GroupEndpoint (Secret : Type) where
  session : GroupMediaE2eeSession Secret
  signed  : List (Bytes × Digest)

abbrev GroupMediaCall (Secret α : Type) := InPlace (GroupEndpoint Secret) GroupMediaE2eeError α

-- The handle of a signing key: its public half, and what it answers when it is asked to sign.
structure GroupMediaSigningKeyHandle where
  verifyingKey : Bytes
  signature    : Option { bytes : Bytes // bytes.length = groupMediaSignatureLen }

-- What the caller says of a payload.
structure GroupPayload where
  mediaKind : MediaKind
  videoSourceKind : Option VideoSourceKind
  streamId : OpaqueId
  sequence : U64
  mediaTimestamp : U64
  keyframe : Bool
  plaintext : Bytes

namespace GroupMediaE2eeSession

def header (session : GroupMediaE2eeSession Secret) (headerVersion : UInt8) (payload : GroupPayload) :
    GroupMediaFrameHeader where
  scope := session.context.scope
  callId := session.context.callId
  groupId := session.context.groupId
  streamId := payload.streamId
  source := session.localPrincipal.principal
  sourceDeviceId := session.localDeviceId
  negotiationRef := session.context.negotiationRef
  negotiationGeneration := session.context.negotiationGeneration
  cryptoEpoch := session.context.cryptoEpoch
  cryptoStateRef := session.context.cryptoStateRef
  cryptoSuite := session.context.cryptoSuite
  headerVersion := headerVersion
  mediaKind := payload.mediaKind
  videoSourceKind := payload.videoSourceKind
  sequence := payload.sequence
  mediaTimestamp := payload.mediaTimestamp
  keyframe := payload.keyframe

section Seal

variable (crypto : GroupMediaCrypto Key Secret) (reads : GroupMediaReads)
  (nonce : Option AeadNonce) (signingKeyId : KeyId) (signer : GroupMediaSigningKeyHandle)

def signGroupMediaBinding (binding : Digest) : GroupMediaCall Secret Bytes := do
  let signature ← signer.signature.okOr GroupMediaE2eeError.signing
  modify fun endpoint => { endpoint with
    signed := endpoint.signed ++ [(signer.verifyingKey, binding)] }
  return signature.val

def sealEndpointGroupMediaPayload (epochSecret : Secret) (context : GroupMediaE2eeContext)
    (header : GroupMediaFrameHeader) (plaintext : Bytes) :
    GroupMediaCall Secret EncryptedGroupMediaFrame := do
  let trafficKey ← (deriveGroupMediaTrafficKey crypto epochSecret context header.source
    header.sourceDeviceId header.streamId header.mediaKind).mapError GroupMediaE2eeError.key
  let aad ← (groupMediaFrameAad header).mapError GroupMediaE2eeError.protocol
  let encrypted ← (TrafficKey.encrypt crypto.cipher trafficKey nonce plaintext aad).mapError
    GroupMediaE2eeError.crypto
  let binding ← (groupMediaSourceSigningBinding header encrypted.nonce encrypted.bytes).mapError
    GroupMediaE2eeError.protocol
  let signature ← signGroupMediaBinding signer binding
  let frame : EncryptedGroupMediaFrame := {
    header
    nonce := encrypted.nonce
    ciphertext := encrypted.bytes
    sourceSignature := ⟨signingKeyId, signatureAlgorithmId, algorithmVersion, signature⟩ }
  (validateEncryptedGroupMediaFrame context frame).mapError GroupMediaE2eeError.protocol
  return frame

def sealPayloadVersioned (headerVersion : UInt8) (payload : GroupPayload) :
    GroupMediaCall Secret EncryptedGroupMediaFrame := do
  let session := (← get).session
  reads.capability
  let _ ← reads.authority.validateGroupMediaE2eeAuthority session.localPrincipal
    session.localDeviceId session.context
  let localDevice ← reads.source.requireActiveBoundParticipantDevice session.context.scope
    session.localPrincipal.principal session.localDeviceId
  reads.authorization
  let header := session.header headerVersion payload
  let key := header.cursorKey
  requireNextGroupSequence session.outboundSequences key payload.sequence
  requireGroupStreamCapacity session.outboundSequences key
  let trusted ← reads.source.resolveActiveSigningKey session.context.scope session.localDeviceId
    (some localDevice.identityId) signingKeyId
  (validatePublicKeyDescriptor trusted).mapError GroupMediaE2eeError.invalidTrustedKey
  rejectIf (trusted.purpose ≠ .signing ∨ trusted.publicKey ≠ signer.verifyingKey)
    GroupMediaE2eeError.signingKeyMismatch
  let frame ← sealEndpointGroupMediaPayload crypto nonce signingKeyId signer session.epochSecret
    session.context header payload.plaintext
  modify fun endpoint => { endpoint with
    session.outboundSequences := endpoint.session.outboundSequences.put key payload.sequence }
  return frame

def sealPayload (payload : GroupPayload) : GroupMediaCall Secret EncryptedGroupMediaFrame :=
  let videoSourceKind := match payload.mediaKind with
    | .audio => none
    | .video => some .camera
  sealPayloadVersioned crypto reads nonce signingKeyId signer groupMediaFrameHeaderV1
    { payload with videoSourceKind }

def sealPayloadWithSource (payload : GroupPayload) :
    GroupMediaCall Secret EncryptedGroupMediaFrame := do
  rejectIf (payload.videoSourceKind = some .screenShare)
    GroupMediaE2eeError.screenShareNegotiationRequired
  sealPayloadVersioned crypto reads nonce signingKeyId signer groupMediaFrameHeaderV1 payload

def sealNegotiatedScreenShare (payload : GroupPayload) :
    GroupMediaCall Secret EncryptedGroupMediaFrame :=
  sealPayloadVersioned crypto reads nonce signingKeyId signer groupMediaFrameHeaderV2
    { payload with mediaKind := .video, videoSourceKind := some .screenShare }

end Seal

section Open

variable (crypto : GroupMediaCrypto Key Secret)

def openEndpointGroupMediaPayload (signed : List (Bytes × Digest)) (epochSecret : Secret)
    (context : GroupMediaE2eeContext) (frame : EncryptedGroupMediaFrame)
    (sourceVerifyingKey : Bytes) : Except GroupMediaE2eeError Bytes := do
  (validateEncryptedGroupMediaFrame context frame).mapError .protocol
  rejectIf (frame.sourceSignature.signature.length ≠ groupMediaSignatureLen) .sourceSignatureInvalid
  let binding ← (groupMediaSourceSigningBinding frame.header frame.nonce frame.ciphertext).mapError
    .protocol
  rejectIf (¬crypto.signatures.verifyMade signed sourceVerifyingKey binding
    frame.sourceSignature.signature) .sourceSignatureInvalid
  let trafficKey ← (deriveGroupMediaTrafficKey crypto epochSecret context frame.header.source
    frame.header.sourceDeviceId frame.header.streamId frame.header.mediaKind).mapError .key
  let aad ← (groupMediaFrameAad frame.header).mapError .protocol
  (TrafficKey.decrypt (crypto.cipher.decrypt trafficKey) ⟨frame.nonce, frame.ciphertext⟩ aad).mapError
    .crypto

def openPayload (session : GroupMediaE2eeSession Secret) (reads : GroupMediaReads)
    (signed : List (Bytes × Digest)) (frame : EncryptedGroupMediaFrame) :
    Except GroupMediaE2eeError (Bytes × GroupMediaE2eeSession Secret) := do
  reads.capability
  let call ← reads.authority.validateGroupMediaE2eeAuthority session.localPrincipal
    session.localDeviceId session.context
  (validateEncryptedGroupMediaFrame session.context frame).mapError .protocol
  reads.authorization
  rejectIf (¬acceptedParticipant call frame.header.source) .sourceNotAccepted
  let sourceMembership ← (← reads.source.groupMembershipForActiveMember session.localPrincipal
    session.context.scope session.context.groupId frame.header.source).okOr .sourceNotMember
  rejectIf (sourceMembership.state ≠ .active) .sourceNotMember
  let sourceDevice ← reads.source.requireActiveBoundParticipantDevice session.context.scope
    frame.header.source frame.header.sourceDeviceId
  let sourceVerifyingKey ← reads.source.resolveSourceVerifyingKey sourceDevice frame
  let key := frame.header.cursorKey
  requireGroupStreamCapacity session.inboundSequences key
  rejectIf ((session.inboundSequences.get key).any (frame.header.sequence ≤ ·)) .replay
  let plaintext ← openEndpointGroupMediaPayload crypto signed session.epochSecret session.context frame
    sourceVerifyingKey
  return (plaintext, { session with
    inboundSequences := session.inboundSequences.put key frame.header.sequence })

end Open

end GroupMediaE2eeSession

-- A group call seen from outside: the sessions of its honest devices, everything that was signed,
-- and what the sessions have sealed and opened.
structure SealedPayload (Secret : Type) where
  scope       : TenantScope
  deviceId    : DeviceId
  context     : GroupMediaE2eeContext
  epochSecret : Secret
  frame       : EncryptedGroupMediaFrame
  plaintext   : Bytes

structure OpenedPayload (Secret : Type) where
  session     : ℕ
  reads       : GroupMediaReads
  epochSecret : Secret
  frame       : EncryptedGroupMediaFrame
  plaintext   : Bytes

structure GroupMedia (Secret : Type) where
  sessions : List (GroupMediaE2eeSession Secret)
  signed   : List (Bytes × Digest)
  sent     : List (SealedPayload Secret)
  opened   : List (OpenedPayload Secret)

inductive GroupMediaSeal
  | payload
  | withSource
  | screenShare

inductive GroupMediaOp (Secret : Type)
  | openSession (reads : GroupMediaReads) (localPrincipal : ScopedPrincipal)
      (localDeviceId : DeviceId) (context : GroupMediaE2eeContext) (epochSecret : Secret)
  | sealPayload (session : ℕ) (entry : GroupMediaSeal) (reads : GroupMediaReads)
      (nonce : Option AeadNonce) (signingKeyId : KeyId) (signer : GroupMediaSigningKeyHandle)
      (payload : GroupPayload)
  | openPayload (session : ℕ) (reads : GroupMediaReads) (frame : EncryptedGroupMediaFrame)
  -- A device that does not keep to the program signs what it likes.
  | sign (verifyingKey : Bytes) (binding : Digest)

namespace GroupMedia

def start : GroupMedia Secret := ⟨[], [], [], []⟩

variable (crypto : GroupMediaCrypto Key Secret)

def sealWith (entry : GroupMediaSeal) (reads : GroupMediaReads) (nonce : Option AeadNonce)
    (signingKeyId : KeyId) (signer : GroupMediaSigningKeyHandle) (payload : GroupPayload) :
    GroupMediaCall Secret EncryptedGroupMediaFrame :=
  match entry with
  | .payload     => GroupMediaE2eeSession.sealPayload crypto reads nonce signingKeyId signer payload
  | .withSource  =>
    GroupMediaE2eeSession.sealPayloadWithSource crypto reads nonce signingKeyId signer payload
  | .screenShare =>
    GroupMediaE2eeSession.sealNegotiatedScreenShare crypto reads nonce signingKeyId signer payload

def step (media : GroupMedia Secret) : GroupMediaOp Secret → GroupMedia Secret
  | .openSession reads localPrincipal localDeviceId context epochSecret =>
    match openSession reads localPrincipal localDeviceId context epochSecret with
    | .ok session => { media with sessions := media.sessions ++ [session] }
    | .error _    => media
  | .sealPayload index entry reads nonce signingKeyId signer payload =>
    match media.sessions[index]? with
    | none => media
    | some session =>
      let (result, endpoint) := (sealWith crypto entry reads nonce signingKeyId signer payload).run
        ⟨session, media.signed⟩
      { media with
        sessions := media.sessions.set index endpoint.session
        signed   := endpoint.signed
        sent     := match result with
          | .ok frame => media.sent ++
              [⟨session.context.scope, session.localDeviceId, session.context,
                session.epochSecret, frame, payload.plaintext⟩]
          | .error _  => media.sent }
  | .openPayload index reads frame =>
    match media.sessions[index]? with
    | none => media
    | some session =>
      match session.openPayload crypto reads media.signed frame with
      | .ok (plaintext, session') => { media with
          sessions := media.sessions.set index session'
          opened   := media.opened ++ [⟨index, reads, session.epochSecret, frame, plaintext⟩] }
      | .error _ => media
  | .sign verifyingKey binding => { media with signed := media.signed ++ [(verifyingKey, binding)] }

def run (media : GroupMedia Secret) (ops : List (GroupMediaOp Secret)) : GroupMedia Secret :=
  ops.foldl (fun media op => media.step crypto op) media

end GroupMedia

end Ucr
