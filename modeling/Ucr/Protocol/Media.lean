import Ucr.Objects.Media
import Ucr.Protocol.Call
import Ucr.Protocol.Message

-- The rules encoded and encrypted media has to keep, and the bytes an encrypted frame is
-- authenticated with.

namespace Ucr

open Except Encoding Call

def opusAudioCodecCapability : String := "ucr.media.audio.opus"
def maxEncodedAudioFrameBytes : ℕ := 1275

inductive AudioProtocolError
  | invalidCapability
  | unsupportedCodec
  | unsupportedSampleRate
  | emptyPayload
  | payloadTooLarge
  | frameBindingMismatch

def canonicalAudioCodecConfig (config : AudioCodecConfig) :
    Except AudioProtocolError AudioCodecConfig := do
  (validateNamespacedIdentifier config.codecCapabilityId).mapError fun _ => .invalidCapability
  rejectIf (config.codecCapabilityId ≠ opusAudioCodecCapability) .unsupportedCodec
  rejectIf (config.sampleRateHz.val ∉ [8000, 12000, 16000, 24000, 48000]) .unsupportedSampleRate
  return config

def canonicalAudioStreamDescriptor (descriptor : AudioStreamDescriptor) :
    Except AudioProtocolError AudioStreamDescriptor := do
  return { descriptor with codec := ← canonicalAudioCodecConfig descriptor.codec }

def validateAudioFrameForStream (stream : AudioStreamDescriptor) (frame : EncodedAudioFrame) :
    Except AudioProtocolError Unit := do
  let _ ← canonicalAudioStreamDescriptor stream
  rejectIf (frame.payload = []) .emptyPayload
  rejectIf (frame.payload.length > maxEncodedAudioFrameBytes) .payloadTooLarge
  rejectIf (frame.scope ≠ stream.scope ∨ frame.callId ≠ stream.callId ∨
    frame.streamId ≠ stream.streamId ∨ frame.source ≠ stream.source ∨
    frame.negotiationRef ≠ stream.negotiationRef ∨
    frame.negotiationGeneration ≠ stream.negotiationGeneration) .frameBindingMismatch

def h264VideoCodecCapability : String := "ucr.media.video.h264"
def maxVideoWidth : ℕ := 1920
def maxVideoHeight : ℕ := 1080
def maxVideoFrameRate : ℕ := 60
def h264Level40MaxFrameMacroblocks : ℕ := 8192
def h264Level40MaxMacroblocksPerSecond : ℕ := 245760
def minVideoBitrateBps : ℕ := 64000
def maxVideoBitrateBps : ℕ := 20000000
def maxEncodedVideoFrameBytes : ℕ := 2 * 1024 * 1024

inductive VideoProtocolError
  | invalidCapability
  | unsupportedCodec
  | invalidDimensions
  | unsupportedFrameRate
  | unsupportedBitrate
  | emptyPayload
  | payloadTooLarge
  | frameBindingMismatch

-- A product that does not fit 32 bits is far beyond every limit it is compared with.
def h264Level40CodedShape (width height : U32) : Except VideoProtocolError (ℕ × ℕ × ℕ) := do
  let widthMacroblocks := (width.val + 15) / 16
  let heightMacroblocks := (height.val + 15) / 16
  let frameMacroblocks := widthMacroblocks * heightMacroblocks
  rejectIf (frameMacroblocks > h264Level40MaxFrameMacroblocks) .invalidDimensions
  return (widthMacroblocks * 16, heightMacroblocks * 16, frameMacroblocks)

def canonicalVideoCodecConfig (config : VideoCodecConfig) :
    Except VideoProtocolError VideoCodecConfig := do
  (validateNamespacedIdentifier config.codecCapabilityId).mapError fun _ => .invalidCapability
  rejectIf (config.codecCapabilityId ≠ h264VideoCodecCapability) .unsupportedCodec
  rejectIf (config.width.val < 16 ∨ config.height.val < 16 ∨ config.width.val > maxVideoWidth ∨
    config.height.val > maxVideoHeight ∨ config.width.val % 2 ≠ 0 ∨ config.height.val % 2 ≠ 0)
    .invalidDimensions
  rejectIf (config.frameRate.val = 0 ∨ config.frameRate.val > maxVideoFrameRate)
    .unsupportedFrameRate
  let (_, _, frameMacroblocks) ← h264Level40CodedShape config.width config.height
  rejectIf (frameMacroblocks * config.frameRate.val > h264Level40MaxMacroblocksPerSecond)
    .unsupportedFrameRate
  rejectIf (config.targetBitrateBps.val < minVideoBitrateBps ∨
    config.targetBitrateBps.val > maxVideoBitrateBps) .unsupportedBitrate
  return config

def canonicalVideoStreamDescriptor (descriptor : VideoStreamDescriptor) :
    Except VideoProtocolError VideoStreamDescriptor := do
  return { descriptor with codec := ← canonicalVideoCodecConfig descriptor.codec }

def validateVideoFrameForStream (stream : VideoStreamDescriptor) (frame : EncodedVideoFrame) :
    Except VideoProtocolError Unit := do
  let _ ← canonicalVideoStreamDescriptor stream
  rejectIf (frame.payload = []) .emptyPayload
  rejectIf (frame.payload.length > maxEncodedVideoFrameBytes) .payloadTooLarge
  rejectIf (frame.scope ≠ stream.scope ∨ frame.callId ≠ stream.callId ∨
    frame.streamId ≠ stream.streamId ∨ frame.source ≠ stream.source ∨
    frame.negotiationRef ≠ stream.negotiationRef ∨
    frame.negotiationGeneration ≠ stream.negotiationGeneration) .frameBindingMismatch

def mediaE2eeContextV1Domain : Bytes := utf8 "UCR-MEDIA-E2EE-CONTEXT-V1\x00"
def mediaE2eeFrameAadV1Domain : Bytes := utf8 "UCR-MEDIA-E2EE-FRAME-AAD-V1\x00"
def mediaE2eeAeadTagLen : ℕ := 16
def maxEncryptedMediaPayloadBytes : ℕ := 2 * 1024 * 1024 + mediaE2eeAeadTagLen
def maxMediaStreamsPerEpoch : ℕ := 64
def maxMediaKeyEpochsPerSession : ℕ := 64

inductive MediaE2eeProtocolError
  | invalidParticipants
  | invalidDevices
  | invalidNegotiation
  | invalidEpoch
  | unsupportedCryptoSuite
  | invalidSessionBinding
  | emptyCiphertext
  | ciphertextTooLarge
  | contextMismatch
  | invalidAudioHeader

structure CanonicalMediaE2eeContext extends MediaE2eeContext where
  participants : initiator ≠ responder
  devices : initiatorDeviceId ≠ responderDeviceId
  negotiation : negotiationGeneration ≠ 0
  epoch : keyEpoch ≠ 0

def canonicalMediaE2eeContext (context : MediaE2eeContext) :
    Except MediaE2eeProtocolError CanonicalMediaE2eeContext :=
  if participants : context.initiator = context.responder then
    .error .invalidParticipants
  else if devices : context.initiatorDeviceId = context.responderDeviceId then
    .error .invalidDevices
  else if negotiation : context.negotiationGeneration = 0 then
    .error .invalidNegotiation
  else if epoch : context.keyEpoch = 0 then
    .error .invalidEpoch
  else if context.cryptoSuite ≠ .ucrV1 then
    .error .unsupportedCryptoSuite
  else
    .ok { context with participants, devices, negotiation, epoch }

def CryptoSuite.code : CryptoSuite → ℕ
  | .ucrV1 => 1

def MediaKind.code : MediaKind → UInt8
  | .audio => 1
  | .video => 2

def boolByte (b : Bool) : UInt8 :=
  if b then 1 else 0

def mediaE2eeContextBinding (context : MediaE2eeContext) : Except MediaE2eeProtocolError Digest := do
  let context ← canonicalMediaE2eeContext context
  return sha256 (mediaE2eeContextV1Domain ++ pushScope context.scope ++
    pushBytes context.callId.asWireBytes ++ pushPrincipal context.initiator ++
    pushPrincipal context.responder ++ pushBytes context.initiatorDeviceId.asWireBytes ++
    pushBytes context.responderDeviceId.asWireBytes ++ pushBytes context.negotiationRef.asWireBytes ++
    beBytes 8 context.negotiationGeneration ++ beBytes 8 context.keyEpoch ++
    beBytes 4 context.cryptoSuite.code)

-- What the header fields are written as, one after the other.
def mediaE2eeHeaderBytes (header : MediaE2eeFrameHeader) : Bytes :=
  pushScope header.scope ++ pushBytes header.callId.asWireBytes ++
    pushBytes header.streamId.asWireBytes ++ pushPrincipal header.source ++
    pushPrincipal header.recipient ++ pushBytes header.negotiationRef.asWireBytes ++
    beBytes 8 header.negotiationGeneration ++ beBytes 8 header.keyEpoch ++
    beBytes 4 header.cryptoSuite.code ++ header.sessionBinding.bytes ++ [header.mediaKind.code] ++
    beBytes 8 header.sequence ++ beBytes 8 header.mediaTimestamp ++ [boolByte header.keyframe]

def mediaE2eeFrameAad (header : MediaE2eeFrameHeader) : Except MediaE2eeProtocolError Bytes := do
  rejectIf (header.sessionBinding.bytes.all (· = 0)) .invalidSessionBinding
  rejectIf (header.keyEpoch = 0 ∨ header.negotiationGeneration = 0) .invalidEpoch
  rejectIf (header.cryptoSuite ≠ .ucrV1) .unsupportedCryptoSuite
  rejectIf (header.mediaKind = .audio ∧ header.keyframe) .invalidAudioHeader
  return mediaE2eeFrameAadV1Domain ++ mediaE2eeHeaderBytes header

def validateEncryptedMediaFrame (context : MediaE2eeContext) (frame : EncryptedMediaFrame) :
    Except MediaE2eeProtocolError Unit := do
  let context ← canonicalMediaE2eeContext context
  let header := frame.header
  let _ ← mediaE2eeFrameAad header
  rejectIf (frame.ciphertext = []) .emptyCiphertext
  rejectIf (frame.ciphertext.length > maxEncryptedMediaPayloadBytes) .ciphertextTooLarge
  rejectIf (header.scope ≠ context.scope ∨ header.callId ≠ context.callId ∨
    header.negotiationRef ≠ context.negotiationRef ∨
    header.negotiationGeneration ≠ context.negotiationGeneration ∨
    header.keyEpoch ≠ context.keyEpoch ∨ header.cryptoSuite ≠ context.cryptoSuite) .contextMismatch

def groupMediaContextV1Domain : Bytes := utf8 "UCR-GROUP-MEDIA-CONTEXT-V1\x00"
def groupMediaFrameAadV1Domain : Bytes := utf8 "UCR-GROUP-MEDIA-FRAME-AAD-V1\x00"
def groupMediaFrameAadV2Domain : Bytes := utf8 "UCR-GROUP-MEDIA-FRAME-AAD-V2\x00"
def groupMediaFrameHeaderV1 : UInt8 := 1
def groupMediaFrameHeaderV2 : UInt8 := 2
def groupMediaKeyContextV1Domain : Bytes := utf8 "UCR-GROUP-MEDIA-KEY-CONTEXT-V1\x00"
def groupMediaSourceSignatureV1Domain : Bytes := utf8 "UCR-GROUP-MEDIA-SOURCE-SIGNATURE-V1\x00"
def maxEncryptedGroupMediaPayloadBytes : ℕ := 2 * 1024 * 1024 + 16
def groupMediaSignatureLen : ℕ := 64

inductive GroupMediaE2eeProtocolError
  | invalidNegotiation
  | invalidEpoch
  | unsupportedCryptoSuite
  | contextMismatch
  | deviceParticipantMismatch
  | emptyCiphertext
  | ciphertextTooLarge
  | invalidAudioHeader
  | unsupportedFrameHeaderVersion
  | invalidMediaSourceKind
  | screenShareCapabilityNotNegotiated
  | invalidSourceSignature
deriving DecidableEq

variable (context : GroupMediaE2eeContext)

def canonicalGroupMediaE2eeContext :
    Except GroupMediaE2eeProtocolError GroupMediaE2eeContext := do
  rejectIf (context.negotiationGeneration = 0) .invalidNegotiation
  rejectIf (context.cryptoSuite ≠ .ucrV1) .unsupportedCryptoSuite
  return context

def groupMediaContextBinding :
    Except GroupMediaE2eeProtocolError Digest := do
  let context ← canonicalGroupMediaE2eeContext context
  return sha256 (groupMediaContextV1Domain ++ pushScope context.scope ++
    pushBytes context.callId.asWireBytes ++ pushBytes context.groupId.asWireBytes ++
    pushBytes context.negotiationRef.asWireBytes ++ beBytes 8 context.negotiationGeneration ++
    beBytes 8 context.cryptoEpoch ++ pushBytes context.cryptoStateRef.asWireBytes ++
    beBytes 4 context.cryptoSuite.code)

def groupMediaKeyContext (source : PrincipalRef)
    (sourceDeviceId : DeviceId) (streamId : OpaqueId) (mediaKind : MediaKind) :
    Except GroupMediaE2eeProtocolError Bytes := do
  let _ ← canonicalGroupMediaE2eeContext context
  let binding ← groupMediaContextBinding context
  return groupMediaKeyContextV1Domain ++ binding.bytes ++ pushPrincipal source ++
    pushBytes sourceDeviceId.asWireBytes ++ pushBytes streamId.asWireBytes ++ [mediaKind.code]

variable (header : GroupMediaFrameHeader)

-- Which sources a header may name: the first version knows no screens.
def validateMediaSourceKind :
    Except GroupMediaE2eeProtocolError Unit :=
  if header.headerVersion = groupMediaFrameHeaderV1 ∨
      header.headerVersion = groupMediaFrameHeaderV2 then
    match header.mediaKind, header.videoSourceKind with
    | .audio, none => .ok ()
    | .video, some .camera => .ok ()
    | .video, some .screenShare =>
      rejectIf (header.headerVersion ≠ groupMediaFrameHeaderV2) .invalidMediaSourceKind
    | _, _ => .error .invalidMediaSourceKind
  else
    .error .unsupportedFrameHeaderVersion

def mediaSourceKindCode : UInt8 :=
  match header.mediaKind, header.videoSourceKind with
  | .audio, none => 0
  | .video, some .camera => 1
  | .video, some .screenShare => 2
  | _, _ => 255

-- What every version of a header writes before the kind of its source, and after it.
def groupMediaHeaderBytes : Bytes :=
  pushScope header.scope ++ pushBytes header.callId.asWireBytes ++
    pushBytes header.groupId.asWireBytes ++ pushBytes header.streamId.asWireBytes ++
    pushPrincipal header.source ++ pushBytes header.sourceDeviceId.asWireBytes ++
    pushBytes header.negotiationRef.asWireBytes ++ beBytes 8 header.negotiationGeneration ++
    beBytes 8 header.cryptoEpoch ++ pushBytes header.cryptoStateRef.asWireBytes ++
    beBytes 4 header.cryptoSuite.code ++ [header.mediaKind.code]

def groupMediaTrailerBytes : Bytes :=
  beBytes 8 header.sequence ++ beBytes 8 header.mediaTimestamp ++ [boolByte header.keyframe]

def groupMediaFrameAad :
    Except GroupMediaE2eeProtocolError Bytes := do
  rejectIf (header.negotiationGeneration = 0) .invalidNegotiation
  rejectIf (header.cryptoSuite ≠ .ucrV1) .unsupportedCryptoSuite
  rejectIf (header.mediaKind = .audio ∧ header.keyframe) .invalidAudioHeader
  validateMediaSourceKind header
  if header.headerVersion = groupMediaFrameHeaderV1 then
    return groupMediaFrameAadV1Domain ++ groupMediaHeaderBytes header ++ groupMediaTrailerBytes header
  else if header.headerVersion = groupMediaFrameHeaderV2 then
    return groupMediaFrameAadV2Domain ++ groupMediaHeaderBytes header ++
      [mediaSourceKindCode header] ++ groupMediaTrailerBytes header
  else
    throw .unsupportedFrameHeaderVersion

def groupMediaSigningText (aad : Bytes) (nonce : AeadNonce) (ciphertext : Bytes) : Bytes :=
  groupMediaSourceSignatureV1Domain ++ lengthPrefixed 8 aad ++ nonce.val ++
    lengthPrefixed 8 ciphertext

def groupMediaSourceSigningBinding (nonce : AeadNonce)
    (ciphertext : Bytes) : Except GroupMediaE2eeProtocolError Digest := do
  let aad ← groupMediaFrameAad header
  rejectIf (ciphertext = []) .emptyCiphertext
  rejectIf (ciphertext.length > maxEncryptedGroupMediaPayloadBytes) .ciphertextTooLarge
  return sha256 (groupMediaSigningText aad nonce ciphertext)

def validateEncryptedGroupMediaFrame (frame : EncryptedGroupMediaFrame) :
    Except GroupMediaE2eeProtocolError Unit := do
  let context ← canonicalGroupMediaE2eeContext context
  let header := frame.header
  let _ ← groupMediaFrameAad header
  rejectIf (frame.ciphertext = []) .emptyCiphertext
  rejectIf (frame.ciphertext.length > maxEncryptedGroupMediaPayloadBytes) .ciphertextTooLarge
  rejectIf (frame.sourceSignature.algorithmId ≠ signatureAlgorithmId ∨
    frame.sourceSignature.algorithmVersion ≠ algorithmVersion ∨
    frame.sourceSignature.signature.length ≠ groupMediaSignatureLen) .invalidSourceSignature
  let _ ← groupMediaSourceSigningBinding header frame.nonce frame.ciphertext
  rejectIf (header.scope ≠ context.scope ∨ header.callId ≠ context.callId ∨
    header.groupId ≠ context.groupId ∨ header.negotiationRef ≠ context.negotiationRef ∨
    header.negotiationGeneration ≠ context.negotiationGeneration ∨
    header.cryptoEpoch ≠ context.cryptoEpoch ∨ header.cryptoStateRef ≠ context.cryptoStateRef ∨
    header.cryptoSuite ≠ context.cryptoSuite) .contextMismatch

end Ucr
