import Ucr.Objects.Device
import Ucr.Objects.Message
import Ucr.Lib.Sha256

-- Encoded audio and video, and the envelopes that carry it end-to-end encrypted.

namespace Ucr

inductive AudioChannelLayout
  | mono
  | stereo

inductive AudioFrameDuration
  | ms2_5
  | ms5
  | ms10
  | ms20
  | ms40
  | ms60

structure AudioCodecConfig where
  codecCapabilityId : String
  sampleRateHz      : U32
  channelLayout     : AudioChannelLayout
  frameDuration     : AudioFrameDuration

structure AudioStreamDescriptor where
  scope : TenantScope
  callId : CallId
  streamId : OpaqueId
  source : PrincipalRef
  codec : AudioCodecConfig
  negotiationRef : OpaqueId
  negotiationGeneration : U64

structure EncodedAudioFrame where
  scope : TenantScope
  callId : CallId
  streamId : OpaqueId
  source : PrincipalRef
  negotiationRef : OpaqueId
  negotiationGeneration : U64
  sequence : U64
  mediaTimestampSamples : U64
  payload : Bytes

inductive VideoSourceKind
  | camera
  | screenShare
deriving DecidableEq

structure VideoCodecConfig where
  codecCapabilityId : String
  width : U32
  height : U32
  frameRate : U32
  targetBitrateBps : U32

structure VideoStreamDescriptor where
  scope : TenantScope
  callId : CallId
  streamId : OpaqueId
  source : PrincipalRef
  sourceKind : VideoSourceKind
  codec : VideoCodecConfig
  negotiationRef : OpaqueId
  negotiationGeneration : U64

structure EncodedVideoFrame where
  scope : TenantScope
  callId : CallId
  streamId : OpaqueId
  source : PrincipalRef
  negotiationRef : OpaqueId
  negotiationGeneration : U64
  sequence : U64
  mediaTimestampUs : U64
  keyframe : Bool
  payload : Bytes

inductive MediaKind
  | audio
  | video
deriving DecidableEq

abbrev AeadNonce := { bytes : Bytes // bytes.length = 24 }

structure MediaE2eeContext where
  scope : TenantScope
  callId : CallId
  initiator : PrincipalRef
  responder : PrincipalRef
  initiatorDeviceId : DeviceId
  responderDeviceId : DeviceId
  negotiationRef : OpaqueId
  negotiationGeneration : U64
  keyEpoch : U64
  cryptoSuite : CryptoSuite

structure MediaE2eeFrameHeader where
  scope : TenantScope
  callId : CallId
  streamId : OpaqueId
  source : PrincipalRef
  recipient : PrincipalRef
  negotiationRef : OpaqueId
  negotiationGeneration : U64
  keyEpoch : U64
  cryptoSuite : CryptoSuite
  sessionBinding : Digest
  mediaKind : MediaKind
  sequence : U64
  mediaTimestamp : U64
  keyframe : Bool

structure EncryptedMediaFrame where
  header     : MediaE2eeFrameHeader
  nonce      : AeadNonce
  ciphertext : Bytes

structure GroupMediaE2eeContext where
  scope : TenantScope
  callId : CallId
  groupId : GroupId
  negotiationRef : OpaqueId
  negotiationGeneration : U64
  cryptoEpoch : U64
  cryptoStateRef : OpaqueId
  cryptoSuite : CryptoSuite

structure GroupMediaFrameHeader where
  scope : TenantScope
  callId : CallId
  groupId : GroupId
  streamId : OpaqueId
  source : PrincipalRef
  sourceDeviceId : DeviceId
  negotiationRef : OpaqueId
  negotiationGeneration : U64
  cryptoEpoch : U64
  cryptoStateRef : OpaqueId
  cryptoSuite : CryptoSuite
  headerVersion : UInt8
  mediaKind : MediaKind
  videoSourceKind : Option VideoSourceKind
  sequence : U64
  mediaTimestamp : U64
  keyframe : Bool

structure GroupMediaSourceSignature where
  keyId : KeyId
  algorithmId : String
  algorithmVersion : U32
  signature : Bytes

structure EncryptedGroupMediaFrame where
  header : GroupMediaFrameHeader
  nonce : AeadNonce
  ciphertext : Bytes
  sourceSignature : GroupMediaSourceSignature

end Ucr
