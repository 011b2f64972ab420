import Ucr.Protocol.Extension

-- Bridges to other networks and the grants that let a device join a conference.

namespace Ucr

inductive BridgeCapability
  | text
  | edit
  | delete
  | reaction
  | files
  | audio
  | video
  | group
  | presence
  | typing
  | calls
  | threads
  | reply
deriving DecidableEq

inductive BridgeDataPermission
  | messageContent
  | attachmentReferences
  | externalIdentityReferences
  | inboundEvents
deriving DecidableEq

inductive BridgeRegistrationState
  | active
  | disabled
  | revoked
deriving DecidableEq

structure BridgeProviderManifest where
  providerId : String
  sdkMin : ProtocolVersion
  sdkMax : ProtocolVersion
  protocolMin : ProtocolVersion
  protocolMax : ProtocolVersion
  capabilities : List BridgeCapability
  permissions : List BridgeDataPermission
  extensions : List ProtocolExtension
deriving DecidableEq

structure BridgeRegistration where
  scope : TenantScope
  integrationId : IntegrationId
  manifest : BridgeProviderManifest
  state : BridgeRegistrationState
  generation : U64
deriving DecidableEq

inductive BridgeProtocolError
  | invalidProviderId
  | invalidSdkRange
  | incompatibleSdk
  | invalidProtocolRange
  | incompatibleProtocol
  | emptyCapabilities
  | duplicateCapability
  | duplicatePermission
  | invalidExtension
  | duplicateExtension
  | tooManyExtensions
  | extensionPayloadTooLarge
  | invalidRegistrationGeneration
  | invalidRegistrationTransition

inductive ConferenceJoinGrantUsePolicy
  | singleUse
  | reusable
deriving DecidableEq

structure ConferenceJoinGrantRecord where
  scope : TenantScope
  conferenceId : GroupId
  integrationId : IntegrationId
  callId : CallId
  participant : PrincipalRef
  deviceId : DeviceId
  sessionId : SessionId
  issuedAtUnixMs : ℤ
  notBeforeUnixMs : ℤ
  expiresAtUnixMs : ℤ
  usePolicy : ConferenceJoinGrantUsePolicy
  revoked : Bool
  redeemed : Bool
deriving DecidableEq

end Ucr
