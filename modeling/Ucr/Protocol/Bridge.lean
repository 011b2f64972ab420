import Ucr.Objects.Integration

-- Canonical form and lifecycle of bridge registrations.

namespace Ucr

open Except

def bridgeSdkVersion : ProtocolVersion := ⟨1, 0⟩

def bridgeCapabilityCode : BridgeCapability → ℕ
  | .text     => 1
  | .edit     => 2
  | .delete   => 3
  | .reaction => 4
  | .files    => 5
  | .audio    => 6
  | .video    => 7
  | .group    => 8
  | .presence => 9
  | .typing   => 10
  | .calls    => 11
  | .threads  => 12
  | .reply    => 13

def bridgeDataPermissionCode : BridgeDataPermission → ℕ
  | .messageContent => 1
  | .attachmentReferences => 2
  | .externalIdentityReferences => 3
  | .inboundEvents => 4

def mapBridgeExtensionError : ExtensionError → BridgeProtocolError
  | .invalidNamespace | .unsupportedCritical => .invalidExtension
  | .duplicateExtension => .duplicateExtension
  | .tooManyExtensions => .tooManyExtensions
  | .payloadTooLarge => .extensionPayloadTooLarge

def validateVersionRange (min max : ProtocolVersion) (error : BridgeProtocolError) :
    Except BridgeProtocolError Unit :=
  rejectIf (min.major ≠ max.major ∨ min.key > max.key) error

def canonicalBridgeManifest (manifest : BridgeProviderManifest) :
    Except BridgeProtocolError BridgeProviderManifest := do
  (validateNamespacedIdentifier manifest.providerId).mapError fun _ => .invalidProviderId
  validateVersionRange manifest.sdkMin manifest.sdkMax .invalidSdkRange
  rejectIf (bridgeSdkVersion.key < manifest.sdkMin.key ∨
    bridgeSdkVersion.key > manifest.sdkMax.key) .incompatibleSdk
  validateVersionRange manifest.protocolMin manifest.protocolMax .invalidProtocolRange
  rejectIf (runtimeEnvelopeSchemaV1.key < manifest.protocolMin.key ∨
    runtimeEnvelopeSchemaV1.key > manifest.protocolMax.key) .incompatibleProtocol
  rejectIf manifest.capabilities.isEmpty .emptyCapabilities
  let capabilities := manifest.capabilities.sortOn bridgeCapabilityCode
  rejectIf (capabilities.anyAdjacent (· = ·)) .duplicateCapability
  let permissions := manifest.permissions.sortOn bridgeDataPermissionCode
  rejectIf (permissions.anyAdjacent (· = ·)) .duplicatePermission
  let extensions ←
    (canonicalProtocolExtensions manifest.extensions).mapError mapBridgeExtensionError
  return { manifest with
    capabilities := capabilities, permissions := permissions, extensions := extensions }

def canonicalBridgeRegistration (registration : BridgeRegistration) :
    Except BridgeProtocolError BridgeRegistration := do
  rejectIf (registration.generation = 0) .invalidRegistrationGeneration
  let manifest ← canonicalBridgeManifest registration.manifest
  return { registration with manifest := manifest }

-- A revoked registration stays revoked.
def validateBridgeRegistrationTransition (current next : BridgeRegistrationState) :
    Except BridgeProtocolError Unit :=
  match current, next with
  | .active, .disabled | .active, .revoked | .disabled, .active | .disabled, .revoked => return
  | _, _ => throw .invalidRegistrationTransition

end Ucr
