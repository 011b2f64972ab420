import Ucr.Objects.Basic

-- Identities with their devices, the keys devices sign with, and the plans that recover them.

namespace Ucr

inductive IdentityEvidence
  | unverified
  | selfAsserted
  | deviceVerified
  | contactVerified
  | organizationVerified
  | externalProviderVerified
deriving DecidableEq

inductive IdentityOwnership
  | ucrNative
  | userManaged
  | platformManaged
  | organizationManaged
  | federated
  | temporary
deriving DecidableEq

structure IdentityRecord where
  scope : TenantScope
  identityId : IdentityId
  ownership : IdentityOwnership
  evidence : IdentityEvidence
  expiresAtUnixMs : Option ℤ
deriving DecidableEq

inductive DeviceLifecycleState
  | active
  | stale
  | reverificationRequired
  | expired
  | revoked
deriving DecidableEq

structure DeviceDescriptor where
  deviceId   : DeviceId
  identityId : IdentityId
  state      : DeviceLifecycleState
deriving DecidableEq

inductive KeyPurpose
  | signing
  | keyAgreement
deriving DecidableEq

structure PublicKeyDescriptor where
  keyId : KeyId
  deviceId : DeviceId
  purpose : KeyPurpose
  algorithmId : String
  algorithmVersion : U32
  keyFormatVersion : U32
  publicKey : Bytes
deriving DecidableEq

inductive TrustedSigningKeyState
  | active
  | revoked
deriving DecidableEq

structure TrustedSigningKeyRecord where
  scope      : TenantScope
  descriptor : PublicKeyDescriptor
  state      : TrustedSigningKeyState
deriving DecidableEq

inductive RecoveryMethod
  | recoveryCode
  | recoveryKey
  | trustedDevice
  | hardwareBacked
  | encryptedBackup
  | organizationManaged
deriving DecidableEq

inductive RecoveryAuthority
  | recoveryCode
  | recoveryKey
  | trustedDevice (deviceId : DeviceId)
  | hardwareBacked (deviceId : DeviceId)
  | encryptedBackup
  | organizationManaged (principalId : PrincipalId)
deriving DecidableEq

namespace RecoveryAuthority

def method : RecoveryAuthority → RecoveryMethod
  | .recoveryCode => .recoveryCode
  | .recoveryKey => .recoveryKey
  | .trustedDevice _ => .trustedDevice
  | .hardwareBacked _ => .hardwareBacked
  | .encryptedBackup => .encryptedBackup
  | .organizationManaged _ => .organizationManaged

-- Authorities are ordered by their method first and by what they name second.
def sortKey : RecoveryAuthority → ℕ ×ₗ String
  | .recoveryCode => toLex (0, "")
  | .recoveryKey => toLex (1, "")
  | .trustedDevice deviceId => toLex (2, deviceId.value)
  | .hardwareBacked deviceId => toLex (3, deviceId.value)
  | .encryptedBackup => toLex (4, "")
  | .organizationManaged principalId => toLex (5, principalId.value)

end RecoveryAuthority

inductive HistoricalMessageAccess
  | none
  | explicitEncryptedRecovery
deriving DecidableEq

inductive RecoveryTrustModel
  | userControlled
  | organizationManaged
deriving DecidableEq

structure RecoveryPlan where
  planId : RecoveryPlanId
  scope : TenantScope
  identityId : IdentityId
  authorities : List RecoveryAuthority
  historicalMessageAccess : HistoricalMessageAccess
  trustModel : RecoveryTrustModel
  recoveredDeviceState : DeviceLifecycleState
deriving DecidableEq

-- What was verified before a device is recovered, and before a recovered device is active again.
structure RecoveryAdmissionProof where
  planId : RecoveryPlanId
  scope : TenantScope
  identityId : IdentityId
  targetDeviceId : DeviceId
  recoveredDeviceState : DeviceLifecycleState
deriving DecidableEq

def RecoveryAdmissionProof.recoveredDevice (proof : RecoveryAdmissionProof) : DeviceDescriptor :=
  ⟨proof.targetDeviceId, proof.identityId, proof.recoveredDeviceState⟩

structure DeviceReverificationProof where
  scope      : TenantScope
  deviceId   : DeviceId
  identityId : IdentityId
deriving DecidableEq

end Ucr
