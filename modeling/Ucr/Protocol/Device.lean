import Ucr.Objects.Device
import Ucr.Protocol.Message

-- What is checked of identities, signing keys and recovery plans.

namespace Ucr

open Except Encoding

def maxRecoveryAuthorities : ℕ := 64
def agreementAlgorithmId : String := "x25519"
def keyFormatVersion : U32 := 1
def ed25519PublicKeyLen : ℕ := 32
def x25519PublicKeyLen : ℕ := 32

inductive IdentityError
  | invalidExpiry

inductive CryptoContractError
  | wrongAlgorithm
  | wrongAlgorithmVersion
  | wrongKeyFormatVersion
  | wrongPublicKeyLength

inductive TrustedSigningKeyError
  | wrongPurpose
  | invalidDescriptor (error : CryptoContractError)

inductive RecoveryError
  | noAuthorities
  | duplicateAuthority
  | tooManyAuthorities
  | methodNotAllowed
  | planMismatch
  | scopeMismatch
  | identityMismatch
  | unsafeRecoveredDeviceState
  | historicalAccessNotExplicit
  | trustModelAuthorityMismatch

def validateIdentityRecord (identity : IdentityRecord) : Except IdentityError Unit :=
  rejectIf (identity.expiresAtUnixMs.any (· ≤ 0)) .invalidExpiry

def deviceAllowsProtectedAccess (device : DeviceDescriptor) : Bool :=
  device.state = .active

def validatePublicKeyDescriptor (descriptor : PublicKeyDescriptor) :
    Except CryptoContractError Unit := do
  let (algorithm, keyLen) := match descriptor.purpose with
    | .signing      => (signatureAlgorithmId, ed25519PublicKeyLen)
    | .keyAgreement => (agreementAlgorithmId, x25519PublicKeyLen)
  rejectIf (descriptor.algorithmId ≠ algorithm) .wrongAlgorithm
  rejectIf (descriptor.algorithmVersion ≠ algorithmVersion) .wrongAlgorithmVersion
  rejectIf (descriptor.keyFormatVersion ≠ keyFormatVersion) .wrongKeyFormatVersion
  rejectIf (descriptor.publicKey.length ≠ keyLen) .wrongPublicKeyLength

def validateTrustedSigningKeyDescriptor (descriptor : PublicKeyDescriptor) :
    Except TrustedSigningKeyError Unit := do
  rejectIf (descriptor.purpose ≠ .signing) .wrongPurpose
  (validatePublicKeyDescriptor descriptor).mapError .invalidDescriptor

-- Whether an authority opens messages that were sent before the recovery.
def opensHistory (authority : RecoveryAuthority) : Bool :=
  authority.method ≠ .recoveryCode

def isOrganizationManaged (authority : RecoveryAuthority) : Bool :=
  authority.method = .organizationManaged

def validateRecoveryPlan (plan : RecoveryPlan) : Except RecoveryError Unit := do
  rejectIf plan.authorities.isEmpty .noAuthorities
  rejectIf (plan.authorities.length > maxRecoveryAuthorities) .tooManyAuthorities
  rejectIf (¬plan.authorities.Nodup) .duplicateAuthority
  rejectIf (plan.recoveredDeviceState ≠ .reverificationRequired) .unsafeRecoveredDeviceState
  rejectIf (plan.historicalMessageAccess = .explicitEncryptedRecovery ∧
    ¬plan.authorities.any opensHistory) .historicalAccessNotExplicit
  match plan.authorities.any isOrganizationManaged, plan.trustModel with
  | true, .organizationManaged | false, .userControlled => return
  | _, _ => throw .trustModelAuthorityMismatch

def canonicalRecoveryPlan (plan : RecoveryPlan) : Except RecoveryError RecoveryPlan := do
  validateRecoveryPlan plan
  return { plan with authorities := plan.authorities.sortOn (·.sortKey) }

namespace RecoveryPlan

def methodCode : RecoveryMethod → UInt8
  | .recoveryCode => 1
  | .recoveryKey => 2
  | .trustedDevice => 3
  | .hardwareBacked => 4
  | .encryptedBackup => 5
  | .organizationManaged => 6

def pushField (value : Bytes) : Bytes :=
  lengthPrefixed 4 value

def encodeAuthority (authority : RecoveryAuthority) : Bytes :=
  methodCode authority.method :: match authority with
    | .trustedDevice id | .hardwareBacked id | .organizationManaged id => pushField id.asWireBytes
    | .recoveryCode | .recoveryKey | .encryptedBackup => []

end RecoveryPlan

-- The last byte stands for the only state a recovered device may be in.
open RecoveryPlan in
def recoveryPlanAad (plan : RecoveryPlan) : Except RecoveryError Bytes := do
  let plan ← canonicalRecoveryPlan plan
  let authorities := (plan.authorities.map encodeAuthority).sortOn (·.map UInt8.toNat)
  return utf8 "UCR-RECOVERY-PLAN-AAD-V1\x00" ++ pushField plan.planId.asWireBytes ++
    pushField plan.scope.tenantId.asWireBytes ++
    pushOptional (pushField ·.asWireBytes) plan.scope.namespaceId ++
    pushField plan.identityId.asWireBytes ++
    beBytes 4 authorities.length ++ authorities.flatMap pushField ++ [
      match plan.historicalMessageAccess with
      | .none => (1 : UInt8)
      | .explicitEncryptedRecovery => 2,
      match plan.trustModel with
      | .userControlled => 1
      | .organizationManaged => 2,
      3]

end Ucr
