import Ucr.Protocol.Device
import Ucr.Store.State

-- Identities, their devices, and the signing keys devices are trusted by. Losing its access costs a
-- device its key.

namespace Ucr

open Except

inductive TrustedKeyResolutionError
  | notTrusted
  | unavailable
  | corrupt
  | permissionDenied
  | internal
deriving DecidableEq

namespace MemoryState

variable (s : MemoryState)

def persistIdentity (identity : IdentityRecord) :
    StoreResult (DurableRecordStatus × MemoryState) := do
  (validateIdentityRecord identity).mapError fun _ => .invalidRecord
  let key := (identity.scope, identity.identityId)
  match ← storeOnce (s.identities.get key) identity with
  | .duplicate => return (.duplicate, s)
  | .persisted => return (.persisted, { s with identities := s.identities.put key identity })

variable (scope : TenantScope)

def deviceAllowsAccess (deviceId : DeviceId)
    (identityId : Option IdentityId) : Bool :=
  (s.devices.get (scope, deviceId)).any fun device =>
    deviceAllowsProtectedAccess device && identityId.all (device.identityId = ·)

-- A key becomes the one its device is trusted by.
def trustSigningKey (descriptor : PublicKeyDescriptor) :
    MemoryState :=
  { s with
    trustedSigningKeys :=
      s.trustedSigningKeys.put (scope, descriptor.keyId) ⟨scope, descriptor, .active⟩
    activeTrustedSigningKeys :=
      s.activeTrustedSigningKeys.put (scope, descriptor.deviceId) descriptor.keyId }

-- The record of the key a device is trusted by, as it has to be for the key to be replaced.
def activeKeyRecord (deviceId : DeviceId) (keyId : KeyId) :
    StoreResult TrustedSigningKeyRecord := do
  let record ← (s.trustedSigningKeys.get (scope, keyId)).okOr .corrupt
  rejectIf (record.state ≠ .active ∨ record.descriptor.deviceId ≠ deviceId) .corrupt
  return record

def revokeKey (deviceId : DeviceId) (keyId : KeyId) :
    StoreResult MemoryState := do
  let record ← s.activeKeyRecord scope deviceId keyId
  return { s with
    trustedSigningKeys :=
      s.trustedSigningKeys.put (scope, keyId) { record with state := .revoked }
    activeTrustedSigningKeys := s.activeTrustedSigningKeys.erase (scope, deviceId) }

def revokeActiveKey (deviceId : DeviceId) :
    StoreResult MemoryState :=
  match s.activeTrustedSigningKeys.get (scope, deviceId) with
  | some keyId => s.revokeKey scope deviceId keyId
  | none => return s

def enrollNewTrustedDevice (device : DeviceDescriptor)
    (signingKey : PublicKeyDescriptor) : StoreResult (Unit × MemoryState) := do
  rejectIf (device.state ≠ .active ∨ signingKey.deviceId ≠ device.deviceId) .invalidRecord
  (validateTrustedSigningKeyDescriptor signingKey).mapError fun _ => .invalidRecord
  rejectIf (s.identities.get (scope, device.identityId)).isNone .permissionDenied
  match s.devices.get (scope, device.deviceId) with
  | some existing =>
    rejectIf (existing ≠ device) .conflict
    rejectIf (s.activeTrustedSigningKeys.get (scope, device.deviceId) ≠ some signingKey.keyId)
      .conflict
    let current ← (s.trustedSigningKeys.get (scope, signingKey.keyId)).okOr .corrupt
    rejectIf (¬(current.state = .active ∧ current.descriptor = signingKey)) .conflict
    return ((), s)
  | none =>
    rejectIf ((s.trustedSigningKeys.get (scope, signingKey.keyId)).isSome ∨
      (s.activeTrustedSigningKeys.get (scope, device.deviceId)).isSome) .conflict
    let enrolled := { s with devices := s.devices.put (scope, device.deviceId) device }
    return ((), enrolled.trustSigningKey scope signingKey)

def registerDevice (descriptor : DeviceDescriptor) :
    StoreResult (Unit × MemoryState) := do
  let key := (scope, descriptor.deviceId)
  match s.devices.get key with
  | some existing =>
    rejectIf (existing ≠ descriptor) .conflict
    return ((), s)
  | none =>
    let s ← if deviceAllowsProtectedAccess descriptor then pure s
      else s.revokeActiveKey scope descriptor.deviceId
    return ((), { s with devices := s.devices.put key descriptor })

def revokeDevice (deviceId : DeviceId)
    (expectedIdentityId : IdentityId) : StoreResult (Unit × MemoryState) := do
  let key := (scope, deviceId)
  let device ← (s.devices.get key).okOr .conflict
  rejectIf (device.identityId ≠ expectedIdentityId) .conflict
  if device.state = .revoked then
    rejectIf (s.activeTrustedSigningKeys.get key).isSome .corrupt
    return ((), s)
  let s ← s.revokeActiveKey scope deviceId
  return ((), { s with devices := s.devices.put key { device with state := .revoked } })

def activateReverifiedDevice (proof : DeviceReverificationProof) :
    StoreResult (Unit × MemoryState) := do
  let key := (proof.scope, proof.deviceId)
  let device ← (s.devices.get key).okOr .conflict
  rejectIf (device.identityId ≠ proof.identityId ∨ device.state ≠ .reverificationRequired) .conflict
  return ((), { s with devices := s.devices.put key { device with state := .active } })

def provisionTrustedSigningKey (descriptor : PublicKeyDescriptor) :
    StoreResult (Unit × MemoryState) := do
  (validateTrustedSigningKeyDescriptor descriptor).mapError fun _ => .invalidRecord
  rejectIf (¬s.deviceAllowsAccess scope descriptor.deviceId none) .permissionDenied
  match s.trustedSigningKeys.get (scope, descriptor.keyId) with
  | some existing =>
    rejectIf (¬(existing.state = .active ∧ existing.descriptor = descriptor ∧
      s.activeTrustedSigningKeys.get (scope, descriptor.deviceId) = some descriptor.keyId)) .conflict
    return ((), s)
  | none =>
    rejectIf (s.activeTrustedSigningKeys.get (scope, descriptor.deviceId)).isSome .conflict
    return ((), s.trustSigningKey scope descriptor)

-- Whether the key was replaced before, so that there is nothing left to do.
def alreadyRotated (deviceId : DeviceId)
    (expectedCurrent : KeyId) (replacement : PublicKeyDescriptor) : Bool :=
  (s.trustedSigningKeys.get (scope, expectedCurrent)).any (fun record =>
    record.state = .revoked && record.descriptor.deviceId = deviceId) &&
  (s.trustedSigningKeys.get (scope, replacement.keyId)).any (fun record =>
    record.state = .active && record.descriptor = replacement)

def rotateTrustedSigningKey (deviceId : DeviceId)
    (expectedCurrent : KeyId) (replacement : PublicKeyDescriptor) :
    StoreResult (Unit × MemoryState) := do
  (validateTrustedSigningKeyDescriptor replacement).mapError fun _ => .invalidRecord
  rejectIf (replacement.deviceId ≠ deviceId ∨ replacement.keyId = expectedCurrent) .conflict
  rejectIf (¬s.deviceAllowsAccess scope deviceId none) .permissionDenied
  let active := s.activeTrustedSigningKeys.get (scope, deviceId)
  if active = some replacement.keyId then
    rejectIf (¬s.alreadyRotated scope deviceId expectedCurrent replacement) .conflict
    return ((), s)
  rejectIf (active ≠ some expectedCurrent) .conflict
  rejectIf (s.trustedSigningKeys.get (scope, replacement.keyId)).isSome .conflict
  let current ← s.activeKeyRecord scope deviceId expectedCurrent
  let revoked := { s with trustedSigningKeys :=
    s.trustedSigningKeys.put (scope, expectedCurrent) { current with state := .revoked } }
  return ((), revoked.trustSigningKey scope replacement)

def revokeTrustedSigningKey (deviceId : DeviceId)
    (expectedCurrent : KeyId) : StoreResult (Unit × MemoryState) := do
  match s.activeTrustedSigningKeys.get (scope, deviceId) with
  | some active =>
    rejectIf (active ≠ expectedCurrent) .conflict
    return ((), ← s.revokeKey scope deviceId expectedCurrent)
  | none =>
    rejectIf (¬(s.trustedSigningKeys.get (scope, expectedCurrent)).any fun record =>
      record.state = .revoked && record.descriptor.deviceId = deviceId) .conflict
    return ((), s)

def resolveActiveSigningKey (deviceId : DeviceId)
    (identityId : Option IdentityId) (keyId : KeyId) :
    Except TrustedKeyResolutionError PublicKeyDescriptor := do
  rejectIf (¬s.deviceAllowsAccess scope deviceId identityId) .notTrusted
  rejectIf (s.activeTrustedSigningKeys.get (scope, deviceId) ≠ some keyId) .notTrusted
  let record ← (s.trustedSigningKeys.get (scope, keyId)).okOr .corrupt
  rejectIf (record.state ≠ .active ∨ record.descriptor.deviceId ≠ deviceId) .corrupt
  (validateTrustedSigningKeyDescriptor record.descriptor).mapError fun _ => .corrupt
  return record.descriptor

-- Plans are addressed by their identifier alone; an identity has at most one active plan.
def installRecoveryPlan (plan : RecoveryPlan) :
    StoreResult (Unit × MemoryState) := do
  let plan ← (canonicalRecoveryPlan plan).mapError fun _ => .invalidRecord
  let identityKey := (plan.scope, plan.identityId)
  match s.recoveryPlans.get plan.planId with
  | some existing =>
    rejectIf (¬(existing = plan ∧ s.activeRecoveryPlans.get identityKey = some plan.planId)) .conflict
    return ((), s)
  | none =>
    rejectIf (s.activeRecoveryPlans.get identityKey).isSome .conflict
    return ((), { s with
      recoveryPlans := s.recoveryPlans.put plan.planId plan
      activeRecoveryPlans := s.activeRecoveryPlans.put identityKey plan.planId })

def rotateRecoveryPlan (expectedCurrent : RecoveryPlanId)
    (replacement : RecoveryPlan) : StoreResult (Unit × MemoryState) := do
  let replacement ← (canonicalRecoveryPlan replacement).mapError fun _ => .invalidRecord
  let identityKey := (replacement.scope, replacement.identityId)
  let current ← (s.recoveryPlans.get expectedCurrent).okOr .conflict
  rejectIf (current.scope ≠ replacement.scope ∨ current.identityId ≠ replacement.identityId) .conflict
  rejectIf (s.activeRecoveryPlans.get identityKey ≠ some expectedCurrent) .conflict
  if replacement.planId = expectedCurrent then
    rejectIf (current ≠ replacement) .conflict
    return ((), s)
  rejectIf (s.recoveryPlans.get replacement.planId).isSome .conflict
  return ((), { s with
    recoveryPlans := s.recoveryPlans.put replacement.planId replacement
    activeRecoveryPlans := s.activeRecoveryPlans.put identityKey replacement.planId })

def revokeRecoveryPlan (identityId : IdentityId)
    (expectedCurrent : RecoveryPlanId) : StoreResult (Unit × MemoryState) := do
  let identityKey := (scope, identityId)
  match s.activeRecoveryPlans.get identityKey with
  | some active =>
    rejectIf (active ≠ expectedCurrent) .conflict
    return ((), { s with activeRecoveryPlans := s.activeRecoveryPlans.erase identityKey })
  | none =>
    rejectIf (¬(s.recoveryPlans.get expectedCurrent).any fun plan =>
      plan.scope = scope && plan.identityId = identityId) .conflict
    return ((), s)

def activeRecoveryPlan (identityId : IdentityId) :
    StoreResult (Option RecoveryPlan) :=
  match s.activeRecoveryPlans.get (scope, identityId) with
  | none => return none
  | some planId => some <$> (s.recoveryPlans.get planId).okOr .corrupt

def stageRecoveredDevice (proof : RecoveryAdmissionProof) :
    StoreResult (Unit × MemoryState) := do
  rejectIf (proof.recoveredDeviceState ≠ .reverificationRequired) .invalidRecord
  let key := (proof.scope, proof.targetDeviceId)
  rejectIf (s.activeRecoveryPlans.get (proof.scope, proof.identityId) ≠ some proof.planId)
    .permissionDenied
  match s.devices.get key with
  | some existing =>
    rejectIf (existing ≠ proof.recoveredDevice) .conflict
    return ((), s)
  | none =>
    let s ← s.revokeActiveKey proof.scope proof.targetDeviceId
    return ((), { s with devices := s.devices.put key proof.recoveredDevice })

end MemoryState

inductive DeviceOp
  | persistIdentity (identity : IdentityRecord)
  | enrollNewTrustedDevice (scope : TenantScope) (device : DeviceDescriptor)
      (signingKey : PublicKeyDescriptor)
  | registerDevice (scope : TenantScope) (descriptor : DeviceDescriptor)
  | revokeDevice (scope : TenantScope) (deviceId : DeviceId) (expectedIdentityId : IdentityId)
  | activateReverifiedDevice (proof : DeviceReverificationProof)
  | provisionTrustedSigningKey (scope : TenantScope) (descriptor : PublicKeyDescriptor)
  | rotateTrustedSigningKey (scope : TenantScope) (deviceId : DeviceId) (expectedCurrent : KeyId)
      (replacement : PublicKeyDescriptor)
  | revokeTrustedSigningKey (scope : TenantScope) (deviceId : DeviceId) (expectedCurrent : KeyId)
  | installRecoveryPlan (plan : RecoveryPlan)
  | rotateRecoveryPlan (expectedCurrent : RecoveryPlanId) (replacement : RecoveryPlan)
  | revokeRecoveryPlan (scope : TenantScope) (identityId : IdentityId)
      (expectedCurrent : RecoveryPlanId)
  | stageRecoveredDevice (proof : RecoveryAdmissionProof)

def DeviceOp.run (s : MemoryState) : DeviceOp → MemoryState
  | .persistIdentity identity => ((s.persistIdentity identity).commit s).2
  | .enrollNewTrustedDevice scope device signingKey =>
    ((s.enrollNewTrustedDevice scope device signingKey).commit s).2
  | .registerDevice scope descriptor => ((s.registerDevice scope descriptor).commit s).2
  | .revokeDevice scope deviceId expectedIdentityId =>
    ((s.revokeDevice scope deviceId expectedIdentityId).commit s).2
  | .activateReverifiedDevice proof => ((s.activateReverifiedDevice proof).commit s).2
  | .provisionTrustedSigningKey scope descriptor =>
    ((s.provisionTrustedSigningKey scope descriptor).commit s).2
  | .rotateTrustedSigningKey scope deviceId expectedCurrent replacement =>
    ((s.rotateTrustedSigningKey scope deviceId expectedCurrent replacement).commit s).2
  | .revokeTrustedSigningKey scope deviceId expectedCurrent =>
    ((s.revokeTrustedSigningKey scope deviceId expectedCurrent).commit s).2
  | .installRecoveryPlan plan => ((s.installRecoveryPlan plan).commit s).2
  | .rotateRecoveryPlan expectedCurrent replacement =>
    ((s.rotateRecoveryPlan expectedCurrent replacement).commit s).2
  | .revokeRecoveryPlan scope identityId expectedCurrent =>
    ((s.revokeRecoveryPlan scope identityId expectedCurrent).commit s).2
  | .stageRecoveredDevice proof => ((s.stageRecoveredDevice proof).commit s).2

inductive RecoveryPlanOp
  | install (plan : RecoveryPlan)
  | rotate (expectedCurrent : RecoveryPlanId) (replacement : RecoveryPlan)
  | revoke (scope : TenantScope) (identityId : IdentityId) (expectedCurrent : RecoveryPlanId)
  | read (scope : TenantScope) (identityId : IdentityId)
deriving DecidableEq

inductive RecoveryPlanAnswer
  | written (result : StoreResult Unit)
  | read (result : StoreResult (Option RecoveryPlan))
deriving DecidableEq

def RecoveryPlanOp.scope : RecoveryPlanOp → TenantScope
  | .install plan => plan.scope
  | .rotate _ replacement => replacement.scope
  | .revoke scope _ _ => scope
  | .read scope _ => scope

def RecoveryPlanOp.step (s : MemoryState) : RecoveryPlanOp → RecoveryPlanAnswer × MemoryState
  | .install plan => ((s.installRecoveryPlan plan).commit s).map .written id
  | .rotate expectedCurrent replacement =>
    ((s.rotateRecoveryPlan expectedCurrent replacement).commit s).map .written id
  | .revoke scope identityId expectedCurrent =>
    ((s.revokeRecoveryPlan scope identityId expectedCurrent).commit s).map .written id
  | .read scope identityId => (.read (s.activeRecoveryPlan scope identityId), s)

end Ucr
