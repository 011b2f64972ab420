import Ucr.Lib.Prog
import Ucr.Store.DeviceStore

-- The recovery of a device. The plan is looked up, the verifier is asked, which may take its time,
-- and the device is staged; a staged device is looked up, another verifier is asked, and the device
-- is activated. Everyone works on the same store, which is locked only for a single access.

namespace Ucr

open Except Interleaving

structure RecoveryRequest where
  planId : RecoveryPlanId
  scope : TenantScope
  identityId : IdentityId
  authority : RecoveryAuthority
  targetDeviceId : DeviceId
deriving DecidableEq

def validateRecoveryRequest (plan : RecoveryPlan) (request : RecoveryRequest) :
    Except RecoveryError Unit := do
  validateRecoveryPlan plan
  rejectIf (request.planId ≠ plan.planId) .planMismatch
  rejectIf (request.scope ≠ plan.scope) .scopeMismatch
  rejectIf (request.identityId ≠ plan.identityId) .identityMismatch
  rejectIf (request.authority ∉ plan.authorities) .methodNotAllowed

-- What both verifiers can answer instead of an approval.
inductive VerificationError
  | denied
  | unavailable

def mapRequestError : RecoveryError → CanonicalErrorCode
  | .methodNotAllowed | .planMismatch | .scopeMismatch | .identityMismatch => .permissionDenied
  | _ => .internal

def mapVerifierError : VerificationError → CanonicalErrorCode
  | .denied      => .permissionDenied
  | .unavailable => .temporarilyUnavailable

def mapStoreReadError : DurableStoreError → CanonicalErrorCode
  | .unavailable => .temporarilyUnavailable
  | .permissionDenied => .permissionDenied
  | _ => .internal

def mapStageError : DurableStoreError → CanonicalErrorCode
  | .conflict => .conflict
  | .permissionDenied => .permissionDenied
  | .full => .resourceExhausted
  | .unavailable => .temporarilyUnavailable
  | _ => .internal

-- The store, with every moment of it up to now.
structure RecoveryWorld where
  store   : MemoryState
  moments : List MemoryState

def RecoveryWorld.start : RecoveryWorld :=
  ⟨.empty, [.empty]⟩

def RecoveryWorld.moveOn (world : RecoveryWorld) (store : MemoryState) : RecoveryWorld :=
  ⟨store, world.moments ++ [store]⟩

-- What is noted down, with the number of the moment it leads to.
inductive RecoveryEvent
  | planRead (request : RecoveryRequest) (plan : RecoveryPlan) (moment : ℕ)
  | approved (request : RecoveryRequest) (plan : RecoveryPlan) (moment : ℕ)
  | staged (proof : RecoveryAdmissionProof) (moment : ℕ)
  | deviceRead (scope : TenantScope) (device : DeviceDescriptor) (moment : ℕ)
  | reverified (scope : TenantScope) (device : DeviceDescriptor) (moment : ℕ)
  | activated (proof : DeviceReverificationProof) (moment : ℕ)
deriving DecidableEq

def RecoveryEvent.moment : RecoveryEvent → ℕ
  | .planRead _ _ moment | .approved _ _ moment | .deviceRead _ _ moment
  | .reverified _ _ moment | .staged _ moment | .activated _ moment => moment

abbrev RecoveryProg (α : Type) :=
  Fallible RecoveryWorld (Except VerificationError Unit) RecoveryEvent CanonicalErrorCode α

namespace Recovery

variable {α : Type}

-- One moment of the world: an access to the store, or an answer of a verifier.
def momentary
    (f : Except VerificationError Unit → MemoryState → Except CanonicalErrorCode α × MemoryState)
    (event : α → ℕ → Option RecoveryEvent) : RecoveryProg (α × ℕ) :=
  .atomic
    (fun answer world =>
      let (result, store) := f answer world.store
      ((·, world.moments.length) <$> result, world.moveOn store))
    fun
      | .ok (a, moment) => event a moment
      | .error _ => none

def locked (f : MemoryState → Except CanonicalErrorCode α × MemoryState)
    (event : α → ℕ → Option RecoveryEvent) : RecoveryProg (α × ℕ) :=
  momentary (fun _ store => f store) event

def askVerifier (event : ℕ → RecoveryEvent) : RecoveryProg (Unit × ℕ) :=
  momentary (fun answer store => (answer.mapError mapVerifierError, store)) fun _ => some ∘ event

def authorizeRecovery (request : RecoveryRequest) : RecoveryProg RecoveryAdmissionProof := do
  let (plan?, _) ← locked
    (fun store => ((store.activeRecoveryPlan request.scope request.identityId).mapError
      mapStoreReadError, store))
    fun plan? moment => plan?.map (.planRead request · moment)
  let plan ← Fallible.ofExcept (plan?.okOr .permissionDenied)
  Fallible.ofExcept ((validateRecoveryRequest plan request).mapError mapRequestError)
  let _ ← askVerifier (.approved request plan)
  return ⟨plan.planId, plan.scope, plan.identityId, request.targetDeviceId, plan.recoveredDeviceState⟩

def authorizeAndStageRecoveredDevice (request : RecoveryRequest) : RecoveryProg DeviceDescriptor := do
  let proof ← authorizeRecovery request
  let _ ← locked (fun store => ((store.stageRecoveredDevice proof).mapError mapStageError).commit store)
    fun _ moment => some (.staged proof moment)
  return proof.recoveredDevice

def authorizeReverification (scope : TenantScope) (deviceId : DeviceId)
    (expectedIdentityId : IdentityId) : RecoveryProg DeviceReverificationProof := do
  let (device?, _) ← locked (fun store => (.ok (store.devices.get (scope, deviceId)), store))
    fun device? moment => device?.map (.deviceRead scope · moment)
  let device ← Fallible.ofExcept (device?.okOr .permissionDenied)
  Fallible.ofExcept (rejectIf (device.identityId ≠ expectedIdentityId ∨
    device.state ≠ .reverificationRequired) .permissionDenied)
  let _ ← askVerifier (.reverified scope device)
  return ⟨scope, device.deviceId, device.identityId⟩

def authorizeAndActivateReverifiedDevice (scope : TenantScope) (deviceId : DeviceId)
    (expectedIdentityId : IdentityId) : RecoveryProg DeviceDescriptor := do
  let proof ← authorizeReverification scope deviceId expectedIdentityId
  let _ ← locked
    (fun store => ((store.activateReverifiedDevice proof).mapError mapStageError).commit store)
    fun _ moment => some (.activated proof moment)
  return ⟨proof.deviceId, proof.identityId, .active⟩

end Recovery

-- Only the gates make proofs, so that only the workflows stage and activate.
def DeviceOp.NeedsProof : DeviceOp → Bool
  | .stageRecoveredDevice _ | .activateReverifiedDevice _ => true
  | _ => false

inductive RecoveryTask
  | lifecycle (op : { op : DeviceOp // ¬op.NeedsProof })
  | recover (request : RecoveryRequest)
  | reverify (scope : TenantScope) (deviceId : DeviceId) (identityId : IdentityId)

def RecoveryTask.program : RecoveryTask → RecoveryProg (Option DeviceDescriptor)
  | .lifecycle op => do
    let _ ← Recovery.locked (fun store => (.ok (), op.val.run store)) fun _ _ => none
    return none
  | .recover request => some <$> Recovery.authorizeAndStageRecoveredDevice request
  | .reverify scope deviceId identityId =>
    some <$> Recovery.authorizeAndActivateReverifiedDevice scope deviceId identityId

def recoveryWorkload : Workload RecoveryWorld (Except VerificationError Unit) RecoveryEvent
    RecoveryTask (Except CanonicalErrorCode (Option DeviceDescriptor)) where
  program task := task.program.run
  env _ _      := False
  allows _ _   := True

end Ucr
