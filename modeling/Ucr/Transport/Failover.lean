import Ucr.Lib.Calls
import Ucr.Store.State
import Ucr.Transport.Plan

-- Sending an envelope along the routes of a plan, with every call to the outside world in sight:
-- which route's provider is asked or invoked, and when clock, policy and device store are.

namespace Ucr.TransportOrchestrator

open Calling Except

def maxTransportFailoverRouteAttempts : U16 := 64

def crossRouteRetryable : CanonicalTransportError → Bool
  | .unavailable | .timeout | .unsupportedCapability => true
  | _ => false

def failoverStopped (error : CanonicalTransportError)
    (attempts : List TransportFailoverAttemptDecision) (stopReason : TransportFailoverStopReason) :
    TransportFailoverExecutionError :=
  ⟨error, ⟨attempts, stopReason⟩⟩

inductive FailoverCall
  | nowUnixMs
  | evaluateIntent (intent : OutboundIntent)
  | health (provider : ProviderHandle)
  | capabilities (provider : ProviderHandle)
  | device (scope : TenantScope) (deviceId : DeviceId)
  | transmitClassified (provider : ProviderHandle) (scope : TenantScope) (route : RouteCandidate)
      (encryptedEnvelope : Bytes)

def FailoverAnswer : FailoverCall → Type
  | .nowUnixMs => ℤ
  | .evaluateIntent .. => PolicyDecision
  | .health .. => TransportHealth
  | .capabilities .. => List CapabilityDescriptor
  | .device .. => StoreResult (Option DeviceDescriptor)
  | .transmitClassified .. => Except ClassifiedTransportFailure Unit

abbrev Failover := Calls FailoverCall FailoverAnswer
abbrev FailoverExchange := Exchange FailoverAnswer

def now : Failover ℤ :=
  Calls.ask FailoverCall.nowUnixMs

def evaluateIntent (intent : OutboundIntent) : Failover PolicyDecision :=
  Calls.ask (FailoverCall.evaluateIntent intent)

variable (planned : PlannedTransportRoute)

def health : Failover TransportHealth :=
  Calls.ask (FailoverCall.health planned.provider)

def capabilities : Failover (List CapabilityDescriptor) :=
  Calls.ask (FailoverCall.capabilities planned.provider)

def device (scope : TenantScope) (deviceId : DeviceId) :
    Failover (StoreResult (Option DeviceDescriptor)) :=
  Calls.ask (FailoverCall.device scope deviceId)

def transmitClassified (scope : TenantScope)
    (encryptedEnvelope : Bytes) : Failover (Except ClassifiedTransportFailure Unit) :=
  Calls.ask (FailoverCall.transmitClassified planned.provider scope planned.route encryptedEnvelope)

def deadlineExpired (policy : TransportFailoverPolicy) : Failover Bool :=
  match policy.expiresAtUnixMs with
  | none => return false
  | some expiresAt => return (← now) ≥ expiresAt

def preRouteGate (intent : OutboundIntent) (policy : TransportFailoverPolicy)
    (attempts : List TransportFailoverAttemptDecision) :
    Failover (Except TransportFailoverExecutionError Unit) := do
  if ← deadlineExpired policy then
    return .error (failoverStopped .timeout attempts .deadlineExpired)
  else if (← evaluateIntent intent) ≠ .allow then
    return .error (failoverStopped .policyDenied attempts .policyChanged)
  else
    return .ok ()

def revalidateProtectedRoute (intent : OutboundIntent) (planned : PlannedTransportRoute) :
    Failover (Except CanonicalTransportError Unit) :=
  match planned.protectedDeviceId with
  | none => return .ok ()
  | some deviceId => do
    match ← device intent.scope deviceId with
    | .error _   => return .error .internal
    | .ok device =>
      return if grantsProtectedAccess intent device then .ok () else .error .policyDenied

-- Without a device store there is nothing to check again.
def protectedRouteGate (intent : OutboundIntent) (protectedDevices : Bool)
    (planned : PlannedTransportRoute) : Failover (Except CanonicalTransportError Unit) :=
  if protectedDevices then revalidateProtectedRoute intent planned else return .ok ()

def executeRankedRoutes (intent : OutboundIntent) (encryptedEnvelope : Bytes)
    (policy : TransportFailoverPolicy) (protectedDevices : Bool)
    (attempts : List TransportFailoverAttemptDecision) (providerAttempts : ℕ)
    (lastError : CanonicalTransportError) :
    List PlannedTransportRoute →
      Failover (Except TransportFailoverExecutionError TransportFailoverDecision)
  | [] => return .error (failoverStopped lastError attempts .routesExhausted)
  | planned :: rest => do
    let tried (outcome : TransportFailoverAttemptOutcome) := attempts ++ [⟨planned.decision, outcome⟩]
    match ← preRouteGate intent policy attempts with
    | .error e => return .error e
    | .ok () =>
      if (← health planned) = .unavailable then
        executeRankedRoutes intent encryptedEnvelope policy protectedDevices
          (tried .skippedUnavailable) providerAttempts .unavailable rest
      else if ¬capabilityIsUsable (← capabilities planned) planned.route.transportCapability then
        executeRankedRoutes intent encryptedEnvelope policy protectedDevices
          (tried .skippedUnsupportedCapability) providerAttempts .unsupportedCapability rest
      else if providerAttempts ≥ policy.maxRouteAttempts then
        return .error (failoverStopped lastError attempts .attemptBudgetExhausted)
      else
        match ← protectedRouteGate intent protectedDevices planned with
        | .error e => return .error (failoverStopped e attempts .policyChanged)
        | .ok () =>
          match ← transmitClassified planned intent.scope encryptedEnvelope with
          | .ok () => return .ok ⟨tried .acceptedByTransport, .acceptedByTransport⟩
          | .error failure =>
            if failure.disposition = .acceptanceUnknown then
              return .error (failoverStopped failure.error (tried .acceptanceUnknown)
                .acceptanceUnknown)
            else if crossRouteRetryable failure.error then
              executeRankedRoutes intent encryptedEnvelope policy protectedDevices
                (tried .failedBeforeAcceptance) (providerAttempts + 1) failure.error rest
            else
              return .error (failoverStopped failure.error (tried .terminalFailure)
                .terminalFailure)

def validateExecution (intent : OutboundIntent) (plan : TransportPlan) (encryptedEnvelope : Bytes)
    (policy : TransportFailoverPolicy) (protectedExecution : Bool) :
    Except TransportFailoverExecutionError OutboundIntent := do
  rejectIf (policy.maxRouteAttempts = 0 ∨
    policy.maxRouteAttempts > maxTransportFailoverRouteAttempts)
    (failoverStopped .rejected [] .terminalFailure)
  let canonical ← (canonicalCommunicationIntent intent).mapError fun _ =>
    failoverStopped .policyDenied [] .policyChanged
  rejectIf (plan.binding ≠ ⟨canonical.intentId, canonical.scope, canonical.targetIdentityId,
    canonical.constraints, protectedExecution⟩) (failoverStopped .policyDenied [] .policyChanged)
  rejectIf (encryptedEnvelope.isEmpty ∨ encryptedEnvelope.length > defaultMaxPayloadLen)
    (failoverStopped .resourceExhausted [] .terminalFailure)
  return canonical

def transmitWithFailoverInner (intent : OutboundIntent) (plan : TransportPlan)
    (encryptedEnvelope : Bytes) (policy : TransportFailoverPolicy) (protectedDevices : Bool) :
    Failover (Except TransportFailoverExecutionError TransportFailoverDecision) :=
  match validateExecution intent plan encryptedEnvelope policy protectedDevices with
  | .error e      => return .error e
  | .ok canonical =>
    executeRankedRoutes canonical encryptedEnvelope policy protectedDevices [] 0 .unavailable
      plan.rankedRoutes

def transmitWithFailover (intent : OutboundIntent) (plan : TransportPlan)
    (encryptedEnvelope : Bytes) (policy : TransportFailoverPolicy) :
    Failover (Except TransportFailoverExecutionError TransportFailoverDecision) :=
  transmitWithFailoverInner intent plan encryptedEnvelope policy false

def transmitWithFailoverProtected (intent : OutboundIntent) (plan : TransportPlan)
    (encryptedEnvelope : Bytes) (policy : TransportFailoverPolicy) :
    Failover (Except TransportFailoverExecutionError TransportFailoverDecision) :=
  transmitWithFailoverInner intent plan encryptedEnvelope policy true

end Ucr.TransportOrchestrator
