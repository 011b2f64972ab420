import Ucr.Objects.Transport
import Ucr.Protocol.Delivery
import Ucr.Protocol.Device

-- What is to be sent, and the ranked routes it can take.

namespace Ucr

open Except List

def maxIntentTransportConstraints : ℕ := 256
def maxIntentPolicyValueLen : ℕ := 1024
def maxIntentIdempotencyKeyLen : ℕ := 256
def maxTransportRouteCandidates : ℕ := 64

structure IntentConstraints where
  allowedTransportCapabilities : List String
  forbiddenTransportCapabilities : List String
  privacyProfile : Option String
  regionConstraint : Option String
  maxCostMicrounits : Option U64
  priorityClass : Option U32
deriving DecidableEq

-- An intent with everything that deciding about its routes depends on.
structure OutboundIntent extends CommunicationIntent where
  targetIdentityId : IdentityId
  payload : Bytes
  constraints : IntentConstraints
  correlation : CorrelationContext
  extensions : List ProtocolExtension

inductive IntentError
  | payloadTooLarge
  | policyValueTooLong
  | idempotencyKeyTooLong
  | tooManyTransportConstraints
  | invalidTransportCapability
  | duplicateTransportCapability
  | conflictingTransportCapability
  | invalidExtension
  | duplicateExtension
  | tooManyExtensions
  | extensionPayloadTooLarge

inductive TransportOrchestratorProtocolError
  | tooManyHints
  | duplicateHint
  | bandwidthOutOfRange
  | packetLossOutOfRange
  | latencyOutOfRange
  | energyCostOutOfRange
  | reliabilityOutOfRange
  | batteryOutOfRange
  | policyValueTooLong
  | priorityClassOutOfRange

inductive TransportOrchestratorError
  | intent (error : IntentError)
  | protocol (error : TransportOrchestratorProtocolError)
  | invalidEndpoint
  | tooManyRoutes
  | duplicateRoute
  | policyDenied
  | policyPending
  | deviceLifecycleUnavailable
  | noEligibleRoute

def IntentError.mapExtensionError : ExtensionError → IntentError
  | .invalidNamespace | .unsupportedCritical => .invalidExtension
  | .duplicateExtension => .duplicateExtension
  | .tooManyExtensions => .tooManyExtensions
  | .payloadTooLarge => .extensionPayloadTooLarge

def validateTransportCapabilities (seen : List String) : List String → Except IntentError Unit
  | [] => return
  | value :: rest => do
    (validateNamespacedIdentifier value).mapError fun _ => .invalidTransportCapability
    rejectIf (value ∈ seen) .duplicateTransportCapability
    validateTransportCapabilities (value :: seen) rest

def validateCommunicationIntent (intent : OutboundIntent) : Except IntentError Unit := do
  let constraints := intent.constraints
  rejectIf (intent.payload.length > defaultMaxPayloadLen) .payloadTooLarge
  forM [constraints.privacyProfile, constraints.regionConstraint].reduceOption fun value =>
    rejectIf (value.utf8ByteSize > maxIntentPolicyValueLen) .policyValueTooLong
  rejectIf (intent.correlation.idempotencyKey.any (·.utf8ByteSize > maxIntentIdempotencyKeyLen))
    .idempotencyKeyTooLong
  rejectIf (constraints.allowedTransportCapabilities.length +
    constraints.forbiddenTransportCapabilities.length > maxIntentTransportConstraints)
    .tooManyTransportConstraints
  validateTransportCapabilities [] constraints.allowedTransportCapabilities
  validateTransportCapabilities [] constraints.forbiddenTransportCapabilities
  rejectIf (constraints.allowedTransportCapabilities.any
    (· ∈ constraints.forbiddenTransportCapabilities)) .conflictingTransportCapability
  let _ ← (canonicalProtocolExtensions intent.extensions).mapError IntentError.mapExtensionError

def canonicalCommunicationIntent (intent : OutboundIntent) : Except IntentError OutboundIntent := do
  validateCommunicationIntent intent
  let extensions ← (canonicalProtocolExtensions intent.extensions).mapError IntentError.mapExtensionError
  return { intent with
    constraints := { intent.constraints with
      allowedTransportCapabilities   := intent.constraints.allowedTransportCapabilities.sortOn id
      forbiddenTransportCapabilities :=
        intent.constraints.forbiddenTransportCapabilities.sortOn id }
    extensions }

-- Which of the providers of the application it is.
abbrev ProviderHandle := ℕ

structure PlanBinding where
  intentId : IntentId
  scope : TenantScope
  targetIdentityId : IdentityId
  constraints : IntentConstraints
  protectedDeviceGate : Bool
deriving DecidableEq

structure PlannedTransportRoute where
  provider : ProviderHandle
  route : RouteCandidate
  decision : TransportRouteDecision
  protectedDeviceId : Option DeviceId

-- What is published about a route is what it is: the place in the plan counts from one.
structure PlannedTransportRoute.DecidedAt (planned : PlannedTransportRoute) (i : ℕ) : Prop where
  endpointId : planned.decision.endpointId = planned.route.endpointId
  transportCapability : planned.decision.transportCapability = planned.route.transportCapability
  rank : planned.decision.rank.val = i + 1

-- Plans come from the planner only, and no route is in one twice.
structure TransportPlan where
  binding : PlanBinding
  rankedRoutes : List PlannedTransportRoute
  distinct : (rankedRoutes.map (·.route)).Nodup
  ranked : ∀ i (planned : PlannedTransportRoute), rankedRoutes[i]? = some planned →
    planned.DecidedAt i

inductive ProtectedRouteBinding
  | nonDevice
  | device (deviceId : DeviceId)
  | ineligible
deriving DecidableEq

def ProtectedRouteBinding.deviceId : ProtectedRouteBinding → Option DeviceId
  | device deviceId => some deviceId
  | nonDevice | ineligible => none

-- A route that was found, with the answers about it: what is wrong with it, or which device the plan
-- binds it to, and whether it is eligible.
structure TransportRouteOption where
  provider : ProviderHandle
  route    : RouteCandidate
  binding  : Except TransportOrchestratorError ProtectedRouteBinding
  eligible : Bool

def eligibleOptions (seen : List RouteCandidate) : List TransportRouteOption →
    Except TransportOrchestratorError (List (TransportRouteOption × Option DeviceId))
  | [] => return []
  | option :: rest => do
    let binding ← option.binding
    if binding = .ineligible then
      eligibleOptions seen rest
    else
      rejectIf (option.route ∈ seen) .duplicateRoute
      let later ← eligibleOptions (option.route :: seen) rest
      return if option.eligible then (option, binding.deviceId) :: later else later

def plannedRoute (index : ℕ) (eligible : TransportRouteOption × Option DeviceId) :
    PlannedTransportRoute where
  provider := eligible.1.provider
  route := eligible.1.route
  decision :=
    ⟨eligible.1.route.endpointId, eligible.1.route.transportCapability, Fin.ofNat _ (index + 1)⟩
  protectedDeviceId := eligible.2

-- The last part of planning. Scores decide which route goes before which.
def rankRoutes (before : TransportRouteOption → TransportRouteOption → Bool)
    (options : List TransportRouteOption) :
    Except TransportOrchestratorError (List PlannedTransportRoute) := do
  rejectIf (options.length > maxTransportRouteCandidates) .tooManyRoutes
  let eligible ← eligibleOptions [] options
  rejectIf eligible.isEmpty .noEligibleRoute
  return (eligible.mergeSort fun left right => before left.1 right.1).mapIdx plannedRoute

section RankRoutes

variable {before : TransportRouteOption → TransportRouteOption → Bool}

theorem eligibleOptions_spec (h : eligibleOptions seen options = .ok eligible) :
    (eligible.map (·.1)).Sublist options ∧ (eligible.map (·.1.route)).Nodup ∧
      ∀ entry ∈ eligible, entry.1.route ∉ seen := by
  induction options generalizing seen eligible
  case nil =>
    obtain rfl : [] = eligible := by simpa [eligibleOptions] using h
    simp
  case cons option rest ih =>
    simp only [eligibleOptions, ok_iff] at h
    obtain ⟨binding, -, h⟩ := h
    split at h
    case isTrue =>
      obtain ⟨hsub, hrest⟩ := ih h
      exact ⟨hsub.cons _, hrest⟩
    case isFalse =>
      simp only [ok_iff] at h
      obtain ⟨-, hfresh, later, hlater, rfl⟩ := h
      obtain ⟨hsub, hnodup, hnot⟩ := ih hlater
      have hnot' : ∀ o ∈ later, o.1.route ≠ option.route ∧ o.1.route ∉ seen := by
        simpa using hnot
      split
      case isTrue =>
        refine ⟨hsub.cons_cons _, ?_, ?_⟩
        · simp only [map_cons, nodup_cons, mem_map, not_exists, not_and]
          exact ⟨fun o ho => (hnot' o ho).1, hnodup⟩
        · simpa [hfresh] using fun o d ho => (hnot' (o, d) ho).2
      case isFalse => exact ⟨hsub.cons _, hnodup, fun o ho => (hnot' o ho).2⟩

theorem rankRoutes_distinct (h : rankRoutes before options = .ok routes) :
    (routes.map (·.route)).Nodup := by
  simp only [rankRoutes, ok_iff] at h
  obtain ⟨-, -, eligible, heligible, -, -, rfl⟩ := h
  have hroutes (l : List (TransportRouteOption × Option DeviceId)) :
      (l.mapIdx plannedRoute).map (·.route) = l.map (·.1.route) :=
    ext_getElem? (by simp [Function.comp_def, plannedRoute])
  rw [hroutes, ((mergeSort_perm eligible _).map _).nodup_iff]
  exact (eligibleOptions_spec heligible).2.1

theorem rankRoutes_ranked (h : rankRoutes before options = .ok routes) :
    ∀ i (planned : PlannedTransportRoute), routes[i]? = some planned → planned.DecidedAt i := by
  simp only [rankRoutes, ok_iff] at h
  obtain ⟨-, hcount, eligible, heligible, -, -, rfl⟩ := h
  intro i planned hplanned
  simp only [getElem?_mapIdx, Option.map_eq_some_iff] at hplanned
  obtain ⟨entry, hentry, rfl⟩ := hplanned
  have hlength := (eligibleOptions_spec heligible).1.length_le
  have hi := (List.getElem?_eq_some_iff.mp hentry).1
  refine ⟨rfl, rfl, ?_⟩
  simp only [length_map, length_mergeSort, maxTransportRouteCandidates, plannedRoute,
    Fin.val_ofNat] at *
  omega

end RankRoutes

def plan (binding : PlanBinding) (before : TransportRouteOption → TransportRouteOption → Bool)
    (options : List TransportRouteOption) : Except TransportOrchestratorError TransportPlan :=
  match h : rankRoutes before options with
  | .error e   => .error e
  | .ok routes => .ok ⟨binding, routes, rankRoutes_distinct h, rankRoutes_ranked h⟩

def capabilityIsUsable (capabilities : List CapabilityDescriptor) (required : String) : Bool :=
  capabilities.any fun capability =>
    capability.id = required &&
      match capability.maturity with
      | .prepared | .beta | .production => true
      | .experimental | .deprecated | .disabled => false

def grantsProtectedAccess (intent : OutboundIntent) (device : Option DeviceDescriptor) : Bool :=
  device.any fun device =>
    device.identityId = intent.targetIdentityId ∧ deviceAllowsProtectedAccess device

end Ucr
