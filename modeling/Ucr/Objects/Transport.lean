import Ucr.Protocol.Extension

-- Endpoints, the routes to them, and how the attempts to send along them can end.

namespace Ucr

inductive CapabilityMaturity
  | experimental
  | prepared
  | beta
  | production
  | deprecated
  | disabled

structure CapabilityDescriptor where
  id : String
  maturity : CapabilityMaturity

inductive TransportHealth
  | healthy
  | degraded
  | unavailable
deriving DecidableEq

inductive PolicyDecision
  | allow
  | deny
  | pendingNoAllowedRoute
deriving DecidableEq

inductive CanonicalTransportError
  | unavailable
  | timeout
  | rejected
  | policyDenied
  | unsupportedCapability
  | resourceExhausted
  | malformedResponse
  | internal

inductive TransportFailureDisposition
  | notAccepted
  | acceptanceUnknown
deriving DecidableEq

structure ClassifiedTransportFailure where
  error : CanonicalTransportError
  disposition : TransportFailureDisposition

structure EndpointAddress where
  scheme : String
  value  : Bytes
deriving DecidableEq

structure RouteCandidate where
  endpointId : EndpointId
  transportCapability : String
  address : EndpointAddress
deriving DecidableEq

structure TransportRouteDecision where
  endpointId : EndpointId
  transportCapability : String
  rank : U16

structure TransportFailoverPolicy where
  maxRouteAttempts : U16
  expiresAtUnixMs  : Option ℤ

inductive TransportFailoverAttemptOutcome
  | skippedUnavailable
  | skippedUnsupportedCapability
  | failedBeforeAcceptance
  | acceptanceUnknown
  | acceptedByTransport
  | terminalFailure

inductive TransportFailoverStopReason
  | acceptedByTransport
  | routesExhausted
  | attemptBudgetExhausted
  | deadlineExpired
  | policyChanged
  | acceptanceUnknown
  | terminalFailure
deriving DecidableEq

structure TransportFailoverAttemptDecision where
  route   : TransportRouteDecision
  outcome : TransportFailoverAttemptOutcome

structure TransportFailoverDecision where
  attempts   : List TransportFailoverAttemptDecision
  stopReason : TransportFailoverStopReason

structure TransportFailoverExecutionError where
  error    : CanonicalTransportError
  decision : TransportFailoverDecision

end Ucr
