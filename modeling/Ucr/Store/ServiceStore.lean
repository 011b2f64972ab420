import Ucr.Protocol.ServiceControl
import Ucr.Store.State

-- Quotas of service accounts, the fixed-window limiter of their requests, and their audit trail.

namespace Ucr

open Except

inductive ServiceQuotaConsumeError
  | notConfigured
  | rateLimited (retryAfterMs : ℕ)
  | clockRollback
  | store (error : DurableStoreError)
deriving DecidableEq

inductive ServiceResourceQuotaConsumeError
  | notConfigured
  | resourceExhausted
  | invalidUsage
  | store (error : DurableStoreError)

def servicePrincipalKey (subject : ScopedPrincipal) : ScopedId :=
  (subject.scope, subject.principal.principalId)

def validateServiceSubject (subject : ScopedPrincipal) : StoreResult Unit :=
  rejectIf (subject.principal.kind ≠ .serviceAccount) .invalidRecord

def retryAfter (windowStartUnixMs windowMs nowUnixMs : ℤ) : Except ServiceQuotaConsumeError ℕ := do
  let windowEnd := windowStartUnixMs + windowMs
  rejectIf (windowEnd > maxI64) (.store .corrupt)
  rejectIf (windowEnd - nowUnixMs < 0) (.store .corrupt)
  return (windowEnd - nowUnixMs).toNat

-- One request in the window that starts at the given time. A refused request is noted as well,
-- unless the clock ran backwards.
def MemoryQuotaUsage.consume (usage : MemoryQuotaUsage) (maxRequests : U64)
    (windowStartUnixMs windowMs nowUnixMs : ℤ) :
    Except ServiceQuotaConsumeError Unit × MemoryQuotaUsage :=
  if nowUnixMs < usage.lastObservedUnixMs ∨ windowStartUnixMs < usage.windowStartUnixMs then
    (.error .clockRollback, usage)
  else
    let current :=
      if windowStartUnixMs > usage.windowStartUnixMs then
        { usage with windowStartUnixMs := windowStartUnixMs, usedRequests := 0 }
      else
        usage
    let observed := { current with lastObservedUnixMs := nowUnixMs }
    if observed.usedRequests ≥ maxRequests.val then
      match retryAfter windowStartUnixMs windowMs nowUnixMs with
      | .ok retryAfterMs => (.error (.rateLimited retryAfterMs), observed)
      | .error e => (.error e, observed)
    else
      (.ok (), { observed with usedRequests := observed.usedRequests + 1 })

namespace MemoryState

variable (s : MemoryState)

def setServiceQuotaPolicy (policy : ServiceQuotaPolicy) :
    StoreResult (Unit × MemoryState) := do
  (validateServiceQuotaPolicy policy).mapError fun _ => .invalidRecord
  let key := servicePrincipalKey policy.subject
  if s.serviceQuotaPolicies.get key = some policy then
    return ((), s)
  let limit (s : MemoryState) (rateClass : ServiceRequestRateClass) : MemoryState := { s with
    serviceRateLimitPolicies := s.serviceRateLimitPolicies.put (key, rateClass)
      ⟨policy.subject, rateClass, policy.maxRequests, policy.windowMs⟩
    serviceRateLimitUsage    := s.serviceRateLimitUsage.erase (key, rateClass) }
  let s := { s with serviceQuotaPolicies := s.serviceQuotaPolicies.put key policy }
  return ((), ServiceRequestRateClass.all.foldl limit s)

def setServiceResourceQuotaPolicy (policy : ServiceResourceQuotaPolicy) :
    StoreResult (Unit × MemoryState) := do
  (validateServiceResourceQuotaPolicy policy).mapError fun _ => .invalidRecord
  return ((), { s with
    serviceResourceQuotaPolicies :=
      s.serviceResourceQuotaPolicies.put (servicePrincipalKey policy.subject) policy })

def setServiceRateLimitPolicy (policy : ServiceRateLimitPolicy) :
    StoreResult (Unit × MemoryState) := do
  (validateServiceRateLimitPolicy policy).mapError fun _ => .invalidRecord
  let key := (servicePrincipalKey policy.subject, policy.rateClass)
  if s.serviceRateLimitPolicies.get key = some policy then
    return ((), s)
  return ((), { s with
    serviceRateLimitPolicies := s.serviceRateLimitPolicies.put key policy
    serviceRateLimitUsage    := s.serviceRateLimitUsage.erase key })

variable (subject : ScopedPrincipal)

def requestPolicy (rateClass : ServiceRequestRateClass) (nowUnixMs : ℤ) :
    Except ServiceQuotaConsumeError ServiceRateLimitPolicy := do
  (validateServiceSubject subject).mapError .store
  rejectIf (nowUnixMs < 0) .clockRollback
  let policy ← (s.serviceRateLimitPolicies.get (servicePrincipalKey subject, rateClass)).okOr
    .notConfigured
  rejectIf (policy.windowMs.val > maxI64) (.store .corrupt)
  return policy

-- Windows are aligned to multiples of their length.
def consumeServiceRequestForClass (rateClass : ServiceRequestRateClass) (nowUnixMs : ℤ) :
    Except ServiceQuotaConsumeError Unit × MemoryState :=
  match s.requestPolicy subject rateClass nowUnixMs with
  | .error e   => (.error e, s)
  | .ok policy =>
    let key := (servicePrincipalKey subject, rateClass)
    let windowMs : ℤ := policy.windowMs.val
    let windowStartUnixMs := nowUnixMs - nowUnixMs % windowMs
    let usage := (s.serviceRateLimitUsage.get key).getD ⟨windowStartUnixMs, 0, nowUnixMs⟩
    let (result, usage) := usage.consume policy.maxRequests windowStartUnixMs windowMs nowUnixMs
    (result, { s with serviceRateLimitUsage := s.serviceRateLimitUsage.put key usage })

def consumeServiceRecordingDuration (durationMs : U64) :
    Except ServiceResourceQuotaConsumeError (Unit × MemoryState) := do
  (validateServiceSubject subject).mapError .store
  rejectIf (durationMs = 0) .invalidUsage
  let key := servicePrincipalKey subject
  let limitMinutes ←
    ((s.serviceResourceQuotaPolicies.get key).bind (·.maxRecordingMinutes)).okOr .notConfigured
  rejectIf (limitMinutes.val * 60000 ≥ 2 ^ 64) (.store .corrupt)
  let used := (s.serviceRecordingUsageMs.get key).getD 0
  let next ← (used.checkedAdd durationMs).okOr .resourceExhausted
  rejectIf (next.val > limitMinutes.val * 60000) .resourceExhausted
  return ((), { s with serviceRecordingUsageMs := s.serviceRecordingUsageMs.put key next })

def resetServiceRecordingUsage :
    StoreResult (Unit × MemoryState) := do
  validateServiceSubject subject
  return ((), { s with
    serviceRecordingUsageMs := s.serviceRecordingUsageMs.erase (servicePrincipalKey subject) })

def lastAuditHash : Digest :=
  s.serviceAuditRecords.getLast?.elim zeroAuditHash (·.2)

def appendServiceAudit (record : ServiceAuditRecord) :
    StoreResult (Unit × MemoryState) := do
  (validateServiceAuditRecord record).mapError fun _ => .invalidRecord
  match s.serviceAuditRecords.find? (·.1.auditId = record.auditId) with
  | some (existing, _) =>
    rejectIf (existing ≠ record) .conflict
    return ((), s)
  | none =>
    return ((), { s with
      serviceAuditRecords :=
        s.serviceAuditRecords ++ [(record, serviceAuditHash s.lastAuditHash record)] })

end MemoryState

inductive ServiceOp
  | setServiceQuotaPolicy (policy : ServiceQuotaPolicy)
  | setServiceResourceQuotaPolicy (policy : ServiceResourceQuotaPolicy)
  | setServiceRateLimitPolicy (policy : ServiceRateLimitPolicy)
  | consumeServiceRequestForClass (subject : ScopedPrincipal) (rateClass : ServiceRequestRateClass)
      (nowUnixMs : ℤ)
  | consumeServiceRecordingDuration (subject : ScopedPrincipal) (durationMs : U64)
  | resetServiceRecordingUsage (subject : ScopedPrincipal)
  | appendServiceAudit (record : ServiceAuditRecord)

def ServiceOp.run (s : MemoryState) : ServiceOp → MemoryState
  | .setServiceQuotaPolicy policy => ((s.setServiceQuotaPolicy policy).commit s).2
  | .setServiceResourceQuotaPolicy policy => ((s.setServiceResourceQuotaPolicy policy).commit s).2
  | .setServiceRateLimitPolicy policy => ((s.setServiceRateLimitPolicy policy).commit s).2
  | .consumeServiceRequestForClass subject rateClass nowUnixMs =>
    (s.consumeServiceRequestForClass subject rateClass nowUnixMs).2
  | .consumeServiceRecordingDuration subject durationMs =>
    ((s.consumeServiceRecordingDuration subject durationMs).commit s).2
  | .resetServiceRecordingUsage subject => ((s.resetServiceRecordingUsage subject).commit s).2
  | .appendServiceAudit record => ((s.appendServiceAudit record).commit s).2

def ServiceOp.limits : ServiceOp → Bool
  | .setServiceQuotaPolicy _ | .setServiceRateLimitPolicy _ | .consumeServiceRequestForClass .. => true
  | _ => false

end Ucr
