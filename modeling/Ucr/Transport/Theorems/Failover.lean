import Ucr.Transport.Failover

-- What one execution of a plan says to the outside world, and how the trail it returns relates to
-- that.

namespace Ucr.TransportOrchestrator

open Calling Except Records

structure Invocation where
  route  : RouteCandidate
  answer : Except ClassifiedTransportFailure Unit

def invocation? : FailoverExchange → Option Invocation
  | ⟨.transmitClassified _ _ route _, answer⟩ => some ⟨route, answer⟩
  | _ => none

def invocations (record : List FailoverExchange) : List Invocation :=
  record.filterMap invocation?

@[simp]
theorem invocations_nil : invocations [] = [] :=
  rfl

variable {exchange : FailoverExchange}

@[simp]
theorem invocations_cons :
    invocations (exchange :: record) = (invocation? exchange).toList ++ invocations record := by
  cases h : invocation? exchange <;> simp [invocations, h]

@[simp]
theorem invocations_append :
    invocations (before ++ after) = invocations before ++ invocations after :=
  List.filterMap_append

-- The failure proves that nothing was accepted, and another route may do better.
def Invocation.Retryable (invocation : Invocation) : Prop :=
  ∃ failure, invocation.answer = .error failure ∧ failure.disposition = .notAccepted ∧
    crossRouteRetryable failure.error

def decisionOf : Except TransportFailoverExecutionError TransportFailoverDecision →
    TransportFailoverDecision
  | .ok decision => decision
  | .error e     => e.decision

def transmissionOutcome : Except ClassifiedTransportFailure Unit → TransportFailoverAttemptOutcome
  | .ok () => .acceptedByTransport
  | .error failure =>
    if failure.disposition = .acceptanceUnknown then .acceptanceUnknown
    else if crossRouteRetryable failure.error then .failedBeforeAcceptance
    else .terminalFailure

-- The outcomes after which no further route is tried.
def finalReason : TransportFailoverAttemptOutcome → Option TransportFailoverStopReason
  | .acceptedByTransport => some .acceptedByTransport
  | .acceptanceUnknown   => some .acceptanceUnknown
  | .terminalFailure     => some .terminalFailure
  | .skippedUnavailable | .skippedUnsupportedCapability | .failedBeforeAcceptance => none

section Execution

variable (intent : OutboundIntent) (encryptedEnvelope : Bytes) (policy : TransportFailoverPolicy)
  (protectedDevices : Bool)

def Unexpired (calls : List FailoverExchange) : Prop :=
  match policy.expiresAtUnixMs with
  | none => calls = []
  | some expiresAt => ∃ now < expiresAt, calls = [⟨.nowUnixMs, now⟩]

def Gated (calls : List FailoverExchange) : Prop :=
  ∃ clock, Unexpired policy clock ∧ calls = clock ++ [⟨.evaluateIntent intent, .allow⟩]

def Offered (planned : PlannedTransportRoute) (calls : List FailoverExchange) : Prop :=
  ∃ (health : TransportHealth) (capabilities : List CapabilityDescriptor),
    health ≠ .unavailable ∧ capabilityIsUsable capabilities planned.route.transportCapability ∧
      calls = [⟨.health planned.provider, health⟩, ⟨.capabilities planned.provider, capabilities⟩]

def Revalidated (planned : PlannedTransportRoute) (calls : List FailoverExchange) : Prop :=
  match protectedDevices, planned.protectedDeviceId with
  | true, some deviceId => ∃ device : Option DeviceDescriptor, grantsProtectedAccess intent device ∧
    calls = [⟨.device intent.scope deviceId, .ok device⟩]
  | _, _ => calls = []

-- The calls made for one route of the plan, and what came of it.
inductive Attempted (planned : PlannedTransportRoute) :
    List FailoverExchange → TransportFailoverAttemptOutcome → Prop
  | unavailable {gate} (gated : Gated intent policy gate) :
      Attempted planned (gate ++ [⟨.health planned.provider, .unavailable⟩]) .skippedUnavailable
  | unsupported {gate} {health : TransportHealth} {capabilities : List CapabilityDescriptor}
      (gated : Gated intent policy gate) (healthy : health ≠ .unavailable)
      (unusable : ¬capabilityIsUsable capabilities planned.route.transportCapability) :
      Attempted planned
        (gate ++ [⟨.health planned.provider, health⟩, ⟨.capabilities planned.provider, capabilities⟩])
        .skippedUnsupportedCapability
  | transmitted {gate offer revalidation} {answer : Except ClassifiedTransportFailure Unit}
      (gated : Gated intent policy gate) (offered : Offered planned offer)
      (revalidated : Revalidated intent protectedDevices planned revalidation) :
      Attempted planned
        (gate ++ offer ++ revalidation ++ [⟨.transmitClassified planned.provider intent.scope
          planned.route encryptedEnvelope, answer⟩])
        (transmissionOutcome answer)

-- The calls after the last route that was tried, and why there were no more. The number says how
-- often a provider was invoked until then.
inductive Ends : ℕ → List PlannedTransportRoute → List FailoverExchange →
    TransportFailoverStopReason → Prop
  | routesExhausted {used} : Ends used [] [] .routesExhausted
  | deadlineExpired {used planned rest} {expiresAt now : ℤ}
      (deadline : policy.expiresAtUnixMs = some expiresAt) (late : expiresAt ≤ now) :
      Ends used (planned :: rest) [⟨.nowUnixMs, now⟩] .deadlineExpired
  | denied {used planned rest clock} {decision : PolicyDecision}
      (unexpired : Unexpired policy clock) (denied : decision ≠ .allow) :
      Ends used (planned :: rest) (clock ++ [⟨.evaluateIntent intent, decision⟩]) .policyChanged
  | budgetExhausted {used : ℕ} {planned rest gate offer}
      (gated : Gated intent policy gate) (offered : Offered planned offer)
      (spent : policy.maxRouteAttempts ≤ used) :
      Ends used (planned :: rest) (gate ++ offer) .attemptBudgetExhausted
  | revoked {used planned rest gate offer} {deviceId : DeviceId}
      {answer : StoreResult (Option DeviceDescriptor)}
      (gated : Gated intent policy gate) (offered : Offered planned offer)
      (bound : protectedDevices ∧ planned.protectedDeviceId = some deviceId)
      (refused : ∀ device, answer = .ok device → ¬grantsProtectedAccess intent device) :
      Ends used (planned :: rest) (gate ++ offer ++ [⟨.device intent.scope deviceId, answer⟩])
        .policyChanged

-- Route by route, from one that it begins with to the one that it ends with.
inductive Execution : ℕ → List PlannedTransportRoute → List FailoverExchange →
    TransportFailoverDecision → Prop
  | ends {used routes calls reason}
      (h : Ends intent policy protectedDevices used routes calls reason) :
      Execution used routes calls ⟨[], reason⟩
  | last {used : ℕ} {planned rest calls outcome reason}
      (attempted : Attempted intent encryptedEnvelope policy protectedDevices planned calls outcome)
      (budget : used + (invocations calls).length ≤ policy.maxRouteAttempts)
      (final : finalReason outcome = some reason) :
      Execution used (planned :: rest) calls ⟨[⟨planned.decision, outcome⟩], reason⟩
  | next {used : ℕ} {planned rest calls record outcome trail reason}
      (attempted : Attempted intent encryptedEnvelope policy protectedDevices planned calls outcome)
      (budget : used + (invocations calls).length ≤ policy.maxRouteAttempts)
      (open_ : finalReason outcome = none)
      (more : Execution (used + (invocations calls).length) rest record ⟨trail, reason⟩) :
      Execution used (planned :: rest) (calls ++ record)
        ⟨⟨planned.decision, outcome⟩ :: trail, reason⟩

end Execution

section Records

variable {intent : OutboundIntent} {encryptedEnvelope : Bytes} {policy : TransportFailoverPolicy}
  {protectedDevices : Bool} {record : List FailoverExchange} {planned : PlannedTransportRoute}

theorem deadlineExpired_records (h : Records (deadlineExpired policy) record expired) :
    (expired = false ∧ Unexpired policy record) ∨
      (expired = true ∧ ∃ expiresAt now, policy.expiresAtUnixMs = some expiresAt ∧ expiresAt ≤ now ∧
        record = [⟨.nowUnixMs, now⟩]) := by
  simp only [deadlineExpired, Unexpired] at h ⊢
  generalize policy.expiresAtUnixMs = deadline at h ⊢
  cases deadline
  case none =>
    obtain ⟨rfl, rfl⟩ := pure_iff.mp h
    simp
  case some expiresAt =>
    obtain ⟨now, _, hexpired, rfl⟩ := Records.ask_bind_iff.mp h
    obtain ⟨rfl, rfl⟩ := pure_iff.mp hexpired
    by_cases hlate : expiresAt ≤ now
    · exact .inr ⟨by simpa using hlate, expiresAt, now, rfl, hlate, rfl⟩
    · exact .inl ⟨by simpa using hlate, now, not_le.mp hlate, rfl⟩

theorem preRouteGate_records (h : Records (preRouteGate intent policy attempts) record result) :
    (result = .ok () ∧ Gated intent policy record) ∨
      ∃ error reason, result = .error (failoverStopped error attempts reason) ∧
        reason ≠ .acceptedByTransport ∧
        ∀ used planned rest,
          Ends intent policy protectedDevices used (planned :: rest) record reason := by
  obtain ⟨expired, clock, _, hclock, hrest, rfl⟩ := bind_iff.mp h
  obtain ⟨rfl, hunexpired⟩ | ⟨rfl, expiresAt, now, hdeadline, hlate, rfl⟩ :=
    deadlineExpired_records hclock
  case inr =>
    obtain ⟨rfl, rfl⟩ := pure_iff.mp hrest
    exact .inr ⟨_, _, rfl, by decide, fun _ _ _ => .deadlineExpired hdeadline hlate⟩
  case inl =>
    obtain ⟨decision, _, hallowed, rfl⟩ := Records.ask_bind_iff.mp hrest
    split at hallowed
    case isTrue hdenied =>
      obtain ⟨rfl, rfl⟩ := pure_iff.mp hallowed
      exact .inr ⟨_, _, rfl, by decide, fun _ _ _ => .denied hunexpired hdenied⟩
    case isFalse hallow =>
      obtain rfl := not_not.mp hallow
      obtain ⟨rfl, rfl⟩ := pure_iff.mp hallowed
      exact .inl ⟨rfl, clock, hunexpired, rfl⟩

theorem protectedRouteGate_records
    (h : Records (protectedRouteGate intent protectedDevices planned) record result) :
    (result = .ok () ∧ Revalidated intent protectedDevices planned record) ∨
      ∃ error deviceId answer, result = .error error ∧
        (protectedDevices ∧ planned.protectedDeviceId = some deviceId) ∧
        (∀ device, answer = .ok device → ¬grantsProtectedAccess intent device) ∧
        record = [⟨.device intent.scope deviceId, answer⟩] := by
  simp only [protectedRouteGate, Revalidated] at h ⊢
  split at h
  case isFalse hplain =>
    obtain ⟨rfl, rfl⟩ := pure_iff.mp h
    simp [hplain]
  case isTrue hprotected =>
    obtain rfl := hprotected
    simp only [revalidateProtectedRoute] at h
    split at h
    case h_1 hnone =>
      obtain ⟨rfl, rfl⟩ := pure_iff.mp h
      simp [hnone]
    case h_2 deviceId hsome =>
      obtain ⟨answer, _, hresult, rfl⟩ := Records.ask_bind_iff.mp h
      simp only [hsome]
      cases answer
      case error e =>
        obtain ⟨rfl, rfl⟩ := pure_iff.mp hresult
        exact .inr ⟨_, deviceId, .error e, rfl, ⟨trivial, rfl⟩, by simp, rfl⟩
      case ok device =>
        obtain ⟨rfl, rfl⟩ := pure_iff.mp hresult
        by_cases hgrants : grantsProtectedAccess intent device
        · exact .inl ⟨by simp [hgrants], device, hgrants, rfl⟩
        · refine .inr ⟨.policyDenied, deviceId, .ok device, by simp [hgrants], ⟨trivial, rfl⟩, ?_, rfl⟩
          rintro _ ⟨⟩
          exact hgrants

theorem Unexpired.invocations (h : Unexpired policy record) : invocations record = [] := by
  simp only [Unexpired] at h
  split at h
  case h_1 => simp [h]
  case h_2 =>
    obtain ⟨now, -, rfl⟩ := h
    rfl

theorem Gated.invocations (h : Gated intent policy record) : invocations record = [] := by
  obtain ⟨clock, hclock, rfl⟩ := h
  simp [hclock.invocations, invocation?]

theorem Offered.invocations (h : Offered planned record) : invocations record = [] := by
  obtain ⟨_, _, -, -, rfl⟩ := h
  rfl

theorem Revalidated.invocations (h : Revalidated intent protectedDevices planned record) :
    invocations record = [] := by
  simp only [Revalidated] at h
  split at h
  case h_1 =>
    obtain ⟨_, -, rfl⟩ := h
    rfl
  case h_2 => simp [h]

variable {routes : List PlannedTransportRoute} {calls : List FailoverExchange}
  {attempts : List TransportFailoverAttemptDecision} {used : ℕ}
  {outcome : TransportFailoverAttemptOutcome}
  {result : Except TransportFailoverExecutionError TransportFailoverDecision}

-- What was tried before is part of the trail that is returned.
def Executed (intent : OutboundIntent) (encryptedEnvelope : Bytes) (policy : TransportFailoverPolicy)
    (protectedDevices : Bool) (attempts : List TransportFailoverAttemptDecision) (used : ℕ)
    (routes : List PlannedTransportRoute) (record : List FailoverExchange)
    (result : Except TransportFailoverExecutionError TransportFailoverDecision) : Prop :=
  ∃ trail reason, Execution intent encryptedEnvelope policy protectedDevices used routes record
      ⟨trail, reason⟩ ∧
    decisionOf result = ⟨attempts ++ trail, reason⟩ ∧
    ((∃ decision, result = .ok decision) ↔ reason = .acceptedByTransport)

theorem Ends.executed {error reason}
    (h : Ends intent policy protectedDevices used routes record reason)
    (hreason : reason ≠ .acceptedByTransport) :
    Executed intent encryptedEnvelope policy protectedDevices attempts used routes record
      (.error (failoverStopped error attempts reason)) :=
  ⟨[], reason, .ends h, by simp [decisionOf, failoverStopped], by simp [hreason]⟩

section Attempted

variable (h : Attempted intent encryptedEnvelope policy protectedDevices planned calls outcome)
  (hbudget : used + (invocations calls).length ≤ policy.maxRouteAttempts)

include h hbudget

theorem Attempted.failed {error reason} (hfinal : finalReason outcome = some reason)
    (hreason : reason ≠ .acceptedByTransport) :
    Executed intent encryptedEnvelope policy protectedDevices attempts used (planned :: rest) calls
      (.error (failoverStopped error (attempts ++ [⟨planned.decision, outcome⟩]) reason)) :=
  ⟨_, reason, .last h hbudget hfinal, rfl, by simp [hreason]⟩

theorem Attempted.next (hopen : finalReason outcome = none)
    (hmore : Executed intent encryptedEnvelope policy protectedDevices
      (attempts ++ [⟨planned.decision, outcome⟩]) (used + (invocations calls).length) rest record
      result) :
    Executed intent encryptedEnvelope policy protectedDevices attempts used (planned :: rest)
      (calls ++ record) result := by
  obtain ⟨trail, reason, hexecution, hdecision, hok⟩ := hmore
  exact ⟨_, reason, .next h hbudget hopen hexecution, by simp [hdecision], hok⟩

end Attempted

theorem executeRankedRoutes_records (hused : used ≤ policy.maxRouteAttempts)
    (h : Records (executeRankedRoutes intent encryptedEnvelope policy protectedDevices attempts used
      lastError routes) record result) :
    Executed intent encryptedEnvelope policy protectedDevices attempts used routes record result := by
  induction routes generalizing attempts used lastError record
  case nil =>
    obtain ⟨rfl, rfl⟩ := pure_iff.mp h
    exact Ends.routesExhausted.executed (by decide)
  case cons planned rest ih =>
  simp only [executeRankedRoutes] at h
  obtain ⟨_, gate, _, hgate, hopen, rfl⟩ := bind_iff.mp h
  obtain ⟨rfl, hgated⟩ | ⟨error, reason, rfl, hreason, hends⟩ := preRouteGate_records hgate
  case inr =>
    obtain ⟨rfl, rfl⟩ := pure_iff.mp hopen
    simpa using (hends used planned rest).executed hreason
  obtain ⟨health, _, hoffer, rfl⟩ := Records.ask_bind_iff.mp hopen
  split at hoffer
  case isTrue hunavailable =>
    obtain rfl := hunavailable
    rw [List.append_cons]
    have hlater := ih hused hoffer
    refine Attempted.next (.unavailable hgated) ?_ rfl ?_
    all_goals simpa [hgated.invocations, invocation?]
  obtain ⟨capabilities, _, hbudget, rfl⟩ := Records.ask_bind_iff.mp hoffer
  split at hbudget
  case isTrue hunusable =>
    rw [List.append_cons, List.append_cons, List.append_assoc gate]
    have hlater := ih hused hbudget
    refine Attempted.next (.unsupported hgated ‹_› hunusable) ?_ rfl ?_
    all_goals simpa [hgated.invocations, invocation?]
  have hoffered : Offered planned
      [⟨.health planned.provider, health⟩, ⟨.capabilities planned.provider, capabilities⟩] :=
    ⟨health, capabilities, ‹_›, not_not.mp ‹_›, rfl⟩
  split at hbudget
  case isTrue hspent =>
    obtain ⟨rfl, rfl⟩ := pure_iff.mp hbudget
    exact (Ends.budgetExhausted hgated hoffered hspent).executed (by decide)
  case isFalse hunspent =>
  obtain ⟨_, revalidation, _, hrevalidation, hready, rfl⟩ := bind_iff.mp hbudget
  obtain ⟨rfl, hrevalidated⟩ | ⟨error, deviceId, answer, rfl, hbound, hrefused, rfl⟩ :=
    protectedRouteGate_records hrevalidation
  case inr =>
    obtain ⟨rfl, rfl⟩ := pure_iff.mp hready
    simpa using (Ends.revoked hgated hoffered hbound hrefused).executed (by decide)
  obtain ⟨answer, after, hsettled, rfl⟩ := Records.ask_bind_iff.mp hready
  -- From here on the provider has been invoked, which counts.
  obtain ⟨calls, hcalls⟩ : ∃ calls : List FailoverExchange, calls =
      gate ++ [⟨.health planned.provider, health⟩, ⟨.capabilities planned.provider, capabilities⟩] ++
        revalidation ++ [⟨.transmitClassified planned.provider intent.scope planned.route
          encryptedEnvelope, answer⟩] := ⟨_, rfl⟩
  have hattempted : Attempted intent encryptedEnvelope policy protectedDevices planned calls
      (transmissionOutcome answer) :=
    hcalls ▸ .transmitted hgated hoffered hrevalidated
  have hused' : (invocations calls).length = 1 := by
    simp [hcalls, invocation?, hgated.invocations, hrevalidated.invocations]
  have hlimit : used + (invocations calls).length ≤ policy.maxRouteAttempts := by omega
  suffices Executed intent encryptedEnvelope policy protectedDevices attempts used (planned :: rest)
      (calls ++ after) result by simpa [hcalls] using this
  cases answer
  case ok =>
    obtain ⟨rfl, rfl⟩ := pure_iff.mp hsettled
    rw [List.append_nil]
    exact ⟨_, _, .last hattempted hlimit rfl, rfl, by simp⟩
  case error failure =>
    simp only [transmissionOutcome] at hattempted
    dsimp only at hsettled
    split at hattempted
    case isTrue hunknown =>
      rw [if_pos hunknown] at hsettled
      obtain ⟨rfl, rfl⟩ := pure_iff.mp hsettled
      simpa using hattempted.failed hlimit rfl (by decide)
    case isFalse hknown =>
      rw [if_neg hknown] at hsettled
      split at hattempted
      case isTrue hretryable =>
        rw [if_pos hretryable] at hsettled
        exact hattempted.next hlimit rfl (ih hlimit (by rwa [hused']))
      case isFalse hterminal =>
        rw [if_neg hterminal] at hsettled
        obtain ⟨rfl, rfl⟩ := pure_iff.mp hsettled
        simpa using hattempted.failed hlimit rfl (by decide)

theorem Attempted.invocations
    (h : Attempted intent encryptedEnvelope policy protectedDevices planned calls outcome) :
    invocations calls = [] ∨
      ∃ answer, invocations calls = [⟨planned.route, answer⟩] ∧
        outcome = transmissionOutcome answer := by
  cases h
  case unavailable hgated | unsupported hgated _ _ => simp [hgated.invocations, invocation?]
  case transmitted hgated hoffered hrevalidated =>
    simp [hgated.invocations, hoffered.invocations, hrevalidated.invocations, invocation?]

theorem Ends.invocations (h : Ends intent policy protectedDevices used routes record reason) :
    invocations record = [] := by
  cases h
  case routesExhausted => rfl
  case deadlineExpired => rfl
  case denied hunexpired _ => simp [hunexpired.invocations, invocation?]
  case budgetExhausted hgated hoffered _ => simp [hgated.invocations, hoffered.invocations]
  case revoked hgated hoffered _ _      =>
    simp [hgated.invocations, hoffered.invocations, invocation?]

-- The checks that precede an invocation.
structure Checked (intent : OutboundIntent) (policy : TransportFailoverPolicy)
    (protectedDevices : Bool) (planned : PlannedTransportRoute) (since : List FailoverExchange) :
    Prop where
  unexpired   : ∀ expiresAt, policy.expiresAtUnixMs = some expiresAt →
    ∃ now < expiresAt, ⟨.nowUnixMs, now⟩ ∈ since
  allowed     : ⟨.evaluateIntent intent, .allow⟩ ∈ since
  revalidated : protectedDevices → ∀ deviceId, planned.protectedDeviceId = some deviceId →
    ∃ device : Option DeviceDescriptor, grantsProtectedAccess intent device ∧
      ⟨.device intent.scope deviceId, .ok device⟩ ∈ since

theorem Unexpired.mem (h : Unexpired policy record)
    (hdeadline : policy.expiresAtUnixMs = some expiresAt) :
    ∃ now < expiresAt, ⟨.nowUnixMs, now⟩ ∈ record := by
  simp only [Unexpired, hdeadline] at h
  obtain ⟨now, hnow, rfl⟩ := h
  exact ⟨now, hnow, List.mem_singleton_self _⟩

theorem Revalidated.mem (h : Revalidated intent protectedDevices planned record)
    (hprotected : protectedDevices) (hbound : planned.protectedDeviceId = some deviceId) :
    ∃ device : Option DeviceDescriptor, grantsProtectedAccess intent device ∧
      ⟨.device intent.scope deviceId, .ok device⟩ ∈ record := by
  simp only [Revalidated, hprotected, hbound] at h
  obtain ⟨device, hgrants, rfl⟩ := h
  exact ⟨device, hgrants, List.mem_singleton_self _⟩

variable {invocation : Invocation}

theorem invocation?_of_mem (hmem : exchange ∈ record) (h : invocation? exchange = some invocation) :
    invocations record ≠ [] :=
  List.ne_nil_of_mem (List.mem_filterMap.mpr ⟨exchange, hmem, h⟩)

-- An invocation is the last call made for its route.
theorem Attempted.checked
    (h : Attempted intent encryptedEnvelope policy protectedDevices planned
      (before ++ exchange :: after) outcome)
    (hinvocation : invocation? exchange = some invocation) :
    exchange.call = .transmitClassified planned.provider intent.scope planned.route encryptedEnvelope ∧
      TransportOrchestrator.invocations before = [] ∧
      Checked intent policy protectedDevices planned before := by
  generalize hcalls : before ++ exchange :: after = calls at h
  have hmem : exchange ∈ calls := by simp [← hcalls]
  cases h
  case unavailable hgated | unsupported hgated _ _ =>
    exact absurd (by simp [hgated.invocations, invocation?]) (invocation?_of_mem hmem hinvocation)
  case transmitted gate offer revalidation answer hgated hoffered hrevalidated =>
    have hnone : TransportOrchestrator.invocations (gate ++ offer ++ revalidation) = [] := by
      simp [hgated.invocations, hoffered.invocations, hrevalidated.invocations]
    have hnew : exchange ∉ gate ++ offer ++ revalidation :=
      fun hold => invocation?_of_mem hold hinvocation hnone
    obtain ⟨hbefore, hexchange⟩ : before = gate ++ offer ++ revalidation ∧
        exchange = ⟨.transmitClassified planned.provider intent.scope planned.route
          encryptedEnvelope, answer⟩ := by
      obtain ⟨_ | ⟨_, _⟩, hpre, hpost⟩ | ⟨_ | ⟨_, _⟩, hpre, hpost⟩ :=
        List.append_eq_append_iff.mp hcalls <;> simp_all
    obtain ⟨clock, hclock, rfl⟩ := hgated
    subst hbefore hexchange
    refine ⟨rfl, hnone, fun expiresAt hdeadline => ?_, by simp, fun hprotected deviceId hbound => ?_⟩
    · obtain ⟨now, hnow, hmem⟩ := hclock.mem hdeadline
      exact ⟨now, hnow, by simp [hmem]⟩
    · obtain ⟨device, hgrants, hmem⟩ := hrevalidated.mem hprotected hbound
      exact ⟨device, hgrants, by simp [hmem]⟩

theorem retryable_of_finalReason {answer : Except ClassifiedTransportFailure Unit}
    (h : finalReason (transmissionOutcome answer) = none) :
    Invocation.Retryable ⟨route, answer⟩ := by
  cases answer
  case ok => simp [transmissionOutcome, finalReason] at h
  case error failure =>
    refine ⟨failure, rfl, ?_⟩
    simp only [transmissionOutcome] at h
    split at h
    case isTrue => simp [finalReason] at h
    case isFalse hknown =>
      split at h
      case isTrue hretryable =>
        refine ⟨?_, hretryable⟩
        cases hdisposition : failure.disposition
        case notAccepted => rfl
        case acceptanceUnknown => exact absurd hdisposition hknown
      case isFalse => simp [finalReason] at h

section Runs

variable {decision : TransportFailoverDecision}
  (h : Execution intent encryptedEnvelope policy protectedDevices used routes record decision)

include h

theorem Execution.bounded (hused : used ≤ policy.maxRouteAttempts) :
    used + (invocations record).length ≤ policy.maxRouteAttempts := by
  induction h
  case ends h => simpa [h.invocations] using hused
  case last hbudget _ => exact hbudget
  case next hbudget _ _ ih => simpa [Nat.add_assoc] using ih hbudget

theorem Execution.ranked :
    ((invocations record).map (·.route)).Sublist (routes.map (·.route)) := by
  induction h
  case ends h => simp [h.invocations]
  case last hattempted _ _ =>
    obtain h | ⟨answer, h, -⟩ := hattempted.invocations <;> simp [h]
  case next hattempted _ _ _ ih =>
    obtain h | ⟨answer, h, -⟩ := hattempted.invocations <;> simp [h, ih]

theorem Execution.final (hsplit : invocations record = earlier ++ invocation :: later)
    (hlater : later ≠ []) : invocation.Retryable := by
  induction h generalizing earlier
  case ends h => simp [h.invocations] at hsplit
  case last hattempted _ _ =>
    obtain h | ⟨answer, h, -⟩ := hattempted.invocations
    · simp [h] at hsplit
    · rw [h] at hsplit
      cases earlier <;> simp_all
  case next hattempted _ hopen _ ih =>
    rw [invocations_append] at hsplit
    obtain h | ⟨answer, h, rfl⟩ := hattempted.invocations
    · exact ih (by simpa [h] using hsplit)
    · rw [h] at hsplit
      cases earlier
      case nil =>
        obtain ⟨rfl, -⟩ := List.cons.inj hsplit
        exact retryable_of_finalReason hopen
      case cons => exact ih (List.cons.inj hsplit).2

theorem Execution.checked (hsplit : record = before ++ exchange :: after)
    (hinvocation : invocation? exchange = some invocation) :
    ∃ planned ∈ routes, ∃ earlier since, before = earlier ++ since ∧
      exchange.call =
        .transmitClassified planned.provider intent.scope planned.route encryptedEnvelope ∧
      invocations since = [] ∧ Checked intent policy protectedDevices planned since := by
  induction h generalizing before
  case ends h =>
    have hmem : exchange ∈ before ++ exchange :: after := by simp
    exact absurd h.invocations (invocation?_of_mem (hsplit ▸ hmem) hinvocation)
  case last planned _ _ _ _ hattempted _ _ =>
    subst hsplit
    obtain ⟨hcall, hnone, hchecked⟩ := hattempted.checked hinvocation
    exact ⟨planned, by simp, [], before, rfl, hcall, hnone, hchecked⟩
  case next planned _ calls more _ _ _ hattempted _ _ _ ih =>
    obtain ⟨between, hbefore, hmore⟩ | ⟨between, hcalls, hafter⟩ := List.append_eq_append_iff.mp hsplit
    case inl =>
      obtain ⟨later, hlater, earlier, since, rfl, hrest⟩ := ih hmore
      exact ⟨later, by simp [hlater], calls ++ earlier, since, by simp [hbefore], hrest⟩
    case inr =>
      cases between
      case nil =>
        obtain ⟨later, hlater, earlier, since, hnil, hrest⟩ := @ih [] (by simpa using hafter.symm)
        exact ⟨later, by simp [hlater], calls ++ earlier, since, by simp_all, hrest⟩
      case cons =>
        obtain ⟨rfl, -⟩ := List.cons.inj hafter
        rw [hcalls] at hattempted
        obtain ⟨hcall, hnone, hchecked⟩ := hattempted.checked hinvocation
        exact ⟨planned, by simp, [], before, rfl, hcall, hnone, hchecked⟩

theorem Execution.processed :
    decision.attempts.map (·.route) <+: routes.map (·.decision) := by
  induction h
  case ends => simp
  case last => simp
  case next _ _ _ ih => simpa using ih

end Runs

-- One execution, by what was said to the outside world and what was returned. A plan that does not
-- fit the intent is refused before anybody is asked.
structure Sound (intent : OutboundIntent) (plan : TransportPlan) (encryptedEnvelope : Bytes)
    (policy : TransportFailoverPolicy) (protectedDevices : Bool) (record : List FailoverExchange)
    (result : Except TransportFailoverExecutionError TransportFailoverDecision) : Prop where
  bounded  : (invocations record).length ≤ policy.maxRouteAttempts
  distinct : ((invocations record).map (·.route)).Nodup
  ranked   : ((invocations record).map (·.route)).Sublist (plan.rankedRoutes.map (·.route))
  final    : ∀ earlier invocation later, invocations record = earlier ++ invocation :: later →
    later ≠ [] → invocation.Retryable
  checked  : ∀ before exchange after invocation, record = before ++ exchange :: after →
    invocation? exchange = some invocation →
    ∃ canonical, canonicalCommunicationIntent intent = .ok canonical ∧
      ∃ planned ∈ plan.rankedRoutes, ∃ earlier since, before = earlier ++ since ∧
        exchange.call =
          .transmitClassified planned.provider canonical.scope planned.route encryptedEnvelope ∧
        invocations since = [] ∧ Checked canonical policy protectedDevices planned since
  trail    : (decisionOf result).attempts.map (·.route) <+: plan.rankedRoutes.map (·.decision)
  accepted : (∃ decision, result = .ok decision) ↔
    (decisionOf result).stopReason = .acceptedByTransport
  genuine  :
    match validateExecution intent plan encryptedEnvelope policy protectedDevices with
    | .error e      => result = .error e ∧ e.decision.attempts = [] ∧ record = []
    | .ok canonical => Execution canonical encryptedEnvelope policy protectedDevices 0
      plan.rankedRoutes record (decisionOf result)

variable {plan : TransportPlan}

theorem validateExecution_eq_error
    (h : validateExecution intent plan encryptedEnvelope policy protectedDevices = .error e) :
    e.decision.attempts = [] ∧ e.decision.stopReason ≠ .acceptedByTransport := by
  simp only [validateExecution, bind_eq_error, rejectIf_eq_error, mapError_eq_error,
    pure_ne_error, and_false, exists_false, or_false] at h
  obtain ⟨-, rfl⟩ | ⟨-, -, ⟨-, -, rfl⟩ | ⟨-, -, ⟨-, rfl⟩ | ⟨-, -, -, rfl⟩⟩⟩ := h
  all_goals simp [failoverStopped]

theorem validateExecution_eq_ok
    (h : validateExecution intent plan encryptedEnvelope policy protectedDevices = .ok canonical) :
    canonicalCommunicationIntent intent = .ok canonical := by
  simp only [validateExecution, ok_iff] at h
  obtain ⟨-, -, _, hcanonical, -, -, -, -, rfl⟩ := h
  exact hcanonical

theorem transmitWithFailoverInner_sound
    (h : Records (transmitWithFailoverInner intent plan encryptedEnvelope policy protectedDevices)
      record result) :
    Sound intent plan encryptedEnvelope policy protectedDevices record result := by
  simp only [transmitWithFailoverInner] at h
  split at h
  case h_1 e hinvalid =>
    obtain ⟨rfl, rfl⟩ := pure_iff.mp h
    obtain ⟨hattempts, hreason⟩ := validateExecution_eq_error hinvalid
    constructor
    all_goals simp_all [decisionOf]
  case h_2 canonical hvalid =>
    obtain ⟨trail, reason, hexecution, hdecision, hok⟩ := executeRankedRoutes_records (Nat.zero_le _) h
    rw [List.nil_append] at hdecision
    constructor
    case bounded  => simpa using hexecution.bounded (Nat.zero_le _)
    case distinct => exact plan.distinct.sublist hexecution.ranked
    case ranked   => exact hexecution.ranked
    case final    => exact fun _ _ _ => hexecution.final
    case checked  =>
      intro before exchange after invocation hsplit hinvocation
      exact ⟨canonical, validateExecution_eq_ok hvalid, hexecution.checked hsplit hinvocation⟩
    case trail    => simpa [hdecision] using hexecution.processed
    case accepted => simpa [hdecision] using hok
    case genuine  => simpa [hvalid, hdecision] using hexecution

end Records

-- Whatever clock, policy, device store and providers answer, and however often they change their
-- minds.
theorem failover_never_sends_twice (intent : OutboundIntent) (plan : TransportPlan)
    (encryptedEnvelope : Bytes) (policy : TransportFailoverPolicy) (world : World FailoverAnswer) :
    (let run := (transmitWithFailover intent plan encryptedEnvelope policy).run world []
     Sound intent plan encryptedEnvelope policy false run.1 run.2) ∧
      let run := (transmitWithFailoverProtected intent plan encryptedEnvelope policy).run world []
      Sound intent plan encryptedEnvelope policy true run.1 run.2 :=
  ⟨transmitWithFailoverInner_sound (Records.run world [] _),
    transmitWithFailoverInner_sound (Records.run world [] _)⟩

end Ucr.TransportOrchestrator
