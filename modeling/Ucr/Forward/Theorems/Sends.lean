import Ucr.Forward.Theorems.Worker

-- How often providers are invoked for a job, however many workers there are and however they are
-- interleaved.

namespace Ucr

open Interleaving ForwardEvent Workload List

variable {s : MemoryState} {h : History ForwardEvent} {job : StoreForwardJob} {key : ScopedId}
  {allows : MemoryState → ForwardEvent → Prop} {cautious : Prop}
  {c : Pool MemoryState Answers ForwardEvent (Except StoreForwardRuntimeError ForwardResult)}

-- A store that store-and-forward has not used yet.
structure MemoryState.Unforwarded (s : MemoryState) : Prop where
  jobs : s.storeForwardJobs = ∅
  tombstones : s.storeForwardTombstones = ∅
  deliveries : s.deliveries = ∅
  evidence : s.deliveryEvidence = ∅

theorem MemoryState.Unforwarded.books (hs : s.Unforwarded) : Books cautious ⟨s, []⟩ where
  jobs := ⟨by simp [hs.jobs], by simp [Seen], by simp [Seen]⟩
  deliveries := ⟨by simp [hs.deliveries], by simp [Seen], by simp, by simp,
    by simp [Seen], by simp [Seen]⟩
  invocations := ⟨by simp, by simp, by simp⟩
  cautious _ := ⟨by simp [Seen], by simp [Seen]⟩

section Invocations

-- The attempt a provider is invoked for, if it is one of this job.
def ForwardEvent.invocationOf (key : ScopedId) : ForwardEvent → Option DeliveryId
  | .invoked job deliveryId => if job.key = key then some deliveryId else none
  | _ => none

def invocationsOf (key : ScopedId) (h : History ForwardEvent) : List DeliveryId :=
  h.filterMap (·.2.invocationOf key)

theorem mem_invocationsOf :
    deliveryId ∈ invocationsOf key h ↔ ∃ job, Seen (.invoked job deliveryId) h ∧ job.key = key := by
  simp only [invocationsOf, mem_filterMap]
  constructor
  · rintro ⟨⟨w, e⟩, hmem, he⟩
    cases e <;> simp only [invocationOf, reduceCtorEq, Option.ite_none_right_eq_some,
      Option.some.injEq] at he
    obtain ⟨hkey, rfl⟩ := he
    exact ⟨_, ⟨w, hmem⟩, hkey⟩
  · rintro ⟨job, ⟨w, hmem⟩, hkey⟩
    exact ⟨_, hmem, by simp [invocationOf, hkey]⟩

theorem invocationsOf_sublist :
    ((invocationsOf key h).map (Prod.mk key.1)).Sublist (h.filterMap (·.2.invokedDelivery)) := by
  induction h
  case nil => exact .slnil
  case cons x h ih =>
    obtain ⟨w, e⟩ := x
    cases e
    case invoked job deliveryId =>
      by_cases hkey : job.key = key
      case pos =>
        have hscope : job.scope = key.1 := congrArg Prod.fst hkey
        simpa [invocationsOf, invocationOf, invokedDelivery, hkey, hscope]
          using ih
      case neg =>
        simpa [invocationsOf, invocationOf, invokedDelivery, hkey]
          using ih.cons _
    all_goals simpa [invocationsOf, invocationOf, invokedDelivery] using ih

theorem InvocationLedger.invocationsOf_nodup (hi : InvocationLedger h) :
    (invocationsOf key h).Nodup :=
  .of_map _ (hi.once.sublist invocationsOf_sublist)

-- Every invocation for a job uses one of the identifiers within its budget.
theorem Books.ordinal_of_invocation (hb : Books cautious ⟨s, h⟩) (hjob : Seen (.enqueued job) h)
    (hmem : deliveryId ∈ invocationsOf job.key h) :
    ∃ ordinal : U16, 1 ≤ ordinal.val ∧ ordinal ≤ job.policy.maxDeliveryAttempts ∧
      deliveryId = storeForwardDeliveryId job.scope job.storeForwardId ordinal := by
  obtain ⟨copy, ⟨w, hinvoked⟩, hkey⟩ := mem_invocationsOf.mp hmem
  obtain ⟨-, hknown, ordinal, hne, hle, hid, -⟩ := hb.invocations.invoker w copy deliveryId hinvoked
  obtain ⟨accepted, haccepted, hkey', hpolicy⟩ := hknown.origin
  obtain rfl := hb.jobs.once accepted job haccepted hjob (hkey'.trans hkey)
  obtain ⟨hscope, hsfid⟩ := Prod.mk.inj hkey
  exact ⟨ordinal, Nat.one_le_iff_ne_zero.mpr fun hzero => hne (Fin.ext hzero), hpolicy ▸ hle,
    by rw [hid, hscope, hsfid]⟩

theorem length_le_of_ordinals {ids : List DeliveryId} (hnodup : ids.Nodup)
    (hids : ∀ deliveryId ∈ ids, ∃ ordinal : U16, 1 ≤ ordinal.val ∧ ordinal ≤ budget ∧
      deliveryId = storeForwardDeliveryId scope storeForwardId ordinal) :
    ids.length ≤ budget.val := by
  let all := (finRange budget.val).map fun k : Fin budget.val =>
    storeForwardDeliveryId scope storeForwardId ⟨k.val + 1, by omega⟩
  have hsubset : ids ⊆ all := by
    intro deliveryId hmem
    obtain ⟨ordinal, hpos, hle, rfl⟩ := hids deliveryId hmem
    have hle := Fin.le_def.mp hle
    refine mem_map.mpr ⟨⟨ordinal.val - 1, by omega⟩, mem_finRange _, ?_⟩
    congr
    simp only
    omega
  have hlength := (subperm_of_subset hnodup hsubset).length_le
  rwa [length_map, length_finRange] at hlength

-- Each attempt of a job is sent at most once and there are not more of them than its policy allows.
-- Whoever finds an attempt under way leaves it to the worker that has sent it off.
theorem attempts_are_sent_once (hs : s.Unforwarded)
    (hrun : (forwarding fun _ _ => True).Run (initial s) c) :
    (∀ job, Seen (.enqueued job) c.history →
      (invocationsOf job.key c.history).Nodup ∧
      (invocationsOf job.key c.history).length ≤ job.policy.maxDeliveryAttempts.val ∧
      ∀ deliveryId ∈ invocationsOf job.key c.history, ∃ ordinal : U16, 1 ≤ ordinal.val ∧
        ordinal ≤ job.policy.maxDeliveryAttempts ∧
        deliveryId = storeForwardDeliveryId job.scope job.storeForwardId ordinal) ∧
    (∀ w copy deliveryId, (w, .invoked copy deliveryId) ∈ c.history →
      (∃ job, Seen (.enqueued job) c.history ∧ job.key = copy.key) ∧
      ∀ w', (w', started (copy.scope, deliveryId)) ∈ c.history ↔ w' = w) ∧
    ∀ w delivery, (w, .found delivery) ∈ c.history →
      ∀ copy deliveryId, (w, .invoked copy deliveryId) ∉ c.history := by
  have hb : Books False c.toShared :=
    (forwarding_sound fun hc => hc.elim).run hs.books hrun
  refine ⟨fun job hjob => ?_, fun w copy deliveryId hmem => ?_, ?_⟩
  · have hids := fun deliveryId (hmem : deliveryId ∈ invocationsOf job.key c.history) =>
      hb.ordinal_of_invocation hjob hmem
    have hnodup : (invocationsOf job.key c.history).Nodup := hb.invocations.invocationsOf_nodup
    exact ⟨hnodup, length_le_of_ordinals hnodup hids, hids⟩
  · obtain ⟨hstart, hknown, -⟩ := hb.invocations.invoker w copy deliveryId hmem
    obtain ⟨accepted, haccepted, hkey, -⟩ := hknown.origin
    refine ⟨⟨accepted, haccepted, hkey⟩, fun w' => ⟨fun hstart' => ?_, fun heq => heq ▸ hstart⟩⟩
    exact hb.deliveries.starter w' w _ hstart' hstart
  · exact hb.invocations.found

end Invocations

section Acceptance

-- Once an invocation for a job was accepted, no provider is invoked for the job any more.
def NeverResent (h : History ForwardEvent) : Prop :=
  ∀ h₁ h₂ w w' job deliveryId,
    h = h₁ ++ (w', .transitioned (job.scope, deliveryId) .inFlight .acknowledged) :: h₂ →
    (w, .invoked job deliveryId) ∈ h₁ →
    ∀ w'' job' deliveryId', (w'', .invoked job' deliveryId') ∈ h₂ → job'.key ≠ job.key

-- An attempt is counted only if the one before has failed.
def CountsAfterFailure (s : MemoryState) : ForwardEvent → Prop
  | .recorded key _ => s.lastAttemptFailed key
  | _ => True

instance : ∀ s e, Decidable ((forwarding CountsAfterFailure).allows s e)
  | s, .recorded key _ => inferInstanceAs (Decidable (s.lastAttemptFailed key = true))
  | _, .enqueued _ | _, .found _ | _, .transitioned .. | _, .invoked .. => .isTrue trivial

theorem Cautious.neverResent (hc : Cautious s h) : NeverResent h := by
  rintro h₁ h₂ w w' job deliveryId rfl hinvoked w'' job' deliveryId' hlater
  have hpairs := hc.resend job deliveryId ⟨w, mem_append_left _ hinvoked⟩
  have hbehind := (pairwise_cons.mp (pairwise_append.mp hpairs).2.1).1
  exact hbehind _ hlater rfl job' deliveryId' rfl

theorem accepted_jobs_are_not_resent (hs : s.Unforwarded)
    (hrun : (forwarding CountsAfterFailure).Run (initial s) c) :
    NeverResent c.history := by
  have hb : Books True c.toShared :=
    (forwarding_sound fun _ _ _ _ hallowed => hallowed).run hs.books hrun
  exact (hb.cautious trivial).neverResent

namespace Scenario

def letter : MessageEnvelope :=
  { aliceTells (named "letter") ⟨named "letters", .direct⟩ with deliveryState := .persisted }

def letterJob : StoreForwardJob where
  storeForwardId := named "post"
  scope := tenant
  intentId := named "send-letter"
  messageId := letter.messageId
  encryptedEnvelope := [1]
  policy := ⟨3, 1000, 1000, 5000, none⟩
  attemptsUsed := 0
  nextAttemptAtUnixMs := 0
  lastDeliveryId := none

def letterBox : MemoryState :=
  { MemoryState.empty with
    intents  := Table.put ∅ (tenant, letterJob.intentId) ⟨letterJob.intentId, tenant⟩
    messages := Table.put ∅ (tenant, letter.messageId) letter }

def letterIntent : OutboundIntent where
  intentId := letterJob.intentId
  scope := tenant
  targetIdentityId := bob.principalId
  payload := []
  constraints := ⟨[], [], none, none, none, none⟩
  correlation := letter.correlation
  extensions := []

-- Bob's inbox is the only route.
def letterPlan : TransportPlan where
  binding := ⟨letterIntent.intentId, tenant, letterIntent.targetIdentityId,
    letterIntent.constraints, false⟩
  rankedRoutes := [⟨0, ⟨named "bobs-inbox", "ucr.transport", ⟨"ucr.inbox", [1]⟩⟩,
    ⟨named "bobs-inbox", "ucr.transport", 1⟩, none⟩]
  distinct := by simp
  ranked := by
    rintro (_ | i) planned hplanned
    · obtain rfl := Option.some.inj hplanned
      exact ⟨rfl, rfl, rfl⟩
    · simp at hplanned

-- Everything works at a given time, up to what the provider answers.
def weather (transmission : Except ClassifiedTransportFailure Unit) (now : ℤ) : Answers where
  nowUnixMs := now
  opaqueId  := .ok (named "lease")
  plan      := .ok (letterIntent, letterPlan)
  failover
    | .nowUnixMs => now
    | .evaluateIntent _ => .allow
    | .health _ => .healthy
    | .capabilities _ => [⟨"ucr.transport", .production⟩]
    | .device .. => .ok none
    | .transmitClassified .. => transmission

def sunny : ℤ → Answers := weather (.ok ())

def stormy : ℤ → Answers := weather (.error ⟨.unavailable, .notAccepted⟩)

abbrev ForwardMove := Move Answers ForwardTask

def takeUp : ForwardMove :=
  .start (.processOne tenant letterJob.storeForwardId false)

def steps (w n : ℕ) (answers : Answers) : List ForwardMove :=
  List.replicate n (.run w answers)

-- Worker 1 stops with an attempt created but not counted. Worker 2 reads the job, which has made no
-- attempt yet. Then worker 1 counts the attempt with the clock it had read, sends it, has it
-- accepted and crashes before the job is completed. Worker 2 takes the job over and sends it again.
def overtaking : List ForwardMove :=
  [.start (.enqueue letterJob)] ++ steps 0 3 (sunny 0) ++
    [takeUp] ++ steps 1 8 (sunny 0) ++ steps 1 1 (sunny 4000) ++
    [takeUp] ++ steps 2 2 (sunny 10000) ++
    steps 1 10 (sunny 4000) ++ [.crash 1] ++
    steps 2 16 (sunny 10000)

-- The first attempt fails, the second one is accepted.
def retrying : List ForwardMove :=
  [.start (.enqueue letterJob)] ++ steps 0 3 (sunny 0) ++
    [takeUp] ++ steps 1 20 (stormy 0) ++
    [takeUp] ++ steps 2 22 (sunny 10000)

def played (allows : MemoryState → ForwardEvent → Prop) (moves : List ForwardMove) :
    Pool MemoryState Answers ForwardEvent (Except StoreForwardRuntimeError ForwardResult) :=
  (forwarding allows).playAll (initial letterBox) moves

def firstDelivery : DeliveryId := storeForwardDeliveryId tenant letterJob.storeForwardId 1
def secondDelivery : DeliveryId := storeForwardDeliveryId tenant letterJob.storeForwardId 2

-- What a worker leaves in the history on the way to a provider.
def sending (w : ℕ) (job : StoreForwardJob) (deliveryId : DeliveryId) : History ForwardEvent :=
  [(w, .transitioned (tenant, deliveryId) .persisted .encrypted),
    (w, .transitioned (tenant, deliveryId) .encrypted .queued),
    (w, .transitioned (tenant, deliveryId) .queued .routePlanned),
    (w, started (tenant, deliveryId)),
    (w, .invoked job deliveryId)]

def overtakingHistory : History ForwardEvent :=
  ((0, .enqueued letterJob) :: (1, .recorded letterJob.key 1) :: sending 1 letterJob firstDelivery) ++
    (1, .transitioned (tenant, firstDelivery) .inFlight .acknowledged) ::
    (2, .recorded letterJob.key 2) :: sending 2 letterJob secondDelivery

def retryingHistory : History ForwardEvent :=
  (0, .enqueued letterJob) :: (1, .recorded letterJob.key 1) :: sending 1 letterJob firstDelivery ++
    (1, .transitioned (tenant, firstDelivery) .inFlight .failed) ::
    (2, .recorded letterJob.key 2) ::
    sending 2 { letterJob.counted 1 with nextAttemptAtUnixMs := 1000 } secondDelivery ++
    [(2, .transitioned (tenant, secondDelivery) .inFlight .acknowledged)]

theorem letterBox_unforwarded : letterBox.Unforwarded :=
  ⟨rfl, rfl, rfl, rfl⟩

end Scenario

open Scenario

theorem overtaken_job_is_resent :
    letterBox.Unforwarded ∧
    (forwarding fun _ _ => True).Run (initial letterBox)
      (played (fun _ _ => True) overtaking) ∧
    ¬NeverResent (played (fun _ _ => True) overtaking).history := by
  have hhistory : (played (fun _ _ => True) overtaking).history = overtakingHistory := by
    decide +kernel
  refine ⟨letterBox_unforwarded, AllowsAll.run (.of_forall fun _ _ => trivial), fun h => ?_⟩
  rw [hhistory] at h
  refine h _ _ 1 1 letterJob firstDelivery rfl ?_ 2 letterJob secondDelivery ?_ rfl <;>
    simp [sending]

-- After a failure the second attempt is made, and it is the last one.
theorem retried_job_is_not_resent :
    (played CountsAfterFailure retrying).history = retryingHistory ∧
    NeverResent (played CountsAfterFailure retrying).history :=
  ⟨by decide +kernel, accepted_jobs_are_not_resent letterBox_unforwarded
    (AllowsAll.run (by decide +kernel))⟩

theorem retried_job_uses_two_attempts :
    (played (fun _ _ => True) retrying).history = retryingHistory ∧
    (invocationsOf letterJob.key retryingHistory).Nodup ∧
    (invocationsOf letterJob.key retryingHistory).length ≤ 3 := by
  have hhistory : (played (fun _ _ => True) retrying).history = retryingHistory := by
    decide +kernel
  have hrun : (forwarding fun _ _ => True).Run (initial letterBox)
      (played (fun _ _ => True) retrying) :=
    AllowsAll.run (.of_forall fun _ _ => trivial)
  have hsent := (attempts_are_sent_once letterBox_unforwarded hrun).1 letterJob
  rw [hhistory] at hsent
  obtain ⟨hnodup, hlength, -⟩ := hsent ⟨0, by simp [retryingHistory]⟩
  exact ⟨hhistory, hnodup, hlength⟩

end Acceptance

end Ucr
