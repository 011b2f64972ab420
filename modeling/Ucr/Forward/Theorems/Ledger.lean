import Ucr.Forward.Runtime
import Ucr.Store.Theorems.DeliveryStore

-- How the store and the history of events belong together.

namespace Ucr

open Interleaving MemoryState Persistent ForwardEvent

variable {s s' : MemoryState} {h more : History ForwardEvent} {w : ℕ} {e : ForwardEvent}
  {job : StoreForwardJob} {deliveryId : DeliveryId} {delivery : ScopedId}

-- The transition with which an attempt is sent off.
def started (delivery : ScopedId) : ForwardEvent :=
  .transitioned delivery .routePlanned .inFlight

-- States of an attempt that has not been sent off.
def DeliveryState.preFlight : DeliveryState → Bool
  | .created | .persisted | .encrypted | .queued | .routePlanned => true
  | _ => false

def ForwardEvent.invokedDelivery : ForwardEvent → Option ScopedId
  | .invoked job deliveryId => some (job.scope, deliveryId)
  | _ => none

def ForwardEvent.isTransition : ForwardEvent → Bool
  | .transitioned .. => true
  | _ => false

def ForwardEvent.isEnqueued : ForwardEvent → Bool
  | .enqueued _ => true
  | _ => false

theorem seen_append_iff : Seen e (h ++ [(w, event)]) ↔ Seen e h ∨ e = event := by
  simp only [Seen, List.mem_append, List.mem_singleton, Prod.mk.injEq]
  constructor
  · rintro ⟨w', hmem | ⟨-, rfl⟩⟩
    · exact .inl ⟨w', hmem⟩
    · exact .inr rfl
  · rintro (⟨w', hmem⟩ | rfl)
    · exact ⟨w', .inl hmem⟩
    · exact ⟨w, .inr ⟨rfl, rfl⟩⟩

theorem mem_append_iff : (w', e) ∈ h ++ [(w, event)] ↔ (w', e) ∈ h ∨ w' = w ∧ e = event := by
  simp

section Jobs

-- A copy of a job somebody has read from the store: it was accepted once, and the attempt it made
-- last was counted.
structure Known (job : StoreForwardJob) (h : History ForwardEvent) : Prop where
  origin : ∃ accepted, Seen (.enqueued accepted) h ∧ accepted.key = job.key ∧
    accepted.policy = job.policy
  valid  : validateStoreForwardJob job = .ok ()
  last   : ∀ deliveryId, job.lastDeliveryId = some deliveryId →
    deliveryId = storeForwardDeliveryId job.scope job.storeForwardId job.attemptsUsed ∧
      Seen (.recorded job.key job.attemptsUsed) h

-- The identifier belongs to an attempt of the job that was counted.
def AttemptOf (job : StoreForwardJob) (deliveryId : DeliveryId) (h : History ForwardEvent) : Prop :=
  ∃ ordinal : U16, ordinal ≠ 0 ∧ ordinal ≤ job.policy.maxDeliveryAttempts ∧
    deliveryId = storeForwardDeliveryId job.scope job.storeForwardId ordinal ∧
    Seen (.recorded job.key ordinal) h

instance : Persistent (Known job) where
  append h more hknown := by
    obtain ⟨accepted, hseen, horigin⟩ := hknown.origin
    exact ⟨⟨accepted, append h more hseen, horigin⟩, hknown.valid, fun deliveryId hlast =>
      ⟨(hknown.last deliveryId hlast).1, append h more (hknown.last deliveryId hlast).2⟩⟩

instance : Persistent (AttemptOf job deliveryId) where
  append h more hattempt := by
    obtain ⟨ordinal, hne, hle, hid, hseen⟩ := hattempt
    exact ⟨ordinal, hne, hle, hid, append h more hseen⟩

theorem Known.attemptOf_last (hknown : Known job h) (hlast : job.lastDeliveryId = some deliveryId) :
    AttemptOf job deliveryId h := by
  obtain ⟨hid, hseen⟩ := hknown.last deliveryId hlast
  obtain ⟨-, -, hbudget, hzero, -⟩ := validateStoreForwardJob_eq_ok.mp hknown.valid
  exact ⟨job.attemptsUsed, fun heq => by simp [hzero.mp heq] at hlast, hbudget, hid, hseen⟩

structure JobLedger (s : MemoryState) (h : History ForwardEvent) : Prop where
  jobs : ∀ key value, s.storeForwardJobs.get key = some value →
    value.job.key = key ∧ Known value.job h
  kept : ∀ job, Seen (.enqueued job) h → (s.storeForwardJobs.get job.key).isSome ∨
    (s.storeForwardTombstones.get job.key).isSome
  once : ∀ job job', Seen (.enqueued job) h → Seen (.enqueued job') h → job.key = job'.key →
    job = job'

namespace JobLedger

variable (hl : JobLedger s h)

include hl

-- Copies of one job differ in what it has done so far, never in its policy.
theorem same_policy (hjob : Known job h) (hjob' : Known job' h) (hkey : job.key = job'.key) :
    job.policy = job'.policy := by
  obtain ⟨accepted, hseen, hkey₁, hpolicy⟩ := hjob.origin
  obtain ⟨accepted', hseen', hkey₂, hpolicy'⟩ := hjob'.origin
  obtain rfl := hl.once accepted accepted' hseen hseen' (by rw [hkey₁, hkey₂, hkey])
  rw [← hpolicy, ← hpolicy']

theorem of_same (hjobs : s'.storeForwardJobs = s.storeForwardJobs)
    (htombstones : s'.storeForwardTombstones = s.storeForwardTombstones) : JobLedger s' h := by
  refine ⟨?_, ?_, hl.once⟩
  · rw [hjobs]; exact hl.jobs
  · rw [hjobs, htombstones]; exact hl.kept

theorem other_event (he : ¬e.isEnqueued) : JobLedger s (h ++ [(w, e)]) := by
  have hold : ∀ job, Seen (.enqueued job) (h ++ [(w, e)]) → Seen (.enqueued job) h := by
    intro job hseen
    obtain hseen | rfl := seen_append_iff.mp hseen
    · exact hseen
    · simp [isEnqueued] at he
  refine ⟨fun key value hget => ⟨(hl.jobs key value hget).1, ?_⟩, fun job hseen => ?_,
    fun job job' hseen hseen' => hl.once job job' (hold job hseen) (hold job' hseen')⟩
  · exact append h _ (hl.jobs key value hget).2
  · exact hl.kept job (hold job hseen)

theorem rewrite (hkey : value.job.key = key) (hknown : Known value.job h)
    (hjobs : s'.storeForwardJobs = s.storeForwardJobs.put key value)
    (htombstones : s'.storeForwardTombstones = s.storeForwardTombstones) : JobLedger s' h where
  jobs key' value' hget := by
    rw [hjobs, Table.get_put] at hget
    split at hget
    case isTrue heq =>
      obtain rfl := Option.some.inj hget
      exact ⟨hkey.trans heq.symm, hknown⟩
    case isFalse => exact hl.jobs key' value' hget
  kept job hseen := by
    rw [hjobs, htombstones, Table.get_put]
    split
    case isTrue  => exact .inl rfl
    case isFalse => exact hl.kept job hseen
  once := hl.once

theorem complete (hjobs : s'.storeForwardJobs = s.storeForwardJobs.erase key)
    (htombstones : s'.storeForwardTombstones = s.storeForwardTombstones.put key fingerprint) :
    JobLedger s' h where
  jobs key' value hget := by
    rw [hjobs, Table.get_erase] at hget
    split at hget
    case isTrue  => simp at hget
    case isFalse => exact hl.jobs key' value hget
  kept job hseen := by
    rw [hjobs, htombstones, Table.get_erase, Table.get_put]
    split
    case isTrue  => exact .inr rfl
    case isFalse => exact hl.kept job hseen
  once := hl.once

theorem enqueue (hvalid : validateStoreForwardJob job = .ok ()) (hlast : job.lastDeliveryId = none)
    (hburied : s.storeForwardTombstones.get job.key = none)
    (hfresh : s.storeForwardJobs.get job.key = none)
    (hjobs : s'.storeForwardJobs = s.storeForwardJobs.put job.key ⟨job, fingerprint, none⟩)
    (htombstones : s'.storeForwardTombstones = s.storeForwardTombstones) :
    JobLedger s' (h ++ [(w, .enqueued job)]) := by
  have hnew : Seen (.enqueued job) (h ++ [(w, .enqueued job)]) := seen_append_iff.mpr (.inr rfl)
  -- A job under this key would still be there, alive or buried.
  have hunseen : ∀ job', Seen (.enqueued job') h → job'.key ≠ job.key := fun job' hseen heq => by
    have := hl.kept job' hseen
    simp [heq, hburied, hfresh] at this
  have hcases : ∀ job', Seen (.enqueued job') (h ++ [(w, .enqueued job)]) →
      Seen (.enqueued job') h ∨ job' = job := fun job' hseen => by
    simpa using seen_append_iff.mp hseen
  refine ⟨fun key value hget => ?_, fun job' hseen => ?_, fun job₁ job₂ h₁ h₂ heq => ?_⟩
  · rw [hjobs, Table.get_put] at hget
    split at hget
    case isTrue hkey =>
      obtain rfl := Option.some.inj hget
      exact ⟨hkey.symm, ⟨job, hnew, rfl, rfl⟩, hvalid, by simp [hlast]⟩
    case isFalse => exact ⟨(hl.jobs key value hget).1, append h _ (hl.jobs key value hget).2⟩
  · rw [hjobs, htombstones, Table.get_put]
    split
    case isTrue => exact .inl rfl
    case isFalse hne =>
      obtain hseen | rfl := hcases job' hseen
      · exact hl.kept job' hseen
      · exact absurd rfl hne
  · obtain hold₁ | hnew₁ := hcases job₁ h₁ <;> obtain hold₂ | hnew₂ := hcases job₂ h₂
    · exact hl.once job₁ job₂ hold₁ hold₂ heq
    · exact absurd (heq.trans (congrArg _ hnew₂)) (hunseen job₁ hold₁)
    · exact absurd (heq.symm.trans (congrArg _ hnew₁)) (hunseen job₂ hold₂)
    · rw [hnew₁, hnew₂]

end JobLedger

end Jobs

section Deliveries

-- Only the worker that has sent an attempt off decides how it ends.
structure DeliveryLedger (s : MemoryState) (h : History ForwardEvent) : Prop where
  keyed : ∀ key attempt, s.deliveries.get key = some attempt → attempt.key = key
  launched : ∀ delivery, Seen (started delivery) h →
    ∃ state, s.stateOf delivery = some state ∧ ¬state.preFlight
  starter      : ∀ w w' delivery, (w, started delivery) ∈ h → (w', started delivery) ∈ h → w = w'
  settler      : ∀ w delivery after, (w, .transitioned delivery .inFlight after) ∈ h →
    (w, started delivery) ∈ h
  pending      : ∀ delivery, Seen (started delivery) h →
    (∀ after, ¬Seen (.transitioned delivery .inFlight after) h) →
    s.stateOf delivery = some .inFlight
  acknowledged : ∀ delivery, Seen (.transitioned delivery .inFlight .acknowledged) h →
    s.stateOf delivery = some .acknowledged

variable {current : DeliveryAttempt}

namespace DeliveryLedger

variable (hl : DeliveryLedger s h)

include hl

theorem of_same (hdeliveries : s'.deliveries = s.deliveries) : DeliveryLedger s' h := by
  have hstate : s'.stateOf = s.stateOf := by
    funext delivery
    rw [stateOf, hdeliveries, stateOf]
  exact ⟨hdeliveries ▸ hl.keyed, hstate ▸ hl.launched, hl.starter, hl.settler, hstate ▸ hl.pending,
    hstate ▸ hl.acknowledged⟩

theorem other_event (he : ¬e.isTransition) : DeliveryLedger s (h ++ [(w, e)]) := by
  have hold : ∀ w' delivery before after,
      (w', transitioned delivery before after) ∈ h ++ [(w, e)] →
      (w', transitioned delivery before after) ∈ h := by
    intro w' delivery before after hmem
    obtain hmem | ⟨-, rfl⟩ := mem_append_iff.mp hmem
    · exact hmem
    · simp [isTransition] at he
  refine ⟨hl.keyed, fun d ⟨w', hd⟩ => hl.launched d ⟨w', hold _ _ _ _ hd⟩,
    fun w₁ w₂ d h₁ h₂ => hl.starter w₁ w₂ d (hold _ _ _ _ h₁) (hold _ _ _ _ h₂),
    fun w' d after hd => List.mem_append_left _ (hl.settler w' d after (hold _ _ _ _ hd)),
    fun d ⟨w', hd⟩ hnone => hl.pending d ⟨w', hold _ _ _ _ hd⟩ fun after hseen => ?_,
    fun d ⟨w', hd⟩ => hl.acknowledged d ⟨w', hold _ _ _ _ hd⟩⟩
  exact hnone after (append h _ hseen)

-- A new attempt takes nobody's place.
theorem create (hfresh : s.deliveries.get attempt.key = none)
    (hdeliveries : s'.deliveries = s.deliveries.put attempt.key attempt) : DeliveryLedger s' h := by
  have hother : ∀ d, s.stateOf d ≠ none → s'.stateOf d = s.stateOf d := fun d hd => by
    have hne : d ≠ attempt.key := fun heq => hd (by rw [stateOf, heq, hfresh]; rfl)
    rw [stateOf, stateOf, hdeliveries, Table.get_put_ne hne]
  refine ⟨fun key attempt' hget => ?_, fun d hd => ?_, hl.starter, hl.settler,
    fun d hd hnone => ?_, fun d hd => ?_⟩
  · rw [hdeliveries, Table.get_put] at hget
    split at hget
    case isTrue heq =>
      obtain rfl := Option.some.inj hget
      exact heq.symm
    case isFalse => exact hl.keyed key attempt' hget
  · obtain ⟨state, hstate, hflight⟩ := hl.launched d hd
    exact ⟨state, (hother d (by simp [hstate])).trans hstate, hflight⟩
  · have hstate := hl.pending d hd hnone
    exact (hother d (by simp [hstate])).trans hstate
  · have hstate := hl.acknowledged d hd
    exact (hother d (by simp [hstate])).trans hstate

theorem keyed_transition (hcurrent : s.deliveries.get delivery = some current)
    (hdeliveries : s'.deliveries = s.deliveries.put delivery { current with state := after }) :
    ∀ key attempt, s'.deliveries.get key = some attempt → attempt.key = key := by
  intro key attempt hget
  rw [hdeliveries, Table.get_put] at hget
  split at hget
  case isTrue heq =>
    obtain rfl := Option.some.inj hget
    exact (hl.keyed delivery current hcurrent).trans heq.symm
  case isFalse => exact hl.keyed key attempt hget

end DeliveryLedger

theorem stateOf_eq (hcurrent : s.deliveries.get delivery = some current)
    (hstate : current.state = state) : s.stateOf delivery = some state := by
  rw [stateOf, hcurrent, ← hstate]
  rfl

theorem stateOf_transition
    (hdeliveries : s'.deliveries = s.deliveries.put delivery { current with state := after })
    (d : ScopedId) : s'.stateOf d = if d = delivery then some after else s.stateOf d := by
  rw [stateOf, hdeliveries, Table.get_put]
  split <;> rfl

namespace DeliveryLedger

variable {current : DeliveryAttempt} {before after : DeliveryState}

section Transition

variable (hl : DeliveryLedger s h) (hcurrent : s.deliveries.get delivery = some current)
  (hbefore : current.state = before)
  (hdeliveries : s'.deliveries = s.deliveries.put delivery { current with state := after })

include hl hcurrent hbefore

theorem not_started (hflight : before.preFlight) : ¬Seen (started delivery) h := fun hseen => by
  obtain ⟨state, hstate, hlaunched⟩ := hl.launched delivery hseen
  rw [stateOf_eq hcurrent hbefore] at hstate
  obtain rfl := Option.some.inj hstate
  exact hlaunched hflight

include hdeliveries

-- An attempt that has not been sent off moves on, or expires.
theorem advance (hflight : before.preFlight) (hafter : after ≠ .inFlight) :
    DeliveryLedger s' (h ++ [(w, .transitioned delivery before after)]) := by
  have hne : before ≠ .inFlight := by rintro rfl; simp [DeliveryState.preFlight] at hflight
  have hstart : ∀ w' d, (w', started d) ∈ h ++ [(w, .transitioned delivery before after)] →
      (w', started d) ∈ h := by
    intro w' d hmem
    simpa [started, Ne.symm hafter] using hmem
  have hsettle : ∀ w' d x,
      (w', transitioned d .inFlight x) ∈ h ++ [(w, .transitioned delivery before after)] →
      (w', transitioned d .inFlight x) ∈ h := by
    intro w' d x hmem
    simpa [Ne.symm hne] using hmem
  have hother : ∀ d, Seen (started d) h → s'.stateOf d = s.stateOf d := fun d hseen => by
    rw [stateOf_transition hdeliveries, if_neg]
    rintro rfl
    exact hl.not_started hcurrent hbefore hflight hseen
  refine ⟨hl.keyed_transition hcurrent hdeliveries, fun d ⟨w', hd⟩ => ?_,
    fun w₁ w₂ d h₁ h₂ => hl.starter w₁ w₂ d (hstart w₁ d h₁) (hstart w₂ d h₂),
    fun w' d x hd => List.mem_append_left _ (hl.settler w' d x (hsettle w' d x hd)),
    fun d ⟨w', hd⟩ hnone => ?_, fun d ⟨w', hd⟩ => ?_⟩
  · rw [hother d ⟨w', hstart w' d hd⟩]
    exact hl.launched d ⟨w', hstart w' d hd⟩
  · rw [hother d ⟨w', hstart w' d hd⟩]
    exact hl.pending d ⟨w', hstart w' d hd⟩ fun x hseen => hnone x (append h _ hseen)
  · have hold := hsettle w' d _ hd
    rw [hother d ⟨w', hl.settler w' d _ hold⟩]
    exact hl.acknowledged d ⟨w', hold⟩

end Transition

-- The attempt is sent off, which happens once.
theorem start (hl : DeliveryLedger s h) (hcurrent : s.deliveries.get delivery = some current)
    (hbefore : current.state = .routePlanned)
    (hdeliveries : s'.deliveries = s.deliveries.put delivery { current with state := .inFlight }) :
    DeliveryLedger s' (h ++ [(w, started delivery)]) := by
  have hfresh := hl.not_started hcurrent hbefore rfl
  have hstate := stateOf_transition (s := s) hdeliveries
  have hsettle : ∀ w' d x,
      (w', transitioned d .inFlight x) ∈ h ++ [(w, started delivery)] →
      (w', transitioned d .inFlight x) ∈ h := by
    intro w' d x hmem
    simpa [started] using hmem
  have hcases : ∀ w' d, (w', started d) ∈ h ++ [(w, started delivery)] →
      (w', started d) ∈ h ∧ d ≠ delivery ∨ w' = w ∧ d = delivery := by
    intro w' d hmem
    obtain hold | ⟨rfl, heq⟩ := mem_append_iff.mp hmem
    · exact .inl ⟨hold, by rintro rfl; exact hfresh ⟨w', hold⟩⟩
    · exact .inr ⟨rfl, by simpa [started] using heq⟩
  refine ⟨hl.keyed_transition hcurrent hdeliveries, fun d ⟨w', hd⟩ => ?_,
    fun w₁ w₂ d h₁ h₂ => ?_,
    fun w' d x hd => List.mem_append_left _ (hl.settler w' d x (hsettle w' d x hd)),
    fun d ⟨w', hd⟩ hnone => ?_, fun d ⟨w', hd⟩ => ?_⟩
  · obtain ⟨hold, hne⟩ | ⟨-, rfl⟩ := hcases w' d hd
    · rw [hstate, if_neg hne]
      exact hl.launched d ⟨w', hold⟩
    · exact ⟨.inFlight, by rw [hstate, if_pos rfl], by simp [DeliveryState.preFlight]⟩
  · obtain ⟨hold₁, hne⟩ | ⟨rfl, heq⟩ := hcases w₁ d h₁ <;>
      obtain ⟨hold₂, hne'⟩ | ⟨rfl, heq'⟩ := hcases w₂ d h₂
    · exact hl.starter w₁ w₂ d hold₁ hold₂
    · exact absurd heq' hne
    · exact absurd heq hne'
    · rfl
  · obtain ⟨hold, hne⟩ | ⟨-, rfl⟩ := hcases w' d hd
    · rw [hstate, if_neg hne]
      exact hl.pending d ⟨w', hold⟩ fun x hseen => hnone x (append h _ hseen)
    · rw [hstate, if_pos rfl]
  · have hold := hsettle w' d _ hd
    rw [hstate, if_neg]
    · exact hl.acknowledged d ⟨w', hold⟩
    · rintro rfl
      exact hfresh ⟨w', hl.settler w' d _ hold⟩

-- The attempt ends, by the worker that has sent it off.
theorem settle (hl : DeliveryLedger s h) (hcurrent : s.deliveries.get delivery = some current)
    (hbefore : current.state = .inFlight) (hown : (w, started delivery) ∈ h)
    (hafter : ¬after.preFlight)
    (hdeliveries : s'.deliveries = s.deliveries.put delivery { current with state := after }) :
    DeliveryLedger s' (h ++ [(w, .transitioned delivery .inFlight after)]) := by
  have hstate := stateOf_transition (s := s) hdeliveries
  have hstart : ∀ w' d, (w', started d) ∈ h ++ [(w, .transitioned delivery .inFlight after)] →
      (w', started d) ∈ h := by
    intro w' d hmem
    simpa [started] using hmem
  refine ⟨hl.keyed_transition hcurrent hdeliveries, fun d ⟨w', hd⟩ => ?_,
    fun w₁ w₂ d h₁ h₂ => hl.starter w₁ w₂ d (hstart w₁ d h₁) (hstart w₂ d h₂),
    fun w' d x hd => List.mem_append_left _ ?_, fun d ⟨w', hd⟩ hnone => ?_, fun d ⟨w', hd⟩ => ?_⟩
  · rw [hstate]
    split
    case isTrue  => exact ⟨after, rfl, hafter⟩
    case isFalse => exact hl.launched d ⟨w', hstart w' d hd⟩
  · obtain hold | ⟨rfl, heq⟩ := mem_append_iff.mp hd
    · exact hl.settler w' d x hold
    · obtain ⟨rfl, -, -⟩ := transitioned.inj heq
      exact hown
  · rw [hstate, if_neg]
    · exact hl.pending d ⟨w', hstart w' d hd⟩ fun x hseen => hnone x (append h _ hseen)
    · rintro rfl
      exact hnone after (seen_append_iff.mpr (.inr rfl))
  · rw [hstate]
    obtain hold | ⟨-, heq⟩ := mem_append_iff.mp hd
    · have hack := hl.acknowledged d ⟨w', hold⟩
      rw [if_neg, hack]
      rintro rfl
      rw [stateOf_eq hcurrent hbefore] at hack
      simp at hack
    · obtain ⟨rfl, -, rfl⟩ := transitioned.inj heq
      rw [if_pos rfl]

end DeliveryLedger

end Deliveries

section Invocations

-- What a worker may have done before it invokes a provider.
def ForwardEvent.Quiet : ForwardEvent → Prop
  | .recorded .. => True
  | .transitioned _ before _ => before ≠ .inFlight
  | _ => False

structure InvocationLedger (h : History ForwardEvent) : Prop where
  invoker : ∀ w job deliveryId, (w, .invoked job deliveryId) ∈ h →
    (w, started (job.scope, deliveryId)) ∈ h ∧ Known job h ∧ AttemptOf job deliveryId h
  once    : (h.filterMap (·.2.invokedDelivery)).Nodup
  found   : ∀ w delivery, (w, .found delivery) ∈ h → ∀ job deliveryId,
    (w, .invoked job deliveryId) ∉ h

namespace InvocationLedger

variable (hl : InvocationLedger h)

include hl

-- Whoever finds an attempt under way has invoked nobody.
theorem quiet_event (he : e.invokedDelivery = none)
    (hfound : ∀ d, e = .found d → Only w ForwardEvent.Quiet h) :
    InvocationLedger (h ++ [(w, e)]) := by
  have hold : ∀ w' job id, (w', invoked job id) ∈ h ++ [(w, e)] →
      (w', invoked job id) ∈ h := by
    intro w' job id hmem
    obtain hmem | ⟨-, rfl⟩ := mem_append_iff.mp hmem
    · exact hmem
    · simp [invokedDelivery] at he
  refine ⟨fun w' job id hmem => ?_, by simpa [he] using hl.once, fun w' d hd job id hmem => ?_⟩
  · obtain ⟨hstart, hknown, hattempt⟩ := hl.invoker w' job id (hold w' job id hmem)
    exact ⟨List.mem_append_left _ hstart, append h _ hknown,
      append h _ hattempt⟩
  · obtain hd | ⟨rfl, heq⟩ := mem_append_iff.mp hd
    · exact hl.found w' d hd job id (hold w' job id hmem)
    · exact hfound d heq.symm _ (hold w' job id hmem)

theorem other_event (he : e.invokedDelivery = none) (hfound : ∀ d, e ≠ .found d) :
    InvocationLedger (h ++ [(w, e)]) :=
  hl.quiet_event he fun d heq => absurd heq (hfound d)

theorem find (hown : Only w ForwardEvent.Quiet h) :
    InvocationLedger (h ++ [(w, .found delivery)]) :=
  hl.quiet_event rfl fun _ _ => hown

-- A worker that has sent off an attempt and not used it yet invokes a provider for it.
theorem invoke (hdeliveries : DeliveryLedger s h) (hknown : Known job h)
    (hattempt : AttemptOf job deliveryId h) (hstart : (w, started (job.scope, deliveryId)) ∈ h)
    (hown : Only w ForwardEvent.Quiet h) :
    InvocationLedger (h ++ [(w, .invoked job deliveryId)]) := by
  refine ⟨fun w' job' id hmem => ?_, ?_, fun w' d hd job' id hmem => ?_⟩
  · obtain hmem | ⟨rfl, heq⟩ := mem_append_iff.mp hmem
    · obtain ⟨hstart', hknown', hattempt'⟩ := hl.invoker w' job' id hmem
      exact ⟨List.mem_append_left _ hstart', append h _ hknown',
        append h _ hattempt'⟩
    · obtain ⟨rfl, rfl⟩ := invoked.inj heq
      exact ⟨List.mem_append_left _ hstart, append h _ hknown,
        append h _ hattempt⟩
  · rw [List.filterMap_append, List.nodup_append]
    refine ⟨hl.once, by simp [invokedDelivery], fun d hd d' hd' => ?_⟩
    obtain ⟨⟨w', e⟩, hmem, he⟩ := List.mem_filterMap.mp hd
    cases e <;> simp only [invokedDelivery, reduceCtorEq, Option.some.injEq] at he
    rename_i job' id
    obtain rfl : (job.scope, deliveryId) = d' := by
      simpa [invokedDelivery, eq_comm] using hd'
    rintro rfl
    -- Whoever invoked a provider for this attempt has sent it off, so it was this worker.
    obtain ⟨hstart', -⟩ := hl.invoker w' job' id hmem
    rw [he] at hstart'
    obtain rfl := hdeliveries.starter w' w _ hstart' hstart
    exact hown _ hmem
  · have hd' : (w', ForwardEvent.found d) ∈ h := by simpa using hd
    obtain hmem | ⟨rfl, -⟩ := mem_append_iff.mp hmem
    · exact hl.found w' d hd' job' id hmem
    · exact hown _ hd'

end InvocationLedger

end Invocations

end Ucr
