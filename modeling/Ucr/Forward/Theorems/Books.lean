import Ucr.Forward.Theorems.Ledger

-- All ledgers together. They hold in every run. If attempts are only counted after the one before
-- has failed, nothing is sent again after it was accepted.

namespace Ucr

open Interleaving MemoryState ForwardEvent

variable {s s' : MemoryState} {h : History ForwardEvent} {job : StoreForwardJob}
  {deliveryId : DeliveryId} {cautious : Prop}

-- The attempt a job made last, if there is one, has failed.
def MemoryState.lastAttemptFailed (s : MemoryState) (key : ScopedId) : Bool :=
  (s.storeForwardJobs.get key).all fun value =>
    value.job.lastDeliveryId.all fun deliveryId => s.stateOf (key.1, deliveryId) = some .failed

-- No attempt of the job is invoked behind the acceptance of this one.
def NoResend (job : StoreForwardJob) (deliveryId : DeliveryId) (a b : ℕ × ForwardEvent) : Prop :=
  a.2 = .transitioned (job.scope, deliveryId) .inFlight .acknowledged →
    ∀ job' deliveryId', b.2 = .invoked job' deliveryId' → job'.key ≠ job.key

structure Cautious (s : MemoryState) (h : History ForwardEvent) : Prop where
  failed : ∀ (key : ScopedId) (ordinal earlier : U16), Seen (.recorded key ordinal) h →
    earlier ≠ 0 → earlier < ordinal →
    s.stateOf (key.1, storeForwardDeliveryId key.1 key.2 earlier) = some .failed
  resend : ∀ job deliveryId, Seen (.invoked job deliveryId) h →
    h.Pairwise (NoResend job deliveryId)

namespace Cautious

variable (hc : Cautious s h)

include hc

theorem of_kept (hkept : ∀ d, s.stateOf d = some .failed → s'.stateOf d = some .failed) :
    Cautious s' h :=
  ⟨fun key ordinal earlier hseen hne hlt => hkept _ (hc.failed key ordinal earlier hseen hne hlt),
    hc.resend⟩

theorem other_event (hrecorded : ∀ key ordinal, e ≠ .recorded key ordinal)
    (hinvoked : e.invokedDelivery = none) : Cautious s (h ++ [(w, e)]) := by
  refine ⟨fun key ordinal earlier hseen => ?_, fun job id hseen => ?_⟩
  · obtain hseen | heq := seen_append_iff.mp hseen
    · exact hc.failed key ordinal earlier hseen
    · exact absurd heq.symm (hrecorded key ordinal)
  · obtain hseen | rfl := seen_append_iff.mp hseen
    · rw [List.pairwise_append]
      refine ⟨hc.resend job id hseen, List.pairwise_singleton .., fun a _ b hb => ?_⟩
      obtain rfl := List.mem_singleton.mp hb
      rintro - job' id' rfl
      simp [invokedDelivery] at hinvoked
    · simp [invokedDelivery] at hinvoked

theorem record (hget : s.storeForwardJobs.get key = some value) (hkey : value.job.key = key)
    (hknown : Known value.job h) (hordinal : ordinal.val = value.job.attemptsUsed.val + 1)
    (hlast : s.lastAttemptFailed key) : Cautious s (h ++ [(w, .recorded key ordinal)]) := by
  refine ⟨fun key' ordinal' earlier hseen hne hlt => ?_, fun job id hseen => ?_⟩
  · obtain hseen | heq := seen_append_iff.mp hseen
    · exact hc.failed key' ordinal' earlier hseen hne hlt
    · obtain ⟨rfl, rfl⟩ := recorded.inj heq
      have hle : earlier.val ≤ value.job.attemptsUsed.val := by
        have := Fin.lt_def.mp hlt
        omega
      -- There was an attempt before, and it is the one the job refers to.
      have hsome : value.job.lastDeliveryId ≠ none := fun hnone => hne (by
        obtain ⟨-, -, -, hzero, -⟩ := validateStoreForwardJob_eq_ok.mp hknown.valid
        rw [hzero.mpr hnone] at hle
        exact Fin.ext (Nat.le_zero.mp hle))
      obtain ⟨lastId, hlastId⟩ := Option.ne_none_iff_exists'.mp hsome
      obtain ⟨rfl, hrecorded⟩ := hknown.last lastId hlastId
      subst hkey
      obtain hbefore | hsame := Nat.lt_or_eq_of_le hle
      · exact hc.failed value.job.key value.job.attemptsUsed earlier hrecorded hne hbefore
      · obtain rfl := Fin.ext hsame
        simp only [lastAttemptFailed, hget, Option.all_some, hlastId] at hlast
        exact of_decide_eq_true hlast
  · have hseen' : Seen (.invoked job id) h := by simpa using seen_append_iff.mp hseen
    rw [List.pairwise_append]
    refine ⟨hc.resend job id hseen', List.pairwise_singleton .., fun a _ b hb => ?_⟩
    obtain rfl := List.mem_singleton.mp hb
    rintro - job' id' heq
    cases heq

-- Of two counted attempts of a job, the earlier one has failed, so the later one is not accepted
-- while the earlier one is on its way, and not on its way once the earlier one was accepted.
theorem not_accepted (hd : DeliveryLedger s h) (hi : InvocationLedger h)
    (hattempt : AttemptOf job deliveryId h)
    (hflight : s.stateOf (job.scope, deliveryId) = some .inFlight)
    (hinvoked : Seen (.invoked job₁ id₁) h)
    (haccepted : Seen (.transitioned (job₁.scope, id₁) .inFlight .acknowledged) h) :
    job.key ≠ job₁.key := by
  intro hkey
  obtain ⟨w₁, hinvoked⟩ := hinvoked
  obtain ⟨-, -, ordinal₁, hne₁, -, rfl, hrecorded₁⟩ := hi.invoker w₁ job₁ id₁ hinvoked
  obtain ⟨ordinal, hne, -, rfl, hrecorded⟩ := hattempt
  have hack := hd.acknowledged _ haccepted
  obtain ⟨hscope, hid⟩ := Prod.mk.inj hkey
  rw [← hscope, ← hid] at hack
  rw [← hkey] at hrecorded₁
  obtain hlt | rfl | hgt := lt_trichotomy ordinal ordinal₁
  · have hfailed := hc.failed job.key ordinal₁ ordinal hrecorded₁ hne hlt
    simp [StoreForwardJob.key, hflight] at hfailed
  · simp [hflight] at hack
  · have hfailed := hc.failed job.key ordinal ordinal₁ hrecorded hne₁ hgt
    simp [StoreForwardJob.key, hack] at hfailed

theorem invoke (hd : DeliveryLedger s h) (hi : InvocationLedger h)
    (hattempt : AttemptOf job deliveryId h)
    (hflight : s.stateOf (job.scope, deliveryId) = some .inFlight) :
    Cautious s (h ++ [(w, .invoked job deliveryId)]) := by
  refine ⟨fun key ordinal earlier hseen => ?_, fun job₁ id₁ hseen => ?_⟩
  · exact hc.failed key ordinal earlier (by simpa using seen_append_iff.mp hseen)
  · rw [List.pairwise_append]
    obtain hseen | heq := seen_append_iff.mp hseen
    · refine ⟨hc.resend job₁ id₁ hseen, List.pairwise_singleton .., ?_⟩
      rintro ⟨w', _⟩ ha b hb rfl
      obtain rfl := List.mem_singleton.mp hb
      rintro job' id' heq
      obtain ⟨rfl, rfl⟩ := invoked.inj heq
      exact hc.not_accepted hd hi hattempt hflight hseen ⟨w', ha⟩
    · -- This attempt is on its way, so nobody has accepted it yet.
      obtain ⟨rfl, rfl⟩ := invoked.inj heq
      have hnot : ∀ a ∈ h, a.2 ≠ .transitioned (job₁.scope, id₁) .inFlight .acknowledged := by
        rintro ⟨w', _⟩ ha rfl
        have hack := hd.acknowledged _ ⟨w', ha⟩
        simp [hflight] at hack
      refine ⟨List.Pairwise.imp_of_mem (fun ha _ _ haccepted => absurd haccepted (hnot _ ha))
        (List.pairwise_of_forall fun _ _ => trivial), List.pairwise_singleton ..,
        fun a ha b _ haccepted => absurd haccepted (hnot a ha)⟩

end Cautious

def StoreForwardJob.counted (job : StoreForwardJob) (ordinal : U16) : StoreForwardJob :=
  { job with
    attemptsUsed   := ordinal
    lastDeliveryId := some (storeForwardDeliveryId job.scope job.storeForwardId ordinal) }

structure Books (cautious : Prop) (c : Shared MemoryState ForwardEvent) : Prop where
  jobs : JobLedger c.state c.history
  deliveries : DeliveryLedger c.state c.history
  invocations : InvocationLedger c.history
  cautious : cautious → Cautious c.state c.history

namespace Books

variable (hb : Books cautious ⟨s, h⟩)

include hb

theorem of_jobs (hjobs : JobLedger s' h) (hdeliveries : s'.deliveries = s.deliveries) :
    Books cautious ⟨s', h⟩ :=
  ⟨hjobs, hb.deliveries.of_same hdeliveries, hb.invocations, fun hc =>
    (hb.cautious hc).of_kept fun d hd => by
      rw [stateOf, hdeliveries]
      exact hd⟩

theorem of_same (hsame : SameForwarding s s') : Books cautious ⟨s', h⟩ :=
  hb.of_jobs (hb.jobs.of_same hsame.jobs hsame.tombstones) hsame.deliveries

theorem create (hfresh : s.deliveries.get attempt.key = none)
    (hjobs : s'.storeForwardJobs = s.storeForwardJobs)
    (htombstones : s'.storeForwardTombstones = s.storeForwardTombstones)
    (hdeliveries : s'.deliveries = s.deliveries.put attempt.key attempt) :
    Books cautious ⟨s', h⟩ := by
  refine ⟨hb.jobs.of_same hjobs htombstones, hb.deliveries.create hfresh hdeliveries,
    hb.invocations, fun hc => (hb.cautious hc).of_kept fun d hd => ?_⟩
  have hne : d ≠ attempt.key := fun heq => by
    simp [stateOf, heq, hfresh] at hd
  rw [stateOf, hdeliveries, Table.get_put_ne hne]
  exact hd

-- One attempt moves. The three kinds of moves differ in what the ledger of deliveries says about
-- them.
theorem transition (hcurrent : s.deliveries.get delivery = some current)
    (hbefore : current.state = before) (hlegal : canTransitionDelivery before after)
    (hjobs : s'.storeForwardJobs = s.storeForwardJobs)
    (htombstones : s'.storeForwardTombstones = s.storeForwardTombstones)
    (hdeliveries : s'.deliveries = s.deliveries.put delivery { current with state := after })
    (hledger : DeliveryLedger s' (h ++ [(w, .transitioned delivery before after)])) :
    Books cautious ⟨s', h ++ [(w, .transitioned delivery before after)]⟩ := by
  refine ⟨(hb.jobs.of_same hjobs htombstones).other_event (by simp [isEnqueued]),
    hledger, hb.invocations.other_event rfl (by simp), fun hc => ?_⟩
  have hkept : ∀ d, s.stateOf d = some .failed → s'.stateOf d = some .failed := fun d hd => by
    rw [stateOf_transition hdeliveries, if_neg, hd]
    rintro rfl
    -- Nothing leaves the failed state.
    rw [stateOf_eq hcurrent hbefore] at hd
    obtain rfl := Option.some.inj hd
    revert hlegal
    cases after <;> decide
  exact ((hb.cautious hc).of_kept hkept).other_event (by simp) rfl

theorem invoke (hknown : Known job h) (hattempt : AttemptOf job deliveryId h)
    (hstart : (w, started (job.scope, deliveryId)) ∈ h) (hown : Only w Quiet h) :
    Books cautious ⟨s, h ++ [(w, .invoked job deliveryId)]⟩ := by
  -- Nobody but this worker ends the attempt, and it has not done so.
  have hflight : s.stateOf (job.scope, deliveryId) = some .inFlight := by
    refine hb.deliveries.pending _ ⟨w, hstart⟩ fun after ⟨w', hsettled⟩ => ?_
    have hstart' := hb.deliveries.settler w' _ after hsettled
    obtain rfl := hb.deliveries.starter w' w _ hstart' hstart
    exact hown _ hsettled rfl
  exact ⟨hb.jobs.other_event (by simp [isEnqueued]),
    hb.deliveries.other_event (by simp [isTransition]),
    hb.invocations.invoke hb.deliveries hknown hattempt hstart hown,
    fun hc => (hb.cautious hc).invoke hb.deliveries hb.invocations hattempt hflight⟩

theorem find (hown : Only w Quiet h) :
    Books cautious ⟨s, h ++ [(w, .found delivery)]⟩ :=
  ⟨hb.jobs.other_event (by simp [isEnqueued]),
    hb.deliveries.other_event (by simp [isTransition]),
    hb.invocations.find hown, fun hc => (hb.cautious hc).other_event (by simp) rfl⟩

theorem enqueue (hvalid : validateStoreForwardJob job = .ok ()) (hlast : job.lastDeliveryId = none)
    (hburied : s.storeForwardTombstones.get job.key = none)
    (hfresh : s.storeForwardJobs.get job.key = none) :
    Books cautious ⟨{ s with
      storeForwardJobs := s.storeForwardJobs.put job.key ⟨job, fingerprint, none⟩ },
      h ++ [(w, .enqueued job)]⟩ := by
  exact ⟨hb.jobs.enqueue hvalid hlast hburied hfresh rfl rfl,
    (hb.deliveries.other_event (by simp [isTransition])).of_same rfl,
    hb.invocations.other_event rfl (by simp),
    fun hc => ((hb.cautious hc).other_event (by simp) rfl).of_kept fun _ hd => hd⟩

-- An attempt is counted, and the job stays valid.
theorem record (hget : s.storeForwardJobs.get key = some value)
    (hsucc : ordinal = value.job.attemptsUsed.saturatingSucc)
    (hbudget : ordinal ≤ value.job.policy.maxDeliveryAttempts)
    (hlast : cautious → s.lastAttemptFailed key) :
    validateStoreForwardJob (value.job.counted ordinal) = .ok () ∧
      Books cautious ⟨{ s with
        storeForwardJobs :=
          s.storeForwardJobs.put key { value with job := value.job.counted ordinal } },
        h ++ [(w, .recorded key ordinal)]⟩ := by
  obtain ⟨hkey, hknown⟩ := hb.jobs.jobs key value hget
  obtain ⟨hpolicy, henvelope, -, -, hexpiry⟩ := validateStoreForwardJob_eq_ok.mp hknown.valid
  have hordinal : ordinal.val = value.job.attemptsUsed.val + 1 := by
    subst hsucc
    exact val_saturatingSucc_of_le hpolicy hbudget
  have hvalid : validateStoreForwardJob (value.job.counted ordinal) = .ok () := by
    refine validateStoreForwardJob_eq_ok.mpr ⟨hpolicy, henvelope, hbudget, ?_, hexpiry⟩
    have hne : ordinal ≠ 0 := fun heq => by simp [heq] at hordinal
    simp [StoreForwardJob.counted, hne]
  have hlogged : JobLedger s (h ++ [(w, .recorded key ordinal)]) :=
    hb.jobs.other_event (by simp [isEnqueued])
  have hcounted : Known (value.job.counted ordinal) (h ++ [(w, .recorded key ordinal)]) := by
    obtain ⟨accepted, hseen, horigin⟩ := hknown.origin
    refine ⟨⟨accepted, Persistent.append h _ hseen, horigin⟩, hvalid, fun deliveryId hid => ?_⟩
    obtain rfl := Option.some.inj hid
    exact ⟨rfl, seen_append_iff.mpr (.inr (by rw [← hkey]; rfl))⟩
  refine ⟨hvalid, hlogged.rewrite ?_ ?_ rfl rfl,
    (hb.deliveries.other_event (by simp [isTransition])).of_same rfl,
    hb.invocations.other_event rfl (by simp), fun hc => ?_⟩
  · exact hkey
  · exact hcounted
  · exact ((hb.cautious hc).record hget hkey hknown hordinal (hlast hc)).of_kept fun _ hd => hd

end Books

end Ucr
