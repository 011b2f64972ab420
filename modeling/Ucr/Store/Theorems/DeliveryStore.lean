import Ucr.Store.DeliveryStore

-- What the operations on delivery attempts and jobs do when they succeed.

namespace Ucr

open Except

variable {s s' : MemoryState}

namespace MemoryState

def stateOf (s : MemoryState) (delivery : ScopedId) : Option DeliveryState :=
  (s.deliveries.get delivery).map (·.state)

section Deliveries

theorem persistCommunicationIntent_spec
    (h : s.persistCommunicationIntent intent = .ok (status, s')) :
    ∃ intents, s' = { s with intents := intents } := by
  simp only [persistCommunicationIntent, bind_eq_ok] at h
  obtain ⟨stored, -, h⟩ := h
  cases stored <;>
  · simp only [return_eq_ok] at h
    exact ⟨_, h.2.symm⟩

theorem createDeliveryAttempt_cases
    (h : s.createDeliveryAttempt attempt evidence = .ok (status, s')) :
    (status = .duplicate ∧ s' = s) ∨
      (status = .persisted ∧ s.deliveries.get attempt.key = none ∧ attempt.state = .persisted ∧
        s' = { s with
          deliveries := s.deliveries.put attempt.key attempt
          deliveryEvidence := s.deliveryEvidence.put attempt.key [evidence] }) := by
  simp only [createDeliveryAttempt, validateDeliveryAttempt, ok_iff, exists_const, not_not] at h
  obtain ⟨hstate, _, -, _, -, -, h⟩ := h
  split at h
  case h_1 =>
    simp only [ok_iff] at h
    obtain ⟨-, -, _, -, -, -, rfl, rfl⟩ := h
    exact .inl ⟨rfl, rfl⟩
  case h_2 hfresh =>
    obtain ⟨rfl, rfl⟩ := return_eq_ok.mp h
    exact .inr ⟨rfl, hfresh, hstate, rfl⟩

theorem appendDeliveryEvidence_spec (h : s.appendDeliveryEvidence key evidence = .ok (status, s')) :
    ∃ journals, s' = { s with deliveryEvidence := journals } := by
  simp only [appendDeliveryEvidence] at h
  split at h
  case h_1 =>
    obtain rfl := state_after_eq h
    exact ⟨s.deliveryEvidence, rfl⟩
  case h_2 =>
    obtain rfl := state_after_eq h
    exact ⟨_, rfl⟩

theorem writeTransitionEvidence_spec {evidence}
    (h : s.writeTransitionEvidence attempt key next evidence = .ok s') :
    ∃ journals, s' = { s with deliveryEvidence := journals } := by
  cases evidence
  case none =>
    simp only [writeTransitionEvidence, ok_iff] at h
    exact ⟨s.deliveryEvidence, h ▸ rfl⟩
  case some evidence =>
    simp only [writeTransitionEvidence, ok_iff, Prod.exists] at h
    obtain ⟨-, -, _, _, happend, rfl⟩ := h
    exact appendDeliveryEvidence_spec happend

theorem recordDeliveryEvidence_spec (h : s.recordDeliveryEvidence evidence = .ok (status, s')) :
    ∃ journals, s' = { s with deliveryEvidence := journals } := by
  simp only [recordDeliveryEvidence, ok_iff] at h
  obtain ⟨_, -, -, -, happend⟩ := h
  exact appendDeliveryEvidence_spec happend

-- A transition is a compare-and-set on the state of the attempt.
theorem transitionDelivery_spec {evidence}
    (h : s.transitionDelivery scope deliveryId expected next evidence = .ok (status, s')) :
    ∃ current journals, s.deliveries.get (scope, deliveryId) = some current ∧
      current.state = expected ∧ canTransitionDelivery expected next ∧
      s' = { s with
        deliveryEvidence := journals
        deliveries :=
          s.deliveries.put (scope, deliveryId) { current with state := next } } := by
  simp only [transitionDelivery, validateDeliveryTransition, ok_iff, exists_const, not_not] at h
  obtain ⟨current, hcurrent, rfl, htransition, -, s'', hwritten, -, rfl⟩ := h
  obtain ⟨journals, rfl⟩ := writeTransitionEvidence_spec hwritten
  exact ⟨current, journals, hcurrent, rfl, htransition, rfl⟩

end Deliveries

section Jobs

variable {job : StoreForwardJob}

theorem persistStoreForwardJob_cases (h : s.persistStoreForwardJob job = .ok (status, s')) :
    (status = .duplicate ∧ s' = s) ∨
      (status = .persisted ∧ validateStoreForwardJob job = .ok () ∧ job.attemptsUsed = 0 ∧
        job.lastDeliveryId = none ∧ s.storeForwardTombstones.get job.key = none ∧
        s.storeForwardJobs.get job.key = none ∧ ∃ fingerprint,
        storeForwardJobFingerprint job = .ok fingerprint ∧ s' = { s with
          storeForwardJobs := s.storeForwardJobs.put job.key ⟨job, fingerprint, none⟩ }) := by
  simp only [persistStoreForwardJob, ok_iff, exists_const] at h
  obtain ⟨_, hvalid, hinitial, fingerprint, hfingerprint, -, h⟩ := h
  obtain ⟨hattempts, hlast⟩ := not_or.mp hinitial
  split at h
  case h_1 =>
    simp only [ok_iff] at h
    obtain ⟨-, -, rfl, rfl⟩ := h
    exact .inl ⟨rfl, rfl⟩
  case h_2 hburied =>
    split at h
    case h_1 =>
      simp only [ok_iff] at h
      obtain ⟨-, -, rfl, rfl⟩ := h
      exact .inl ⟨rfl, rfl⟩
    case h_2 hfresh =>
      obtain ⟨rfl, rfl⟩ := return_eq_ok.mp h
      exact .inr ⟨rfl, hvalid, not_not.mp hattempts, by simpa using hlast, hburied, hfresh,
        fingerprint, hfingerprint, rfl⟩

-- A claim gets nothing, or a copy of the job as it is stored.
theorem claimStoreForwardJob_cases
    (h : s.claimStoreForwardJob scope storeForwardId leaseId now until? = .ok (lease?, s')) :
    (lease? = none ∧ s' = s) ∨
      ∃ value, s.storeForwardJobs.get (scope, storeForwardId) = some value ∧
        lease? = some ⟨value.job, leaseId, until?⟩ ∧ s' = { s with
          storeForwardJobs := s.storeForwardJobs.put (scope, storeForwardId)
            { value with lease := some (leaseId, until?) } } := by
  simp only [claimStoreForwardJob] at h
  split at h
  case h_1 =>
    simp only [return_eq_ok] at h
    exact .inl ⟨h.1.symm, h.2.symm⟩
  case h_2 value hvalue =>
    simp only [bind_eq_ok] at h
    obtain ⟨-, -, h⟩ := h
    split at h <;> simp only [return_eq_ok] at h
    case isTrue  => exact .inl ⟨h.1.symm, h.2.symm⟩
    case isFalse => exact .inr ⟨value, hvalue, h.1.symm, h.2.symm⟩

theorem leasedJob_eq_ok :
    s.leasedJob lease now = .ok value ↔
      s.storeForwardJobs.get lease.job.key = some value ∧ requireLease value lease now = .ok () := by
  simp only [leasedJob, ok_iff]
  constructor
  · rintro ⟨_, hget, _, hlease, rfl⟩
    exact ⟨hget, hlease⟩
  · rintro ⟨hget, hlease⟩
    exact ⟨value, hget, (), hlease, rfl⟩

theorem leasedJob_spec (h : s.leasedJob lease now = .ok value) :
    s.storeForwardJobs.get lease.job.key = some value :=
  (leasedJob_eq_ok.mp h).1

theorem checkAttempt_spec {deliveryId}
    (h : s.checkAttempt lease deliveryId attemptsUsed now = .ok value) :
    s.storeForwardJobs.get lease.job.key = some value ∧
      attemptsUsed = value.job.attemptsUsed.saturatingSucc ∧
      attemptsUsed ≤ value.job.policy.maxDeliveryAttempts ∧
      deliveryId = storeForwardDeliveryId value.job.scope value.job.storeForwardId attemptsUsed := by
  simp only [checkAttempt, ok_iff, exists_const, not_or, not_not, not_lt] at h
  obtain ⟨_, hvalue, -, -, ⟨hsucc, hbudget, hid⟩, _, -, -, rfl⟩ := h
  exact ⟨hvalue, hsucc, hbudget, hid⟩

theorem completeStoreForwardJob_spec (h : s.completeStoreForwardJob lease now = .ok (status, s')) :
    ∃ value, s.storeForwardJobs.get lease.job.key = some value ∧ s' = { s with
      storeForwardTombstones := s.storeForwardTombstones.put lease.job.key value.fingerprint
      storeForwardJobs := s.storeForwardJobs.erase lease.job.key } := by
  simp only [completeStoreForwardJob, ok_iff] at h
  obtain ⟨value, hvalue, -, rfl⟩ := h
  exact ⟨value, leasedJob_spec hvalue, rfl⟩

end Jobs

def WritesDeliveries (s s' : MemoryState) : Prop :=
  s' = { s with toDeliveryTables := s'.toDeliveryTables }

theorem WritesDeliveries.commit {ε α : Type} {r : Except ε (α × MemoryState)}
    (success : ∀ a s', r = .ok (a, s') → s.WritesDeliveries s') :
    s.WritesDeliveries (r.commit s).2 :=
  commit_snd_cases rfl success

theorem deliveryOp_writes (op : DeliveryOp) : s.WritesDeliveries (op.run s) := by
  cases op
  case persistCommunicationIntent intent =>
    refine .commit fun _ s' h => ?_
    obtain ⟨_, rfl⟩ := persistCommunicationIntent_spec h
    rfl
  case createDeliveryAttempt =>
    refine .commit fun _ s' h => ?_
    obtain ⟨-, rfl⟩ | ⟨-, -, -, rfl⟩ := createDeliveryAttempt_cases h <;> rfl
  case transitionDelivery =>
    refine .commit fun _ s' h => ?_
    obtain ⟨_, _, -, -, -, rfl⟩ := transitionDelivery_spec h
    rfl
  case recordDeliveryEvidence evidence =>
    refine .commit fun _ s' h => ?_
    obtain ⟨_, rfl⟩ := recordDeliveryEvidence_spec h
    rfl
  case persistStoreForwardJob =>
    refine .commit fun _ s' h => ?_
    obtain ⟨-, rfl⟩ | ⟨-, -, -, -, -, -, _, -, rfl⟩ := persistStoreForwardJob_cases h <;> rfl
  case claimStoreForwardJob =>
    refine .commit fun _ s' h => ?_
    obtain ⟨-, rfl⟩ | ⟨_, -, -, rfl⟩ := claimStoreForwardJob_cases h <;> rfl
  case recordStoreForwardAttempt =>
    simp only [DeliveryOp.run, recordStoreForwardAttempt]
    split <;> rfl
  case rescheduleStoreForwardJob =>
    simp only [DeliveryOp.run, rescheduleStoreForwardJob]
    split <;> rfl
  case completeStoreForwardJob =>
    refine .commit fun _ s' h => ?_
    obtain ⟨_, -, rfl⟩ := completeStoreForwardJob_spec h
    rfl

end MemoryState

section Validity

variable {job : StoreForwardJob}

theorem validateStoreForwardJob_eq_ok :
    validateStoreForwardJob job = .ok () ↔
      validateStoreForwardPolicy job.policy = .ok () ∧
      ¬(job.encryptedEnvelope.isEmpty ∨ job.encryptedEnvelope.length > defaultMaxPayloadLen) ∧
      job.attemptsUsed ≤ job.policy.maxDeliveryAttempts ∧
      (job.attemptsUsed = 0 ↔ job.lastDeliveryId = none) ∧
      ∀ expiry, job.policy.expiresAtUnixMs = some expiry → job.nextAttemptAtUnixMs ≤ expiry := by
  simp only [validateStoreForwardJob, ok_iff, exists_const, not_or, not_and, not_lt,
    Option.any_eq_true, decide_eq_true_eq, not_exists]
  have hlast : (job.attemptsUsed = 0 → ¬job.lastDeliveryId.isSome) ∧
      (job.attemptsUsed > 0 → ¬job.lastDeliveryId.isNone) ↔
      (job.attemptsUsed = 0 ↔ job.lastDeliveryId = none) := by
    have hpos : job.attemptsUsed > 0 ↔ job.attemptsUsed ≠ 0 := Fin.pos_iff_ne_zero
    rw [hpos]
    cases job.lastDeliveryId <;> simp
  rw [hlast]
  constructor
  · rintro ⟨_, hpolicy, henvelope, ⟨hbudget, hlast⟩, hexpiry⟩
    exact ⟨hpolicy, henvelope, hbudget, hlast, hexpiry⟩
  · rintro ⟨hpolicy, henvelope, hbudget, hlast, hexpiry⟩
    exact ⟨(), hpolicy, henvelope, ⟨hbudget, hlast⟩, hexpiry⟩

theorem maxDeliveryAttempts_le (h : validateStoreForwardPolicy policy = .ok ()) :
    policy.maxDeliveryAttempts ≤ maxStoreForwardDeliveryAttempts := by
  simp only [validateStoreForwardPolicy, ok_iff, exists_const, not_or, not_lt] at h
  exact h.1.2

-- An ordinal within the budget does not saturate.
theorem val_saturatingSucc_of_le {n : U16} (hpolicy : validateStoreForwardPolicy policy = .ok ())
    (h : n.saturatingSucc ≤ policy.maxDeliveryAttempts) : n.saturatingSucc.val = n.val + 1 := by
  by_cases hlt : n.val + 1 < 2 ^ 16
  case pos => exact U16.val_saturatingSucc hlt
  case neg =>
    have hbound : n.saturatingSucc.val ≤ 64 := Fin.le_def.mp (h.trans (maxDeliveryAttempts_le hpolicy))
    rw [U16.saturatingSucc, dif_neg hlt] at hbound
    omega

theorem storeForwardNextAttemptAt_le {now next}
    (h : storeForwardNextAttemptAt now policy attempts = .ok next) :
    ∀ expiry, policy.expiresAtUnixMs = some expiry → next ≤ expiry := by
  simp only [storeForwardNextAttemptAt, ok_iff] at h
  obtain ⟨-, -, -, -, rfl⟩ := h
  intro expiry hexpiry
  simp [hexpiry]

end Validity

end Ucr
