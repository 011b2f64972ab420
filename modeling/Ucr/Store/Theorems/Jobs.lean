import Ucr.Store.Theorems.Invariant

-- Failing operations on deliveries and their jobs. Two of them write a job before they check it;
-- for one of the two the check can fail, and then what was written stays.

namespace Ucr

open Except Relation MemoryState

variable {s s' : MemoryState}

namespace DeliveryOp

def Fails (s : MemoryState) : DeliveryOp → Prop
  | .persistCommunicationIntent intent => ∃ e, s.persistCommunicationIntent intent = .error e
  | .createDeliveryAttempt attempt persistedEvidence =>
    ∃ e, s.createDeliveryAttempt attempt persistedEvidence = .error e
  | .transitionDelivery scope deliveryId expectedState nextState evidence =>
    ∃ e, s.transitionDelivery scope deliveryId expectedState nextState evidence = .error e
  | .recordDeliveryEvidence evidence => ∃ e, s.recordDeliveryEvidence evidence = .error e
  | .persistStoreForwardJob job => ∃ e, s.persistStoreForwardJob job = .error e
  | .claimStoreForwardJob scope storeForwardId leaseId nowUnixMs leaseUntilUnixMs =>
    ∃ e, s.claimStoreForwardJob scope storeForwardId leaseId nowUnixMs leaseUntilUnixMs = .error e
  | .recordStoreForwardAttempt lease deliveryId attemptsUsed nowUnixMs =>
    ∃ e, (s.recordStoreForwardAttempt lease deliveryId attemptsUsed nowUnixMs).1 = .error e
  | .rescheduleStoreForwardJob lease nextAttemptAtUnixMs nowUnixMs =>
    ∃ e, (s.rescheduleStoreForwardJob lease nextAttemptAtUnixMs nowUnixMs).1 = .error e
  | .completeStoreForwardJob lease nowUnixMs => ∃ e, s.completeStoreForwardJob lease nowUnixMs = .error e

-- A job that is leased is not put off until after it has expired.
def InTime (s : MemoryState) : DeliveryOp → Prop
  | .rescheduleStoreForwardJob lease nextAttemptAtUnixMs nowUnixMs =>
    ∀ value expiry, s.storeForwardJobs.get lease.job.key = some value →
      requireLease value lease nowUnixMs = .ok () →
      value.job.policy.expiresAtUnixMs = some expiry → nextAttemptAtUnixMs ≤ expiry
  | _ => True

end DeliveryOp

namespace MemoryState

variable {value : MemoryStoreForwardState}

def JobsValid (s : MemoryState) : Prop :=
  ∀ key value, s.storeForwardJobs.get key = some value → validateStoreForwardJob value.job = .ok ()

theorem JobsValid.congr (h : s.JobsValid) (hjobs : s'.storeForwardJobs = s.storeForwardJobs) :
    s'.JobsValid := by
  unfold JobsValid
  rw [hjobs]
  exact h

theorem JobsValid.put (h : s.JobsValid) (hvalue : validateStoreForwardJob value.job = .ok ()) :
    { s with storeForwardJobs := s.storeForwardJobs.put key value }.JobsValid :=
  Table.forall_put h hvalue

theorem writeJob_of_valid (h : validateStoreForwardJob value.job = .ok ()) :
    s.writeJob key value =
      (.ok value.job, { s with storeForwardJobs := s.storeForwardJobs.put key value }) := by
  simp [writeJob, h, Except.map]

theorem JobsValid.erase (h : s.JobsValid) :
    { s with
      storeForwardTombstones := tombstones
      storeForwardJobs := s.storeForwardJobs.erase key }.JobsValid := by
  intro key' value' hget
  rw [Table.get_erase] at hget
  split at hget
  case isTrue  => cases hget
  case isFalse => exact h key' value' hget

-- An attempt within the budget leaves the job valid.
theorem validate_attempt (deliveryId : DeliveryId)
    (hvalue : validateStoreForwardJob value.job = .ok ())
    (hsucc : attemptsUsed = value.job.attemptsUsed.saturatingSucc)
    (hbudget : attemptsUsed ≤ value.job.policy.maxDeliveryAttempts) :
    validateStoreForwardJob { value.job with
      attemptsUsed := attemptsUsed, lastDeliveryId := some deliveryId } = .ok () := by
  obtain ⟨hpolicy, henvelope, -, -, hexpiry⟩ := validateStoreForwardJob_eq_ok.mp hvalue
  have hval := val_saturatingSucc_of_le hpolicy (hsucc ▸ hbudget)
  refine validateStoreForwardJob_eq_ok.mpr ⟨hpolicy, henvelope, hbudget, ?_, hexpiry⟩
  refine iff_of_false (fun hzero : attemptsUsed = 0 => ?_) (by simp)
  rw [← hsucc, hzero] at hval
  simp at hval

theorem validate_reschedule (hvalue : validateStoreForwardJob value.job = .ok ()) :
    validateStoreForwardJob { value.job with nextAttemptAtUnixMs := next } = .ok () ↔
      ∀ expiry, value.job.policy.expiresAtUnixMs = some expiry → next ≤ expiry := by
  obtain ⟨hpolicy, henvelope, hbudget, hlast, -⟩ := validateStoreForwardJob_eq_ok.mp hvalue
  rw [validateStoreForwardJob_eq_ok]
  exact ⟨fun h => h.2.2.2.2, fun h => ⟨hpolicy, henvelope, hbudget, hlast, h⟩⟩

theorem recordStoreForwardAttempt_cases (h : s.JobsValid) :
    (s.recordStoreForwardAttempt lease deliveryId attemptsUsed now).2 = s ∨
      (∃ job, (s.recordStoreForwardAttempt lease deliveryId attemptsUsed now).1 = .ok job) ∧
      (s.recordStoreForwardAttempt lease deliveryId attemptsUsed now).2.JobsValid := by
  unfold recordStoreForwardAttempt
  split
  case h_1 => exact .inl rfl
  case h_2 value hcheck =>
    obtain ⟨hget, hsucc, hbudget, -⟩ := checkAttempt_spec hcheck
    have hvalid := validate_attempt deliveryId (h _ _ hget) hsucc hbudget
    rw [writeJob_of_valid hvalid]
    exact .inr ⟨⟨_, rfl⟩, h.put hvalid⟩

-- The lease is gone and the job is invalid.
theorem reschedule_late (h : s.JobsValid) (hlease : s.leasedJob lease now = .ok value)
    (hexpiry : value.job.policy.expiresAtUnixMs = some expiry) (hlate : expiry < next) :
    (∃ e, (s.rescheduleStoreForwardJob lease next now).1 = .error e) ∧
      (s.rescheduleStoreForwardJob lease next now).2 ≠ s ∧
      ¬(s.rescheduleStoreForwardJob lease next now).2.JobsValid := by
  obtain ⟨hget, hheld⟩ := leasedJob_eq_ok.mp hlease
  have hinvalid :
      ¬validateStoreForwardJob { value.job with nextAttemptAtUnixMs := next } = .ok () := by
    rw [validate_reschedule (h _ _ hget)]
    exact fun hintime => absurd (hintime expiry hexpiry) (not_le.mpr hlate)
  have hwritten : (s.rescheduleStoreForwardJob lease next now).2.storeForwardJobs.get
      lease.job.key = some { value with
        job := { value.job with nextAttemptAtUnixMs := next }, lease := none } := by
    simp only [rescheduleStoreForwardJob, hlease]
    exact Table.get_put_self
  have hvalidity : ¬(s.rescheduleStoreForwardJob lease next now).2.JobsValid :=
    fun hvalid => hinvalid (hvalid _ _ hwritten)
  refine ⟨?_, fun hsame => hvalidity (hsame.symm ▸ h), hvalidity⟩
  simp only [rescheduleStoreForwardJob, hlease, writeJob]
  rcases hresult : validateStoreForwardJob { value.job with nextAttemptAtUnixMs := next } with e | _
  case error => exact ⟨_, rfl⟩
  case ok    => exact absurd hresult hinvalid

theorem reschedule_inTime (h : s.JobsValid)
    (hintime : DeliveryOp.InTime s (.rescheduleStoreForwardJob lease next now)) :
    (s.rescheduleStoreForwardJob lease next now).2 = s ∨
      (∃ job, (s.rescheduleStoreForwardJob lease next now).1 = .ok job) ∧
      (s.rescheduleStoreForwardJob lease next now).2.JobsValid := by
  unfold rescheduleStoreForwardJob
  split
  case h_1 => exact .inl rfl
  case h_2 value hlease =>
    obtain ⟨hget, hheld⟩ := leasedJob_eq_ok.mp hlease
    have hvalid := (validate_reschedule (h _ _ hget)).mpr fun expiry => hintime value expiry hget hheld
    rw [writeJob_of_valid hvalid]
    exact .inr ⟨⟨_, rfl⟩, h.put hvalid⟩

end MemoryState

namespace DeliveryOp

open MemoryState

-- An operation that is in time does nothing, or it succeeds and the jobs stay valid.
def Safe (s : MemoryState) (op : DeliveryOp) : Prop :=
  op.run s = s ∨ ¬op.Fails s ∧ (op.run s).JobsValid

theorem committed {α : Type} {r : StoreResult (α × MemoryState)}
    (h : ∀ a s', r = .ok (a, s') → s'.JobsValid) :
    (r.commit s).2 = s ∨ ¬(∃ e, r = .error e) ∧ (r.commit s).2.JobsValid := by
  rcases r with e | ⟨a, s'⟩
  case error => exact .inl rfl
  case ok    => exact .inr ⟨by simp, h a s' rfl⟩

variable (h : s.JobsValid)
include h

theorem safe_of_inTime {op : DeliveryOp} (hintime : op.InTime s) :
    op.Safe s := by
  cases op
  case persistCommunicationIntent =>
    refine committed fun _ _ hr => ?_
    obtain ⟨_, rfl⟩ := persistCommunicationIntent_spec hr
    exact h.congr rfl
  case createDeliveryAttempt =>
    refine committed fun _ _ hr => ?_
    obtain ⟨-, rfl⟩ | ⟨-, -, -, rfl⟩ := createDeliveryAttempt_cases hr <;> exact h.congr rfl
  case transitionDelivery =>
    refine committed fun _ _ hr => ?_
    obtain ⟨_, _, -, -, -, rfl⟩ := transitionDelivery_spec hr
    exact h.congr rfl
  case recordDeliveryEvidence =>
    refine committed fun _ _ hr => ?_
    obtain ⟨_, rfl⟩ := recordDeliveryEvidence_spec hr
    exact h.congr rfl
  case persistStoreForwardJob =>
    refine committed fun _ _ hr => ?_
    obtain ⟨-, rfl⟩ | ⟨-, hvalid, -, -, -, -, _, -, rfl⟩ := persistStoreForwardJob_cases hr
    · exact h
    · exact h.put hvalid
  case claimStoreForwardJob =>
    refine committed fun _ _ hr => ?_
    obtain ⟨-, rfl⟩ | ⟨value, hget, -, rfl⟩ := claimStoreForwardJob_cases hr
    · exact h
    · exact h.put (h _ value hget)
  case recordStoreForwardAttempt =>
    obtain hsame | ⟨⟨job, hok⟩, hvalid⟩ := recordStoreForwardAttempt_cases h
    · exact .inl hsame
    · exact .inr ⟨by simp [Fails, hok], hvalid⟩
  case rescheduleStoreForwardJob =>
    obtain hsame | ⟨⟨job, hok⟩, hvalid⟩ := reschedule_inTime h hintime
    · exact .inl hsame
    · exact .inr ⟨by simp [Fails, hok], hvalid⟩
  case completeStoreForwardJob =>
    refine committed fun _ _ hr => ?_
    obtain ⟨_, -, rfl⟩ := completeStoreForwardJob_spec hr
    exact h.erase

-- An operation that is late fails, and what it has written is invalid.
theorem late_of_not_inTime {op : DeliveryOp} (hlate : ¬op.InTime s) :
    op.Fails s ∧ op.run s ≠ s ∧ ¬(op.run s).JobsValid := by
  cases op
  case rescheduleStoreForwardJob lease next now =>
    simp only [InTime, not_forall, not_le] at hlate
    obtain ⟨value, expiry, hget, hheld, hexpiry, hlate⟩ := hlate
    exact reschedule_late h (leasedJob_eq_ok.mpr ⟨hget, hheld⟩) hexpiry hlate
  all_goals exact absurd trivial hlate

theorem inTime_iff_failures_change_nothing (op : DeliveryOp) :
    (op.Fails s → op.run s = s) ↔ op.InTime s := by
  constructor
  · intro hatomic
    by_contra hlate
    obtain ⟨hfails, hchanged, -⟩ := late_of_not_inTime h hlate
    exact hchanged (hatomic hfails)
  · intro hintime hfails
    exact (safe_of_inTime h hintime).resolve_right fun hsafe => hsafe.1 hfails

theorem inTime_iff_jobsValid (op : DeliveryOp) :
    (op.run s).JobsValid ↔ op.InTime s := by
  constructor
  · intro hvalid
    by_contra hlate
    exact (late_of_not_inTime h hlate).2.2 hvalid
  · intro hintime
    obtain hsame | ⟨-, hvalid⟩ := safe_of_inTime h hintime
    · exact hsame.symm ▸ h
    · exact hvalid

end DeliveryOp

def StoreOp.InTime (s : MemoryState) : StoreOp → Prop
  | .delivery op => op.InTime s
  | _ => True

-- Only the operations on deliveries write jobs.
theorem MemoryState.JobsValid.run (hs : s.Keyed) (h : s.JobsValid) {op : StoreOp}
    (hintime : op.InTime s) : (op.run s).JobsValid := by
  by_cases harea : op.area = some .deliveries
  case pos =>
    cases op <;> simp only [StoreOp.area, reduceCtorEq, Option.some.injEq] at harea
    case delivery op => exact (DeliveryOp.inTime_iff_jobsValid h op).mpr hintime
  case neg =>
    refine h.congr ?_
    rw [(run_keeps hs op).deliveries harea]

theorem failed_deliveries_change_nothing (hrun : StoreRunWhere (fun s op => op.InTime s) .empty s) :
    s.JobsValid ∧ ∀ op : DeliveryOp,
      ((op.Fails s → op.run s = s) ↔ op.InTime s) ∧ ((op.run s).JobsValid ↔ op.InTime s) := by
  have hvalid : s.JobsValid :=
    hrun.induction .refl (by simp [JobsValid, empty]) fun _ _ ht hintime ih =>
      ih.run ht.attainable.keyed hintime
  exact ⟨hvalid, fun op => ⟨op.inTime_iff_failures_change_nothing hvalid,
    op.inTime_iff_jobsValid hvalid⟩⟩

namespace Scenario

def postcard : MessageEnvelope :=
  aliceTells (named "postcard") ⟨named "postcards", .direct⟩

-- A job that expires at 100.
def postcardJob : StoreForwardJob where
  storeForwardId := named "postcard-job"
  scope := tenant
  intentId := named "send-postcard"
  messageId := postcard.messageId
  encryptedEnvelope := [1]
  policy := ⟨3, 1000, 1000, 5000, some 100⟩
  attemptsUsed := 0
  nextAttemptAtUnixMs := 0
  lastDeliveryId := none

def postcardLease : StoreForwardLease :=
  ⟨postcardJob, named "postcard-lease", 50⟩

def claimsPostcard : List StoreOp :=
  [.persistConversation ⟨tenant, postcard.conversation, none⟩,
    .persistMessage postcard,
    .delivery (.persistCommunicationIntent ⟨postcardJob.intentId, tenant⟩),
    .delivery (.persistStoreForwardJob postcardJob),
    .delivery (.claimStoreForwardJob tenant postcardJob.storeForwardId postcardLease.leaseId 0 50)]

def claimedPostcard : MemoryState :=
  empty.runAll claimsPostcard

def postcardWaits (next : ℤ) : DeliveryOp :=
  .rescheduleStoreForwardJob postcardLease next 10

theorem claimsPostcard_inTime :
    StoreRunWhere (fun s op => op.InTime s) .empty claimedPostcard :=
  RunsWhere.storeRunWhere ⟨trivial, trivial, trivial, trivial, trivial, trivial⟩

theorem claimedPostcard_get :
    (claimedPostcard.storeForwardJobs.get postcardJob.key).map (fun value => (value.job, value.lease)) =
      some (postcardJob, some (postcardLease.leaseId, postcardLease.leaseUntilUnixMs)) := by
  decide +kernel

end Scenario

open Scenario

theorem postcard_is_sent_in_time :
    (postcardWaits 90).InTime claimedPostcard ∧
      ((postcardWaits 90).run claimedPostcard).JobsValid := by
  have hintime : (postcardWaits 90).InTime claimedPostcard := by
    intro value expiry hget hheld hexpiry
    have hclaimed := claimedPostcard_get
    have hkey : postcardLease.job.key = postcardJob.key := rfl
    rw [← hkey, hget, Option.map_some, Option.some.injEq, Prod.mk.injEq] at hclaimed
    rw [hclaimed.1] at hexpiry
    obtain rfl : (100 : ℤ) = expiry := Option.some.inj hexpiry
    decide
  exact ⟨hintime, ((failed_deliveries_change_nothing claimsPostcard_inTime).2 _).2.mpr hintime⟩

-- The job is put off to 200: an error, and yet an invalid job is stored.
theorem postcard_is_spoiled :
    claimedPostcard.Reachable ∧
      (claimedPostcard.rescheduleStoreForwardJob postcardLease 200 10).1 = .error .invalidRecord ∧
      claimedPostcard.storeForwardJob tenant postcardJob.storeForwardId = some postcardJob ∧
      ((postcardWaits 200).run claimedPostcard).storeForwardJob tenant postcardJob.storeForwardId =
        some { postcardJob with nextAttemptAtUnixMs := 200 } ∧
      validateStoreForwardJob { postcardJob with nextAttemptAtUnixMs := 200 } ≠ .ok () := by
  refine ⟨storeRun_runAll _ _, ?_, ?_, ?_, ?_⟩ <;> decide +kernel

end Ucr
