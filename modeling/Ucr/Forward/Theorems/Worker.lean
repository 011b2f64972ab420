import Ucr.Forward.Theorems.Books
import Ucr.Transport.Theorems.Failover

-- What the parts of a worker know and do, whatever the other workers do in between.

namespace Ucr

open Interleaving Except Persistent MemoryState

variable {cautious : Prop} {allows : MemoryState → ForwardEvent → Prop} {w : ℕ}
  {pre M : History ForwardEvent → Prop} {α : Type} {post : α → History ForwardEvent → Prop}
  {job : StoreForwardJob} {lease : StoreForwardLease} {attempt : DeliveryAttempt}

-- In a cautious run attempts are only counted after the one before has failed.
def Guarded (cautious : Prop) (allows : MemoryState → ForwardEvent → Prop) : Prop :=
  cautious → ∀ s key ordinal, allows s (.recorded key ordinal) → s.lastAttemptFailed key

-- The worker has not invoked a provider, and knows `M` besides.
def Unsent (w : ℕ) (M : History ForwardEvent → Prop) : History ForwardEvent → Prop :=
  Only w ForwardEvent.Quiet ⊓ M

theorem stable_unsent [Persistent M] : Stable w (Unsent w M) :=
  stable_only.and stable

abbrev Worker.Triple (cautious : Prop) (allows : MemoryState → ForwardEvent → Prop) (w : ℕ)
    (pre : History ForwardEvent → Prop) (p : Worker α)
    (post : α → History ForwardEvent → Prop) : Prop :=
  Fallible.Triple (Books cautious) allows w pre p post

section Steps

theorem read_triple {f : MemoryState → α} (hpre : Stable w pre)
    (h : ∀ s history, Books cautious ⟨s, history⟩ → pre history → post (f s) history) :
    Worker.Triple cautious allows w pre (Worker.read f) post := by
  refine .atomic hpre fun c i r s hb hpre' heq _ => ?_
  obtain ⟨rfl, rfl⟩ := Prod.mk.inj heq
  rw [Shared.advance_none]
  exact ⟨hb, h _ _ hb hpre'⟩

theorem check_triple : Worker.Triple cautious allows w pre (Fallible.ofExcept x) fun _ => pre :=
  .ofExcept fun _ _ _ h => h

theorem update_triple {f : MemoryState → StoreResult α × MemoryState}
    {event : α → Option ForwardEvent} (hpre : Stable w pre)
    (hok : ∀ s history a s', Books cautious ⟨s, history⟩ → pre history → f s = (.ok a, s') →
      (∀ e, event a = some e → allows s e) →
      Books cautious (Shared.advance ⟨s, history⟩ w s' (event a)) ∧
        post a (Shared.advance ⟨s, history⟩ w s' (event a)).history)
    (herror : ∀ s history e s', Books cautious ⟨s, history⟩ → pre history → f s = (.error e, s') →
      Books cautious ⟨s', history⟩) :
    Worker.Triple cautious allows w pre (Worker.update f event) post := by
  refine .atomic hpre fun ⟨s, history⟩ i r s' hb hpre' heq hallowed => ?_
  obtain ⟨rfl, rfl⟩ := Prod.mk.inj heq
  cases hf : (f s).1
  case error e =>
    simp only [mapError_error, Shared.advance_none]
    exact ⟨herror s history e _ hb hpre' (Prod.ext hf rfl), trivial⟩
  case ok a =>
    simp only [hf, mapError_ok] at hallowed ⊢
    exact hok s history a _ hb hpre' (Prod.ext hf rfl) hallowed

-- An operation of the store that leaves things alone when it fails.
theorem commit_triple {g : MemoryState → StoreResult (α × MemoryState)}
    {event : α → Option ForwardEvent} (hpre : Stable w pre)
    (h : ∀ s history a s', Books cautious ⟨s, history⟩ → pre history → g s = .ok (a, s') →
      Books cautious (Shared.advance ⟨s, history⟩ w s' (event a)) ∧
        post a (Shared.advance ⟨s, history⟩ w s' (event a)).history) :
    Worker.Triple cautious allows w pre (Worker.update (fun s => (g s).commit s) event) post := by
  refine update_triple hpre (fun s history a s' hb hpre' heq _ => ?_)
    fun s history e s' hb _ heq => ?_ <;> cases hg : g s <;>
    simp only [hg, commit, Prod.mk.injEq, Except.ok.injEq, reduceCtorEq, false_and] at heq
  case refine_1.ok result =>
    obtain ⟨rfl, rfl⟩ := heq
    exact h s history _ _ hb hpre' hg
  case refine_2.error =>
    obtain ⟨-, rfl⟩ := heq
    exact hb

end Steps

section Moves

variable [Persistent M]

theorem transition_advance (hflight : before.preFlight) (hafter : after ≠ .inFlight) :
    Worker.Triple cautious allows w (Unsent w M) (transitionDelivery attempt before after evidence)
      fun _ => Unsent w M := by
  refine .bind (Q := fun _ => Unsent w M) (commit_triple stable_unsent ?_) fun _ =>
    .pure fun _ h => h
  intro s history status s' hb ⟨hown, hM⟩ heq
  obtain ⟨current, journals, hcurrent, hstate, hlegal, rfl⟩ :=
    transitionDelivery_spec heq
  have hne : before ≠ .inFlight := by rintro rfl; simp [DeliveryState.preFlight] at hflight
  refine ⟨hb.transition hcurrent hstate hlegal rfl rfl rfl ?_, hown.append hne,
    append _ _ hM⟩
  exact hb.deliveries.advance hcurrent hstate rfl hflight hafter

theorem transition_start :
    Worker.Triple cautious allows w (Unsent w M)
      (transitionDelivery attempt .routePlanned .inFlight none)
      fun _ => Unsent w (M ⊓ fun h => (w, started attempt.key) ∈ h) := by
  refine .bind (commit_triple stable_unsent ?_) fun _ => .pure fun _ h => h
  intro s history status s' hb ⟨hown, hM⟩ heq
  obtain ⟨current, journals, hcurrent, hstate, hlegal, rfl⟩ :=
    transitionDelivery_spec heq
  refine ⟨hb.transition hcurrent hstate hlegal rfl rfl rfl ?_, hown.append ?_,
    append _ _ hM, mem_append_iff.mpr (.inr ⟨rfl, rfl⟩)⟩
  · exact hb.deliveries.start hcurrent hstate rfl
  · simp [ForwardEvent.Quiet]

theorem transition_settle (hown : ∀ h, M h → (w, started attempt.key) ∈ h)
    (hafter : ¬after.preFlight) :
    Worker.Triple cautious allows w M (transitionDelivery attempt .inFlight after evidence)
      fun _ => M := by
  refine .bind (Q := fun _ => M) (commit_triple stable ?_) fun _ =>
    .pure fun _ h => h
  intro s history status s' hb hM heq
  obtain ⟨current, journals, hcurrent, hstate, hlegal, rfl⟩ :=
    transitionDelivery_spec heq
  refine ⟨hb.transition hcurrent hstate hlegal rfl rfl rfl ?_, append _ _ hM⟩
  exact hb.deliveries.settle hcurrent hstate (hown _ hM) hafter rfl

theorem complete_triple (hpre : Stable w pre) :
    Worker.Triple cautious allows w pre (completeStoreForwardJob lease now) fun _ => pre := by
  refine .bind (Q := fun _ => pre) (commit_triple hpre ?_) fun _ => .pure fun _ h => h
  intro s history status s' hb hpre' heq
  obtain ⟨value, hvalue, rfl⟩ := completeStoreForwardJob_spec heq
  rw [Shared.advance_none]
  exact ⟨hb.of_jobs (hb.jobs.complete rfl rfl) rfl, hpre'⟩

-- The next attempt is never scheduled behind the expiry of the job, so the job stays valid.
theorem reschedule_books (hb : Books cautious ⟨s, history⟩) (hknown : Known job history)
    (hkey : lease.job.key = job.key)
    (hnext : ∀ expiry, job.policy.expiresAtUnixMs = some expiry → next ≤ expiry) :
    Books cautious ⟨(s.rescheduleStoreForwardJob lease next now).2, history⟩ := by
  unfold MemoryState.rescheduleStoreForwardJob
  cases hleased : s.leasedJob lease now
  case error => exact hb
  case ok value =>
    obtain ⟨hvalue, hstored⟩ := hb.jobs.jobs _ value (leasedJob_spec hleased)
    have hpolicy := hb.jobs.same_policy hstored hknown (hvalue.trans hkey)
    obtain ⟨hvalid, henvelope, hbudget, hlast, -⟩ := validateStoreForwardJob_eq_ok.mp hstored.valid
    have hmoved : Known { value.job with nextAttemptAtUnixMs := next } history := by
      refine ⟨hstored.origin, validateStoreForwardJob_eq_ok.mpr ⟨hvalid, henvelope, hbudget, hlast,
        ?_⟩, hstored.last⟩
      rw [hpolicy]
      exact hnext
    refine hb.of_jobs (hb.jobs.rewrite ?_ ?_ rfl rfl) rfl
    · exact hvalue
    · exact hmoved

theorem reschedule_triple (hknown : ∀ h, M h → Known job h) (hkey : lease.job.key = job.key)
    (hnext : ∀ expiry, job.policy.expiresAtUnixMs = some expiry → next ≤ expiry) :
    Worker.Triple cautious allows w M (rescheduleStoreForwardJob lease next now)
      fun _ _ => True := by
  have hkept : ∀ s history r s', Books cautious ⟨s, history⟩ → M history →
      s.rescheduleStoreForwardJob lease next now = (r, s') → Books cautious ⟨s', history⟩ := by
    intro s history r s' hb hM heq
    obtain rfl : (s.rescheduleStoreForwardJob lease next now).2 = s' := congrArg Prod.snd heq
    exact reschedule_books hb (hknown _ hM) hkey hnext
  refine .bind (Q := fun _ _ => True) (update_triple stable
    (fun s history a s' hb hM heq _ => ⟨?_, trivial⟩) fun s history e => hkept s history (.error e))
    fun _ => .pure fun _ h => h
  rw [Shared.advance_none]
  exact hkept s history (.ok a) s' hb hM heq

end Moves

variable {last : Option DeliveryAttempt}

section Parts

variable [Persistent M]

-- The attempt at hand is the one the job referred to when it was read.
def LastOf (job : StoreForwardJob) (last : Option DeliveryAttempt) : Prop :=
  ∀ attempt, last = some attempt →
    attempt.scope = job.scope ∧ job.lastDeliveryId = some attempt.deliveryId

-- The lease is for this job, whatever it has done since it was read.
def LeaseOf (job : StoreForwardJob) (lease : StoreForwardLease) : Prop :=
  lease.job.key = job.key ∧ lease.job.policy = job.policy

theorem loadJobOwners_triple (hpre : Stable w pre) :
    Worker.Triple cautious allows w pre (loadJobOwners job) fun _ => pre := by
  have hread : ∀ {β : Type} (f : MemoryState → β),
      Worker.Triple cautious allows w pre (Worker.read f) fun _ => pre :=
    fun f => read_triple hpre fun _ _ _ h => h
  exact .bind (hread _) fun _ => .bind check_triple fun _ => .bind (hread _) fun _ =>
    .bind check_triple fun _ => .bind check_triple fun _ => .pure fun _ h => h

theorem persistStoreForwardJob_triple :
    Worker.Triple cautious allows w ⊤ (persistStoreForwardJob job) fun _ _ => True := by
  refine commit_triple stable fun s history status s' hb _ heq => ⟨?_, trivial⟩
  obtain ⟨rfl, rfl⟩ | ⟨rfl, hvalid, -, hlast, hburied, hfresh, fingerprint, -, rfl⟩ :=
    persistStoreForwardJob_cases heq
  · rw [Shared.advance_none]
    exact hb
  · exact hb.enqueue hvalid hlast hburied hfresh

theorem enqueueCanonicalJob_triple :
    Worker.Triple cautious allows w ⊤ (enqueueCanonicalJob job) fun _ _ => True :=
  .bind check_triple fun _ => .bind check_triple fun _ =>
    .bind (loadJobOwners_triple stable) fun _ => .bind check_triple fun _ =>
    persistStoreForwardJob_triple

theorem loadCanonicalJob_triple :
    Worker.Triple cautious allows w (Unsent w ⊤) (loadCanonicalJob scope storeForwardId)
      fun job? h => ∀ job, job? = some job → Unsent w (Known job) h := by
  refine .bind (Q := fun job? h => ∀ job, job? = some job → Unsent w (Known job) h)
    (read_triple stable_unsent ?_) fun job? => ?_
  · intro s history hb hown job hjob
    obtain ⟨value, hvalue, rfl⟩ := Option.map_eq_some_iff.mp hjob
    exact ⟨hown.1, (hb.jobs.jobs _ value hvalue).2⟩
  · cases job?
    case none => exact .pure fun _ h => h
    case some job =>
      refine .bind (Q := fun _ => Unsent w (Known job)) (.ofExcept fun _ _ _ h => h job rfl)
        fun _ => .pure fun _ h job' heq => ?_
      exact Option.some.inj heq ▸ h

-- A worker that finds the last attempt under way has left a trace of it. Otherwise it is as before.
theorem lastAttempt_triple :
    Worker.Triple cautious allows w (Unsent w (Known job)) (lastAttempt job)
      fun last h => last.any (·.state = .inFlight) ∨ LastOf job last ∧ Unsent w (Known job) h := by
  unfold lastAttempt
  split
  case h_1 hnone => exact .pure fun _ h => .inr ⟨by simp [LastOf], h⟩
  case h_2 deliveryId hlast =>
    refine .bind (Q := fun attempt h => attempt.state = .inFlight ∨
        LastOf job (some attempt) ∧ Unsent w (Known job) h)
      (update_triple stable_unsent ?_ ?_) fun attempt => .pure fun _ h => by simpa using h
    · intro s history attempt s' hb hown heq _
      obtain ⟨hget, rfl⟩ := Prod.mk.inj heq
      rw [Option.okOr_eq_ok] at hget
      have hkey := hb.deliveries.keyed _ attempt hget
      unfold foundInFlight
      split
      case isTrue hflight => exact ⟨hb.find hown.1, .inl hflight⟩
      case isFalse =>
        rw [Shared.advance_none]
        obtain ⟨hscope, hid⟩ := Prod.mk.inj hkey
        refine ⟨hb, .inr ⟨fun attempt' heq => ?_, hown⟩⟩
        obtain rfl := Option.some.inj heq
        exact ⟨hscope, hid ▸ hlast⟩
    · intro s history e s' hb _ heq
      obtain ⟨-, rfl⟩ := Prod.mk.inj heq
      exact hb

theorem claim_triple (hknown : ∀ h, M h → Known job h) :
    Worker.Triple cautious allows w (Unsent w M) (claim job now)
      fun lease? h => (∀ lease, lease? = some lease → LeaseOf job lease) ∧ Unsent w M h := by
  refine .bind (.ask stable_unsent) fun _ =>
    .bind check_triple fun leaseId => .bind check_triple fun _ =>
    commit_triple stable_unsent fun s history lease? s' hb hown heq => ?_
  rw [Shared.advance_none]
  obtain ⟨rfl, rfl⟩ | ⟨value, hvalue, rfl, rfl⟩ := claimStoreForwardJob_cases heq
  · exact ⟨hb, by simp, hown⟩
  · obtain ⟨hkey, hstored⟩ := hb.jobs.jobs _ value hvalue
    refine ⟨hb.of_jobs (hb.jobs.rewrite ?_ ?_ rfl rfl) rfl, fun lease hlease => ?_, hown⟩
    · exact hkey
    · exact hstored
    · obtain rfl := Option.some.inj hlease
      exact ⟨hkey, hb.jobs.same_policy hstored (hknown _ hown.2) hkey⟩

theorem finishExisting_triple (hknown : ∀ h, M h → Known job h) :
    Worker.Triple cautious allows w (Unsent w M) (finishExisting job now outcome)
      fun _ => Unsent w M := by
  unfold finishExisting
  split
  case isTrue => exact .pure fun _ h => h
  case isFalse =>
    refine .bind (claim_triple hknown) fun lease? => ?_
    cases lease?
    case none => exact .pure fun _ h => h.2
    case some lease =>
      exact .bind ((complete_triple stable_unsent).strengthen fun _ h => h.2) fun _ =>
        .pure fun _ h => h

-- The states of an attempt that expires while nobody has sent it off.
theorem expireAttempt_triple (hstate : ∀ attempt, last = some attempt → attempt.state ≠ .inFlight ∧
      attempt.state ≠ .acknowledged ∧ attempt.state ≠ .delivered ∧ attempt.state ≠ .read) :
    Worker.Triple cautious allows w (Unsent w M) (expireAttempt last) fun _ => Unsent w M := by
  unfold expireAttempt
  split
  case h_1 => exact .pure fun _ h => h
  case h_2 attempt =>
    split
    case isTrue => exact .pure fun _ h => h
    case isFalse hopen =>
      obtain ⟨hflight, hack, hdelivered, hread⟩ := hstate attempt rfl
      refine transition_advance ?_ (by simp)
      cases heq : attempt.state <;> simp_all [DeliveryState.preFlight, isTerminalDeliveryState]

theorem expireExisting_triple (hstate : ∀ attempt, last = some attempt → attempt.state ≠ .inFlight ∧
      attempt.state ≠ .acknowledged ∧ attempt.state ≠ .delivered ∧ attempt.state ≠ .read) :
    Worker.Triple cautious allows w (Unsent w (Known job)) (expireExisting job last now)
      fun _ _ => True := by
  refine .bind (claim_triple fun _ h => h) fun lease? => ?_
  cases lease?
  case none => exact .pure fun _ _ => trivial
  case some lease =>
    exact .bind ((expireAttempt_triple hstate).strengthen fun _ h => h.2) fun _ =>
      .bind (complete_triple stable_unsent) fun _ => .pure fun _ _ => trivial

-- An attempt that has been sent off, or has come further, is nobody's to expire.
theorem resolveExistingState_triple :
    Worker.Triple cautious allows w
      (fun h => last.any (·.state = .inFlight) ∨ LastOf job last ∧ Unsent w (Known job) h)
      (resolveExistingState job last now)
      fun outcome h => outcome = none → LastOf job last ∧ Unsent w (Known job) h := by
  unfold resolveExistingState
  split
  case isTrue => exact .pure fun _ _ hnone => by simp at hnone
  case isFalse hflight =>
    refine .strengthen (.given fun hlast => ?_) fun _ h => h.resolve_left hflight
    have hdone : ∀ {p : Worker StoreForwardOutcome},
        Worker.Triple cautious allows w (Unsent w (Known job)) p (fun _ _ => True) →
        Worker.Triple cautious allows w (Unsent w (Known job)) (do return some (← p))
          fun outcome h => outcome = none → LastOf job last ∧ Unsent w (Known job) h :=
      fun hp => .bind hp fun _ => .pure fun _ _ hnone => by simp at hnone
    have hfinish : ∀ outcome, Worker.Triple cautious allows w (Unsent w (Known job))
        (finishExisting job now outcome) fun _ _ => True :=
      fun outcome => (finishExisting_triple fun _ h => h).weaken fun _ _ _ => trivial
    split
    case isTrue => exact hdone (hfinish _)
    case isFalse haccepted =>
      split
      case isTrue =>
        refine hdone (expireExisting_triple fun attempt heq => ?_)
        subst heq
        simpa [and_assoc] using And.intro hflight haccepted
      case isFalse =>
        split
        case isTrue => exact hdone (hfinish _)
        case isFalse =>
          split
          case isTrue => exact hdone (hfinish _)
          case isFalse => exact .pure fun _ h _ => ⟨hlast, h⟩

end Parts

section Sending

-- What a worker has in hand once an attempt is sent off.
def InHand (w : ℕ) (job : StoreForwardJob) (attempt : DeliveryAttempt) :
    History ForwardEvent → Prop :=
  Known job ⊓ AttemptOf job attempt.deliveryId ⊓ fun h => (w, started attempt.key) ∈ h

instance : Persistent (InHand w job attempt) :=
  inferInstanceAs (Persistent (_ ⊓ _))

-- What is written when an attempt is counted is always valid.
theorem record_cases (hb : Books cautious ⟨s, history⟩)
    (heq : s.recordStoreForwardAttempt lease deliveryId ordinal now = (r, s')) :
    (∃ e, r = .error e ∧ s' = s) ∨
      ∃ stored, r = .ok stored ∧ ((cautious → s.lastAttemptFailed lease.job.key) →
        Books cautious ⟨s', history ++ [(w, .recorded lease.job.key ordinal)]⟩) := by
  unfold MemoryState.recordStoreForwardAttempt at heq
  cases hchecked : s.checkAttempt lease deliveryId ordinal now
  case error e =>
    rw [hchecked] at heq
    obtain ⟨rfl, rfl⟩ := Prod.mk.inj heq
    exact .inl ⟨e, rfl, rfl⟩
  case ok value =>
    obtain ⟨hget, hsucc, hbudget, rfl⟩ := checkAttempt_spec hchecked
    have hb' : Books False ⟨s, history⟩ := ⟨hb.jobs, hb.deliveries, hb.invocations, False.elim⟩
    obtain ⟨hvalid, -⟩ := hb'.record (w := w) hget hsucc hbudget False.elim
    rw [StoreForwardJob.counted] at hvalid
    simp only [hchecked, MemoryState.writeJob, hvalid] at heq
    obtain ⟨rfl, rfl⟩ := Prod.mk.inj heq
    exact .inr ⟨_, rfl, fun hlast => (hb.record hget hsucc hbudget hlast).2⟩

theorem createRetryAttempt_triple (hguard : Guarded cautious allows) (hlease : LeaseOf job lease) :
    Worker.Triple cautious allows w (Unsent w (Known job)) (createRetryAttempt lease)
      fun result h => result.1.scope = job.scope ∧
        Unsent w (Known job ⊓ AttemptOf job result.1.deliveryId) h := by
  obtain ⟨hkey, hpolicy⟩ := hlease
  obtain ⟨hscope, hid⟩ := Prod.mk.inj hkey
  refine .bind (Q := fun _ h => ¬(lease.job.attemptsUsed.saturatingSucc = 0 ∨
      lease.job.attemptsUsed.saturatingSucc > lease.job.policy.maxDeliveryAttempts) ∧
      Unsent w (Known job) h) (.ofExcept ?_) fun _ => .given fun hordinal =>
    .bind (Q := fun _ => Unsent w (Known job)) (commit_triple stable_unsent ?_) fun _ =>
    .bind (.ask stable_unsent) fun now =>
    .bind (Q := fun _ => Unsent w (Known job ⊓ AttemptOf job (storeForwardDeliveryId
      lease.job.scope lease.job.storeForwardId lease.job.attemptsUsed.saturatingSucc)))
      (update_triple stable_unsent ?_ ?_) fun _ => .pure fun _ h => ⟨hscope, h⟩
  · intro _ _ hchecked hown
    simp only [ok_iff] at hchecked
    exact ⟨hchecked, hown⟩
  · intro s history status s' hb hown heq
    rw [Shared.advance_none]
    obtain ⟨-, rfl⟩ | ⟨-, hfresh, -, rfl⟩ := createDeliveryAttempt_cases heq
    · exact ⟨hb, hown⟩
    · exact ⟨hb.create hfresh rfl rfl rfl, hown⟩
  · intro s history stored s' hb hown heq hallowed
    obtain ⟨e, hr, -⟩ | ⟨_, -, hbooks⟩ := record_cases (w := w) hb heq
    · simp at hr
    · refine ⟨hbooks fun hc => hguard hc s _ _ (hallowed _ rfl), hown.1.append trivial,
        append _ _ hown.2, _, fun hzero => hordinal (.inl hzero), ?_, ?_, ?_⟩
      · exact hpolicy ▸ not_lt.mp fun hlt => hordinal (.inr hlt)
      · rw [hscope, hid]
      · exact seen_append_iff.mpr (.inr (by rw [hkey]))
  · intro s history e s' hb hown heq
    obtain ⟨_, -, rfl⟩ | ⟨_, hr, -⟩ := record_cases (w := w) hb heq
    · exact hb
    · simp at hr

theorem advanceFrom_triple [Persistent M] (hflight : before.preFlight)
    (hafter : after ≠ .inFlight) :
    Worker.Triple cautious allows w (Unsent w M) (advanceFrom before after attempt)
      fun result h => result.key = attempt.key ∧ Unsent w M h := by
  unfold advanceFrom
  split
  case isTrue => exact .bind (transition_advance hflight hafter) fun _ => .pure fun _ h => ⟨rfl, h⟩
  case isFalse => exact .pure fun _ h => ⟨rfl, h⟩

theorem normalizePreRouteAttempt_triple [Persistent M] :
    Worker.Triple cautious allows w (Unsent w M) (normalizePreRouteAttempt attempt)
      fun result h => result.key = attempt.key ∧ Unsent w M h := by
  refine .bind (advanceFrom_triple rfl (by simp)) fun first => .given fun hfirst =>
    .bind (advanceFrom_triple rfl (by simp)) fun second => .given fun hsecond =>
    .bind check_triple fun _ => .pure fun _ h => ⟨?_, h⟩
  rw [hsecond, hfirst]

theorem chooseAttempt_triple (hguard : Guarded cautious allows)
    (hlast : LastOf job last) (hlease : LeaseOf job lease) :
    Worker.Triple cautious allows w (Unsent w (Known job)) (chooseAttempt job lease last)
      fun result h => result.1.scope = job.scope ∧
        Unsent w (Known job ⊓ AttemptOf job result.1.deliveryId) h := by
  unfold chooseAttempt
  split
  case h_1 attempt =>
    split
    case isTrue =>
      obtain ⟨hscope, hid⟩ := hlast attempt rfl
      exact .pure fun _ h => ⟨hscope, h.1, h.2, h.2.attemptOf_last hid⟩
    case isFalse => exact createRetryAttempt_triple hguard hlease
  case h_2 => exact createRetryAttempt_triple hguard hlease

theorem prepareAttempt_triple (hguard : Guarded cautious allows)
    (hlast : LastOf job last) (hlease : LeaseOf job lease) :
    Worker.Triple cautious allows w (Unsent w (Known job)) (prepareAttempt job lease last)
      fun prepared h => prepared.attempt.scope = job.scope ∧
        Unsent w (InHand w job prepared.attempt) h := by
  refine .bind (chooseAttempt_triple hguard hlast hlease) fun chosen => .given fun hscope =>
    .bind normalizePreRouteAttempt_triple fun normal => .given fun hnormal =>
    .bind (advanceFrom_triple rfl (by simp)) fun planned => .given fun hplanned =>
    .bind transition_start fun _ => .pure fun _ h => ?_
  obtain ⟨hscope', hid⟩ := Prod.mk.inj (hplanned.trans hnormal)
  obtain ⟨hown, ⟨hknown, hattempt⟩, hstart⟩ := h
  exact ⟨hscope'.trans hscope, hown, ⟨hknown, hid ▸ hattempt⟩, hstart⟩

section Failover

open Calling TransportOrchestrator

variable {policy : TransportFailoverPolicy}

-- As long as something is left of the budget, the worker has not invoked anybody.
def Loaded (w : ℕ) (job : StoreForwardJob) (attempt : DeliveryAttempt) (left : ℕ) :
    History ForwardEvent → Prop :=
  (fun h => left ≠ 0 → Only w ForwardEvent.Quiet h) ⊓ InHand w job attempt

theorem stable_loaded : Stable w (Loaded w job attempt left) :=
  Stable.and (fun h others hothers hown hleft => stable_only h others hothers (hown hleft)) stable

theorem length_invokes {record : List FailoverExchange} :
    (record.filterMap (invokes event ·.call)).length = (invocations record).length := by
  induction record
  case nil => rfl
  case cons exchange record ih =>
    obtain ⟨call, answer⟩ := exchange
    cases call <;> simpa [invokes, invocation?] using ih

-- Failover keeps within its budget, which here is a single invocation.
theorem transmitWithFailover_triple {intent : OutboundIntent} {plan : TransportPlan}
    (hscope : attempt.scope = job.scope) (hbudget : policy.maxRouteAttempts = 1) :
    Prog.Triple (Books cautious) allows w (Unsent w (InHand w job attempt))
      ((transmitWithFailoverInner intent plan envelope policy protectedDevices).perform
        Answers.failover (invokes (.invoked job attempt.deliveryId))) fun _ => InHand w job attempt := by
  have hbounded : ∀ record result, Records (transmitWithFailoverInner intent plan envelope policy
      protectedDevices) record result →
      (record.filterMap (invokes (.invoked job attempt.deliveryId) ·.call)).length ≤ 1 := by
    intro record result h
    rw [length_invokes]
    exact (transmitWithFailoverInner_sound h).bounded.trans (by rw [hbudget]; rfl)
  refine (Calls.perform_triple (P := Loaded w job attempt) (fun _ => stable_loaded)
    (fun _ _ h => ⟨by simp, h.2⟩) (fun n hn call event s h hemit hb hready => ?_) hbounded).consequence
    (fun _ h => ⟨fun _ => h.1, h.2⟩) fun _ _ h => h.2
  obtain rfl : n = 0 := by omega
  obtain ⟨hown, hready⟩ := hready
  obtain rfl : .invoked job attempt.deliveryId = event := by
    cases call <;> simp_all [invokes]
  refine ⟨hb.invoke hready.1.1 hready.1.2 ?_ (hown (by simp)), by simp, append _ _ hready⟩
  rw [← hscope]
  exact hready.2

end Failover

theorem failAttempt_triple (hlease : LeaseOf job lease) :
    Worker.Triple cautious allows w (InHand w job attempt)
      (failAttempt job lease attempt attemptsUsed now) fun _ _ => True := by
  refine .bind (transition_settle (fun _ h => h.2) (by simp [DeliveryState.preFlight])) fun _ => ?_
  have hcomplete : ∀ outcome : StoreForwardOutcome,
      Worker.Triple cautious allows w (InHand w job attempt)
        (do completeStoreForwardJob lease now; return outcome) fun _ _ => True :=
    fun _ => .bind (complete_triple stable) fun _ => .pure fun _ _ => trivial
  split
  case isTrue => exact hcomplete _
  case isFalse =>
    split
    case isTrue => exact hcomplete _
    case isFalse =>
      refine .bind (Q := fun next h => (∀ expiry, job.policy.expiresAtUnixMs = some expiry →
        next ≤ expiry) ∧ InHand w job attempt h) (.ofExcept fun next _ hnext h => ⟨?_, h⟩)
        fun next => .given fun hexpiry =>
        .bind (reschedule_triple (fun _ h => h.1.1) hlease.1 hexpiry) fun _ =>
        .pure fun _ _ => trivial
      exact storeForwardNextAttemptAt_le (mapError_eq_ok.mp hnext)

variable {protectedDevices : Bool}

theorem executeAttempt_triple {intent : OutboundIntent} {plan : TransportPlan}
    (hscope : prepared.attempt.scope = job.scope) (hlease : LeaseOf job lease) :
    Worker.Triple cautious allows w (Unsent w (InHand w job prepared.attempt))
      (executeAttempt job lease intent plan prepared protectedDevices now) fun _ _ => True := by
  refine .bind (.ofProg (transmitWithFailover_triple hscope rfl)) fun result => ?_
  cases result
  case ok =>
    exact .bind (transition_settle (fun _ h => h.2) (by simp [DeliveryState.preFlight])) fun _ =>
      .bind (complete_triple stable) fun _ => .pure fun _ _ => trivial
  case error e =>
    dsimp only
    split
    case isTrue => exact .pure fun _ _ => trivial
    case isFalse => exact failAttempt_triple hlease

theorem rescheduleNoRoute_triple (hlease : LeaseOf job lease) :
    Worker.Triple cautious allows w (Known job) (rescheduleNoRoute lease now)
      fun _ _ => True := by
  refine .bind (Q := fun next h => (∀ expiry, job.policy.expiresAtUnixMs = some expiry →
    next ≤ expiry) ∧ Known job h) (.ofExcept fun next _ hnext h => ⟨?_, h⟩)
    fun next => .given fun hexpiry =>
    .bind (reschedule_triple (fun _ h => h) hlease.1 hexpiry) fun _ => .pure fun _ _ => trivial
  exact hlease.2 ▸ storeForwardNextAttemptAt_le (mapError_eq_ok.mp hnext)

theorem sendUnderLease_triple
    (hguard : Guarded cautious allows) (hlast : LastOf job last) (hlease : LeaseOf job lease) :
    Worker.Triple cautious allows w (Unsent w (Known job))
      (sendUnderLease job last lease protectedDevices now) fun _ _ => True := by
  refine .bind (loadJobOwners_triple stable_unsent) fun _ =>
    .bind (.ask stable_unsent) fun plan => ?_
  have hnoRoute : Worker.Triple cautious allows w (Unsent w (Known job))
      (rescheduleNoRoute lease now) fun _ _ => True :=
    (rescheduleNoRoute_triple hlease).strengthen fun _ h => h.2
  split
  case h_1 =>
    exact .bind (prepareAttempt_triple hguard hlast hlease) fun prepared => .given fun hscope =>
      executeAttempt_triple hscope hlease
  case h_2 => exact hnoRoute
  case h_3 => exact hnoRoute
  case h_4 => exact hnoRoute
  case h_5 => exact .throw

theorem processOne_triple (hguard : Guarded cautious allows) :
    Worker.Triple cautious allows w (Unsent w ⊤) (processOne scope storeForwardId protectedDevices)
      fun _ _ => True := by
  refine .bind (.ask stable_unsent) fun now => .bind loadCanonicalJob_triple fun job? =>
    .bind (Q := fun job => Unsent w (Known job)) (.ofExcept ?_) fun job =>
    .bind lastAttempt_triple fun last => .bind resolveExistingState_triple fun outcome => ?_
  · intro job _ hjob hown
    exact hown job (Option.okOr_eq_ok.mp hjob)
  · cases outcome
    case some => exact .pure fun _ _ => trivial
    case none =>
      refine .strengthen (.given fun hlast => .bind (claim_triple fun _ h => h) fun lease? => ?_)
        fun _ h => h rfl
      cases lease?
      case none => exact .pure fun _ _ => trivial
      case some lease =>
        exact .given fun hlease => sendUnderLease_triple hguard hlast (hlease lease rfl)

end Sending

section Workers

theorem forwarding_sound (hguard : Guarded cautious allows) :
    (forwarding allows).Sound (Books cautious) where
  program task w := by
    have hstart : ∀ h : History ForwardEvent, Only w (fun _ => False) h → Unsent w ⊤ h :=
      fun _ hnone => ⟨fun e he => (hnone e he).elim, trivial⟩
    have htask : Worker.Triple cautious allows w (Unsent w ⊤) task.program fun _ _ => True := by
      cases task
      case persist =>
        exact .bind (persistStoreForwardJob_triple.strengthen fun _ _ => trivial) fun _ =>
          .pure fun _ _ => trivial
      case enqueue =>
        exact .bind (enqueueCanonicalJob_triple.strengthen fun _ _ => trivial) fun _ =>
          .pure fun _ _ => trivial
      case processOne =>
        exact .bind (processOne_triple hguard) fun _ => .pure fun _ _ => trivial
    exact Prog.Triple.consequence htask hstart fun _ _ _ => trivial
  env c s hb hsame := hb.of_same hsame

end Workers

end Ucr
