import Ucr.Store.SubscriptionStore

-- What a subscription hands out, and how polls, acknowledgements and rejections move it along the
-- journal.

namespace Ucr

open Except

variable {s : MemoryState} {sub : MemoryEventSubscriptionState} {scope : TenantScope}
  {subscriptionId : EventSubscriptionId} {cursor : EventConsumerCursor}

namespace MemoryState

def selectedAmong (s : MemoryState) (sub : MemoryEventSubscriptionState) (keys : List ScopedId) :
    List EventEnvelope :=
  (keys.filterMap s.events.get).filter sub.selects

-- The events a subscription is about between two positions of the journal.
def selected (s : MemoryState) (sub : MemoryEventSubscriptionState) (start stop : ℕ) :
    List EventEnvelope :=
  s.selectedAmong sub (s.eventOrder.between start stop)

theorem selectedAmong_append :
    s.selectedAmong sub (keys ++ keys') = s.selectedAmong sub keys ++ s.selectedAmong sub keys' := by
  simp [selectedAmong]

theorem selectedAmong_cons (h : s.events.get key = some event) :
    s.selectedAmong sub (key :: keys) =
      (if sub.selects event then [event] else []) ++ s.selectedAmong sub keys := by
  rw [selectedAmong, List.filterMap_cons, h, List.filter_cons]
  split <;> simp [selectedAmong]

variable {events : List EventEnvelope}

-- The batch continues the one so far by what it selects of the entries it passes. Only a batch that
-- holds something stops before the end of the journal.
theorem nextEventBatchLoop_spec
    (h : s.nextEventBatchLoop sub limit position events position bytes rest =
      .ok (batch, endPosition)) :
    ∃ passed left, rest = passed ++ left ∧ endPosition = position + passed.length ∧
      batch = events ++ s.selectedAmong sub passed ∧ (batch = [] → left = []) := by
  induction rest generalizing position events bytes
  case nil =>
    simp only [nextEventBatchLoop, ok_iff] at h
    obtain ⟨rfl, rfl⟩ := h
    exact ⟨[], [], rfl, rfl, by simp [selectedAmong], fun _ => rfl⟩
  case cons key rest ih =>
    simp only [nextEventBatchLoop, ok_iff] at h
    obtain ⟨event, hevent, h⟩ := h
    split at h
    case isTrue hskip =>
      obtain ⟨passed, left, rfl, rfl, rfl, hleft⟩ := ih h
      refine ⟨key :: passed, left, rfl, by simp only [List.length_cons]; omega, ?_, hleft⟩
      rw [selectedAmong_cons hevent, if_neg hskip, List.nil_append]
    case isFalse hselects =>
      simp only [not_not] at hselects
      simp only [ok_iff] at h
      obtain ⟨size?, -, h⟩ := h
      cases size?
      case none =>
        simp only [ok_iff, exists_const] at h
        obtain ⟨hfull, rfl, rfl⟩ := h
        exact ⟨[], key :: rest, rfl, rfl, by simp [selectedAmong], fun hnil => by simp [hnil] at hfull⟩
      case some nextBytes =>
        dsimp only at h
        split at h
        case isTrue =>
          obtain ⟨rfl, rfl⟩ := return_eq_ok.mp h
          refine ⟨[key], rest, rfl, rfl, ?_, by simp⟩
          rw [selectedAmong_cons hevent, if_pos hselects]
          simp [selectedAmong]
        case isFalse =>
          obtain ⟨passed, left, rfl, rfl, rfl, hleft⟩ := ih h
          refine ⟨key :: passed, left, rfl, by simp only [List.length_cons]; omega, ?_, hleft⟩
          rw [selectedAmong_cons hevent, if_pos hselects, List.append_assoc]

theorem memoryNextEventBatch_some
    (h : s.memoryNextEventBatch sub limit = .ok (some (events, endPosition))) :
    sub.committedPosition < endPosition ∧ endPosition ≤ s.eventOrder.length ∧
      events = s.selected sub sub.committedPosition endPosition := by
  simp only [memoryNextEventBatch, ok_iff, exists_const, Prod.exists] at h
  obtain ⟨hstart, batch, stop, hloop, h⟩ := h
  split at h
  case isTrue => simp at h
  case isFalse hsome =>
    obtain ⟨rfl, rfl⟩ := Prod.mk.inj (Option.some.inj h)
    obtain ⟨passed, left, hdrop, rfl, rfl, -⟩ := nextEventBatchLoop_spec hloop
    have hlength := congrArg List.length hdrop
    simp only [List.length_drop, List.length_append] at hlength
    have hpassed : passed.length ≠ 0 := fun hnone => by
      rw [List.eq_nil_of_length_eq_zero hnone] at hsome
      simp [selectedAmong] at hsome
    exact ⟨by omega, by omega, by rw [selected, List.between_of_drop hdrop, List.nil_append]⟩

-- Nothing to hand out means nothing is selected up to the end of the journal.
theorem memoryNextEventBatch_none (h : s.memoryNextEventBatch sub limit = .ok none) :
    sub.committedPosition ≤ s.eventOrder.length ∧
      s.selected sub sub.committedPosition s.eventOrder.length = [] := by
  simp only [memoryNextEventBatch, ok_iff, exists_const, Prod.exists] at h
  obtain ⟨hstart, batch, stop, hloop, h⟩ := h
  split at h
  case isFalse => simp at h
  case isTrue hempty =>
    obtain rfl := List.isEmpty_iff.mp hempty
    obtain ⟨passed, left, hdrop, -, hnothing, hleft⟩ := nextEventBatchLoop_spec hloop
    refine ⟨by omega, ?_⟩
    rw [hleft rfl, List.append_nil] at hdrop
    rw [selected, List.between_length, hdrop]
    simpa using hnothing.symm

theorem mapM_activeEvent_spec (h : keys.mapM (s.activeEvent sub) = .ok slice) :
    slice.reduceOption.map Prod.fst = s.selectedAmong sub keys := by
  induction keys generalizing slice
  case nil =>
    obtain rfl := pure_eq_ok.mp h
    rfl
  case cons key keys ih =>
    simp only [List.mapM_cons, activeEvent, ok_iff] at h
    obtain ⟨entry, ⟨event, hevent, hentry⟩, rest, hrest, rfl⟩ := h
    rw [selectedAmong_cons hevent, ← ih hrest]
    split at hentry
    case isTrue hselects =>
      simp only [ok_iff] at hentry
      obtain ⟨size, -, rfl⟩ := hentry
      simp [List.reduceOption_cons_of_some, hselects]
    case isFalse hskip =>
      obtain rfl := pure_eq_ok.mp hentry
      simp [List.reduceOption_cons_of_none, hskip]

variable {active : MemoryEventActiveBatch}

theorem memoryActiveEvents_spec (h : s.memoryActiveEvents sub active = .ok events) :
    events = s.selected sub sub.committedPosition active.endPosition := by
  simp only [memoryActiveEvents, ok_iff] at h
  obtain ⟨-, -, slice, hslice, -, -, rfl⟩ := h
  exact mapM_activeEvent_spec hslice

inductive PollAnswer (s : MemoryState) (scope : TenantScope) (subscriptionId : EventSubscriptionId)
    (sub : MemoryEventSubscriptionState) (now : ℤ) : EventPollResult → MemoryState → Prop
  | waiting (ms : ℕ) : PollAnswer s scope subscriptionId sub now (.retryAfter ms) s
  | again (active : MemoryEventActiveBatch) (events : List EventEnvelope)
      (hactive : sub.active = some active) (computed : s.memoryActiveEvents sub active = .ok events) :
      PollAnswer s scope subscriptionId sub now
        (.batch ⟨subscriptionId, scope, events, sub.cursor scope active, active.attempt⟩) s
  | empty (limit : ℕ) (idle : sub.active = none)
      (computed : s.memoryNextEventBatch sub limit = .ok none) :
      PollAnswer s scope subscriptionId sub now .empty (s.putSubscription (scope, subscriptionId)
        { sub with committedPosition := s.eventOrder.length })
  | batch (limit endPosition : ℕ) (events : List EventEnvelope) (idle : sub.active = none)
      (computed : s.memoryNextEventBatch sub limit = .ok (some (events, endPosition))) :
      PollAnswer s scope subscriptionId sub now
        (.batch ⟨subscriptionId, scope, events, sub.cursor scope ⟨endPosition, 1, now⟩, 1⟩)
        (s.putSubscription (scope, subscriptionId)
          { sub with active := some ⟨endPosition, 1, now⟩ })

variable {now : ℤ}

theorem pollEventSubscription_answer
    (h : s.pollEventSubscription scope subscriptionId maxItems now = .ok (result, s')) :
    ∃ sub, s.eventSubscriptions.get (scope, subscriptionId) = some sub ∧
      s.PollAnswer scope subscriptionId sub now result s' := by
  simp only [pollEventSubscription, ok_iff] at h
  obtain ⟨-, -, -, -, sub, hsub, -, -, h⟩ := h
  refine ⟨sub, hsub, ?_⟩
  split at h
  case h_1 active hactive =>
    split at h
    case isTrue =>
      obtain ⟨rfl, rfl⟩ := return_eq_ok.mp h
      exact .waiting _
    case isFalse =>
      simp only [ok_iff] at h
      obtain ⟨events, hevents, rfl, rfl⟩ := h
      exact .again active events hactive hevents
  case h_2 hidle =>
    simp only [ok_iff] at h
    obtain ⟨next, hnext, h⟩ := h
    cases next
    case none =>
      obtain ⟨rfl, rfl⟩ := return_eq_ok.mp h
      exact .empty _ hidle hnext
    case some next =>
      obtain ⟨events, endPosition⟩ := next
      obtain ⟨rfl, rfl⟩ := return_eq_ok.mp h
      exact .batch _ endPosition events hidle hnext

-- The outstanding batch is the one the cursor was handed out for, and nothing was done with the
-- cursor yet.
structure Outstanding (s : MemoryState) (scope : TenantScope) (subscriptionId : EventSubscriptionId)
    (cursor : EventConsumerCursor) (sub : MemoryEventSubscriptionState)
    (active : MemoryEventActiveBatch) : Prop where
  stored    : s.eventSubscriptions.get (scope, subscriptionId) = some sub
  batch     : sub.active = some active
  cursor_eq : sub.cursor scope active = cursor
  unused    : sub.lastCursorAction.filter (·.1 = cursor.token) = none

theorem requireActiveCursor_eq_some :
    s.requireActiveCursor scope subscriptionId cursor action = .ok (some (sub, active)) ↔
      s.Outstanding scope subscriptionId cursor sub active := by
  simp only [requireActiveCursor, ok_iff]
  constructor
  · rintro ⟨sub', hsub, h⟩
    split at h
    case h_1 => simp at h
    case h_2 hunused =>
      simp only [ok_iff, exists_const, ne_eq, not_not, Option.some.injEq, Prod.mk.injEq] at h
      obtain ⟨_, hactive, hcursor, rfl, rfl⟩ := h
      exact ⟨hsub, hactive, hcursor, hunused⟩
  · rintro ⟨hsub, hactive, hcursor, hunused⟩
    refine ⟨sub, hsub, ?_⟩
    rw [hunused]
    simp [hactive, hcursor, rejectIf]

-- An acknowledgement is a repetition or completes the outstanding batch.
theorem acknowledgeEventCursor_spec
    (h : s.acknowledgeEventCursor scope subscriptionId cursor = .ok (status, s')) :
    (status = .duplicate ∧ s' = s) ∨
      (status = .persisted ∧ ∃ sub active,
        s.Outstanding scope subscriptionId cursor sub active ∧
        s' = s.putSubscription (scope, subscriptionId) { sub with
          committedPosition := active.endPosition
          active := none
          lastCursorAction := some (cursor.token, .acknowledge) }) := by
  simp only [acknowledgeEventCursor, bind_eq_ok] at h
  obtain ⟨-, -, found, hfound, h⟩ := h
  cases found
  case none =>
    simp only [return_eq_ok] at h
    exact .inl ⟨h.1.symm, h.2.symm⟩
  case some found =>
    obtain ⟨sub, active⟩ := found
    simp only [return_eq_ok] at h
    exact .inr ⟨h.1.symm, sub, active, requireActiveCursor_eq_some.mp hfound, h.2.symm⟩

theorem prepareRejection_eq_some :
    s.prepareRejection scope subscriptionId cursor failureKind now =
      .ok (some (sub, active, dead?)) ↔
    validateEventConsumerCursor cursor = .ok () ∧ 0 ≤ now ∧
      s.Outstanding scope subscriptionId cursor sub active ∧
      match dead? with
      | some dead =>
        isTerminalRejection sub active failureKind ∧ s.memoryActiveEvents sub active = .ok dead
      | none      => ¬isTerminalRejection sub active failureKind := by
  simp only [prepareRejection, ok_iff, exists_const, not_lt]
  constructor
  · rintro ⟨_, hcursor, hnow, found, hfound, h⟩
    refine ⟨hcursor, hnow, ?_⟩
    cases found
    case none => simp at h
    case some found =>
      obtain ⟨sub', active'⟩ := found
      rw [requireActiveCursor_eq_some] at hfound
      dsimp only at h
      split at h
      case isTrue hterminal =>
        simp only [ok_iff, Option.some.injEq, Prod.mk.injEq] at h
        obtain ⟨dead, hdead, rfl, rfl, rfl⟩ := h
        exact ⟨hfound, hterminal, hdead⟩
      case isFalse hretried =>
        simp only [ok_iff, Option.some.injEq, Prod.mk.injEq] at h
        obtain ⟨rfl, rfl, rfl⟩ := h
        exact ⟨hfound, hretried⟩
  · rintro ⟨hcursor, hnow, houtstanding, h⟩
    refine ⟨(), hcursor, hnow, some (sub, active), requireActiveCursor_eq_some.mpr houtstanding, ?_⟩
    cases dead?
    case none => simp [h]
    case some => simp [h]

theorem retryBatch_spec (h : retryBatch active now = .ok retry) :
    retry.endPosition = active.endPosition ∧ retry.attempt.val = active.attempt.val + 1 := by
  simp only [retryBatch, ok_iff, exists_const, ge_iff_le, not_le] at h
  obtain ⟨hsmall, -, rfl⟩ := h
  exact ⟨rfl, Fin.val_add_one_of_lt' hsmall⟩

inductive RejectAnswer (s : MemoryState) (scope : TenantScope) (subscriptionId : EventSubscriptionId)
    (cursor : EventConsumerCursor) (failureKind : EventDeliveryFailureKind) (now : ℤ) :
    StoreResult DurableRecordStatus × MemoryState → Prop
  | unchanged (result : StoreResult DurableRecordStatus)
      (refused : result ≠ .ok .persisted) :
      RejectAnswer s scope subscriptionId cursor failureKind now (result, s)
  | terminal (sub : MemoryEventSubscriptionState) (active : MemoryEventActiveBatch)
      (dead : List EventEnvelope) (found : s.Outstanding scope subscriptionId cursor sub active)
      (computed : s.memoryActiveEvents sub active = .ok dead) :
      RejectAnswer s scope subscriptionId cursor failureKind now
        (.ok .persisted, s.putSubscription (scope, subscriptionId) { sub with
          lastCursorAction := some (cursor.token, .reject)
          deadLetters := sub.deadLetters ++ dead.map fun event =>
            ⟨subscriptionId, scope, event, active.attempt, failureKind⟩
          committedPosition := active.endPosition
          active := none })
  | retried (sub : MemoryEventSubscriptionState) (active retry : MemoryEventActiveBatch)
      (found : s.Outstanding scope subscriptionId cursor sub active)
      (again : ¬isTerminalRejection sub active failureKind)
      (computed : retryBatch active now = .ok retry) :
      RejectAnswer s scope subscriptionId cursor failureKind now
        (.ok .persisted, s.putSubscription (scope, subscriptionId) { sub with
          lastCursorAction := some (cursor.token, .reject)
          active := some retry })
  | late (sub : MemoryEventSubscriptionState) (active : MemoryEventActiveBatch)
      (e : DurableStoreError) (found : s.Outstanding scope subscriptionId cursor sub active)
      (again : ¬isTerminalRejection sub active failureKind)
      (failed : retryBatch active now = .error e) :
      RejectAnswer s scope subscriptionId cursor failureKind now
        (.error e, s.putSubscription (scope, subscriptionId)
          { sub with lastCursorAction := some (cursor.token, .reject) })

theorem rejectEventCursor_answer (s : MemoryState) (scope : TenantScope)
    (subscriptionId : EventSubscriptionId) (cursor : EventConsumerCursor)
    (failureKind : EventDeliveryFailureKind) (now : ℤ) :
    s.RejectAnswer scope subscriptionId cursor failureKind now
      (s.rejectEventCursor scope subscriptionId cursor failureKind now) := by
  unfold rejectEventCursor
  rcases hprepared : s.prepareRejection scope subscriptionId cursor failureKind now with
    e | _ | ⟨sub, active, dead?⟩
  case error   => exact .unchanged _ (by simp)
  case ok.none => exact .unchanged _ (by simp)
  case ok.some =>
    obtain ⟨-, -, hfound, hdead⟩ := prepareRejection_eq_some.mp hprepared
    cases dead?
    case some dead => exact .terminal sub active dead hfound hdead.2
    case none =>
      cases hretry : retryBatch active now
      case error e =>
        simpa [hretry] using RejectAnswer.late sub active e hfound hdead hretry
      case ok retry =>
        simpa [hretry] using RejectAnswer.retried sub active retry hfound hdead hretry

theorem persistEventSubscription_spec
    (h : s.persistEventSubscription owner subscription = .ok (status, s')) :
    (status = .duplicate ∧ s' = s) ∨
      (status = .persisted ∧ ∃ canonical, canonicalEventSubscription subscription = .ok canonical ∧
        s.eventSubscriptions.get (subscription.scope, subscription.subscriptionId) = none ∧
        s' = s.putSubscription (subscription.scope, subscription.subscriptionId)
          (s.newEventSubscription owner canonical)) := by
  simp only [persistEventSubscription, ok_iff] at h
  obtain ⟨canonical, hcanonical, -, -, h⟩ := h
  have hids : canonical.scope = subscription.scope ∧
      canonical.subscriptionId = subscription.subscriptionId := by
    simp only [canonicalEventSubscription, ok_iff] at hcanonical
    obtain ⟨-, -, rfl⟩ := hcanonical
    exact ⟨rfl, rfl⟩
  rw [hids.1, hids.2] at h
  split at h
  case h_1 =>
    simp only [ok_iff] at h
    obtain ⟨-, -, rfl, rfl⟩ := h
    exact .inl ⟨rfl, rfl⟩
  case h_2 hfresh =>
    obtain ⟨rfl, rfl⟩ := return_eq_ok.mp h
    exact .inr ⟨rfl, canonical, hcanonical, hfresh, rfl⟩

-- A replay that was not the last one starts a new generation.
theorem replayEventSubscription_spec
    (h : s.replayEventSubscription scope subscriptionId replayId = .ok (status, s')) :
    (status = .duplicate ∧ s' = s) ∨
      (status = .persisted ∧ ∃ sub generation,
        s.eventSubscriptions.get (scope, subscriptionId) = some sub ∧ sub.generation < generation ∧
        s' = s.putSubscription (scope, subscriptionId) { sub with
          generation := generation
          committedPosition := 0
          active := none
          lastCursorAction := none
          deadLetters := []
          lastReplayId := some replayId }) := by
  simp only [replayEventSubscription, ok_iff] at h
  obtain ⟨sub, hstored, h⟩ := h
  split at h
  case isTrue =>
    obtain ⟨rfl, rfl⟩ := return_eq_ok.mp h
    exact .inl ⟨rfl, rfl⟩
  case isFalse =>
    simp only [ok_iff] at h
    obtain ⟨generation, hnext, rfl, rfl⟩ := h
    exact .inr ⟨rfl, sub, generation, hstored, U64.lt_of_checkedSucc hnext, rfl⟩

end MemoryState

end Ucr
