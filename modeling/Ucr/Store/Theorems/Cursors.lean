import Ucr.Store.Theorems.Delivery

-- Cursors of a subscription. The cursor handed out for a batch belongs to a position and an attempt
-- for which nothing was noted yet, unless a rejection has failed after it noted itself.

namespace Ucr

open Except Relation MemoryState StoreOp Option Table

variable {s s' : MemoryState} {sub sub' : MemoryEventSubscriptionState} {scope : TenantScope}
  {subscriptionId : EventSubscriptionId} {cursor : EventConsumerCursor}

def StoreOp.FailsToConsume (s : MemoryState) : StoreOp → Prop
  | .pollEventSubscription scope subscriptionId maxItems nowUnixMs =>
    ∃ e, s.pollEventSubscription scope subscriptionId maxItems nowUnixMs = .error e
  | .acknowledgeEventCursor scope subscriptionId cursor =>
    ∃ e, s.acknowledgeEventCursor scope subscriptionId cursor = .error e
  | .rejectEventCursor scope subscriptionId cursor failureKind nowUnixMs =>
    ∃ e, (s.rejectEventCursor scope subscriptionId cursor failureKind nowUnixMs).1 = .error e
  | .replayEventSubscription scope subscriptionId replayId =>
    ∃ e, s.replayEventSubscription scope subscriptionId replayId = .error e
  | _ => False

-- A batch that is to be retried can be retried before the end of time.
def StoreOp.RetriesInTime (s : MemoryState) : StoreOp → Prop
  | .rejectEventCursor scope subscriptionId cursor failureKind nowUnixMs =>
    ∀ sub active, s.Outstanding scope subscriptionId cursor sub active →
      ¬isTerminalRejection sub active failureKind →
      nowUnixMs + eventRetryDelayMs (active.attempt + 1) ≤ maxI64
  | _ => True

abbrev RunInTime := StoreRunWhere fun s op => op.RetriesInTime s

variable {active : MemoryEventActiveBatch}

namespace MemoryEventSubscriptionState

-- No other attempt at this or an earlier position has the cursor of the batch.
def CursorApart (sub : MemoryEventSubscriptionState) (scope : TenantScope)
    (active : MemoryEventActiveBatch) : Prop :=
  ∀ position ≤ active.endPosition, ∀ attempt ≤ sub.subscription.maxAttempts,
    eventConsumerCursorToken scope sub.subscription sub.generation position attempt =
      sub.cursor scope active →
    position = active.endPosition ∧ attempt = active.attempt

-- The cursor is none of those the subscription has handed out since it was replayed last.
def Foreign (sub : MemoryEventSubscriptionState) (scope : TenantScope) (cursor : EventConsumerCursor) :
    Prop :=
  ∀ position, (position ≤ sub.committedPosition ∨
      ∃ active, sub.active = some active ∧ position = active.endPosition) →
    ∀ attempt ≤ sub.subscription.maxAttempts,
      eventConsumerCursorToken scope sub.subscription sub.generation position attempt ≠ cursor

-- Cursors of different generations differ, as far as the subscription can meet them.
def GenerationsApart (sub old : MemoryEventSubscriptionState) (scope : TenantScope) : Prop :=
  ∀ active, old.active = some active → sub.generation ≠ old.generation →
    sub.Foreign scope (old.cursor scope active)

structure Orderly (scope : TenantScope) (sub : MemoryEventSubscriptionState) : Prop where
  attempts : 1 ≤ sub.subscription.maxAttempts
  ahead    : ∀ active, sub.active = some active →
    sub.committedPosition < active.endPosition ∧ active.attempt ≤ sub.subscription.maxAttempts
  noted    : ∀ token action, sub.lastCursorAction = some (token, action) →
    ∃ position, ∃ attempt ≤ sub.subscription.maxAttempts,
      token = (eventConsumerCursorToken scope sub.subscription sub.generation position attempt).token ∧
        (position ≤ sub.committedPosition ∨ ∃ active, sub.active = some active ∧
          position = active.endPosition ∧ attempt < active.attempt)

-- What an operation in time does to a subscription.
inductive Moves (scope : TenantScope) (sub : MemoryEventSubscriptionState) :
    MemoryEventSubscriptionState → Prop
  | skipped (position : ℕ) (idle : sub.active = none) (forward : sub.committedPosition ≤ position) :
      Moves scope sub { sub with committedPosition := position }
  | handedOut (endPosition : ℕ) (now : ℤ) (idle : sub.active = none)
      (ahead : sub.committedPosition < endPosition) :
      Moves scope sub { sub with active := some ⟨endPosition, 1, now⟩ }
  | finished (active : MemoryEventActiveBatch) (action : MemoryEventCursorAction)
      (letters : List EventDeadLetter) (batch : sub.active = some active) :
      Moves scope sub { sub with
        lastCursorAction := some ((sub.cursor scope active).token, action)
        deadLetters := letters
        committedPosition := active.endPosition
        active := none }
  | retried (active retry : MemoryEventActiveBatch) (batch : sub.active = some active)
      (same : retry.endPosition = active.endPosition)
      (next : retry.attempt.val = active.attempt.val + 1)
      (left : active.attempt < sub.subscription.maxAttempts) :
      Moves scope sub { sub with
        lastCursorAction := some ((sub.cursor scope active).token, .reject)
        active := some retry }
  | replayed (generation : U64) (replayId : OpaqueId) (later : sub.generation < generation) :
      Moves scope sub { sub with
        generation := generation
        committedPosition := 0
        active := none
        lastCursorAction := none
        deadLetters := []
        lastReplayId := some replayId }

theorem Orderly.moves (h : sub.Orderly scope) (hmoves : sub.Moves scope sub') :
    sub'.Orderly scope := by
  cases hmoves
  case skipped position hidle hforward =>
    refine ⟨h.attempts, by simp [hidle], fun token action hnoted => ?_⟩
    obtain ⟨p, attempt, hattempt, htoken, hp | ⟨active, hactive, -⟩⟩ := h.noted token action hnoted
    · exact ⟨p, attempt, hattempt, htoken, .inl (hp.trans hforward)⟩
    · simp [hidle] at hactive
  case handedOut endPosition now hidle hahead =>
    refine ⟨h.attempts, fun active hactive => ?_, fun token action hnoted => ?_⟩
    · obtain rfl := Option.some.inj hactive
      exact ⟨hahead, h.attempts⟩
    · obtain ⟨p, attempt, hattempt, htoken, hp | ⟨active, hactive, -⟩⟩ := h.noted token action hnoted
      · exact ⟨p, attempt, hattempt, htoken, .inl hp⟩
      · simp [hidle] at hactive
  case finished active action letters hbatch =>
    refine ⟨h.attempts, by simp, fun token action hnoted => ?_⟩
    obtain ⟨rfl, -⟩ := Prod.mk.inj (Option.some.inj hnoted)
    exact ⟨active.endPosition, active.attempt, (h.ahead active hbatch).2, rfl, .inl le_rfl⟩
  case retried active retry hbatch hsame hnext hleft =>
    have hlater : active.attempt < retry.attempt := Fin.lt_def.mpr (by omega)
    refine ⟨h.attempts, fun active' hactive => ?_, fun token action hnoted => ?_⟩
    · obtain rfl := Option.some.inj hactive
      exact ⟨hsame ▸ (h.ahead active hbatch).1, Fin.le_def.mpr (by rw [hnext]; exact hleft)⟩
    · obtain ⟨rfl, -⟩ := Prod.mk.inj (Option.some.inj hnoted)
      exact ⟨active.endPosition, active.attempt, hleft.le, rfl, .inr ⟨retry, rfl, hsame.symm, hlater⟩⟩
  case replayed => exact ⟨h.attempts, by simp, by simp⟩

-- A cursor was not used if it is not the one of an earlier attempt.
theorem Orderly.unused (h : sub.Orderly scope)
    (hother : ∀ position, ∀ attempt ≤ sub.subscription.maxAttempts,
      (position ≤ sub.committedPosition ∨ ∃ active, sub.active = some active ∧
        position = active.endPosition ∧ attempt < active.attempt) →
      eventConsumerCursorToken scope sub.subscription sub.generation position attempt ≠ cursor) :
    sub.lastCursorAction.filter (·.1 = cursor.token) = none := by
  rcases hlast : sub.lastCursorAction with _ | ⟨token, action⟩
  case none => rfl
  case some =>
    obtain ⟨p, attempt, hattempt, rfl, hbefore⟩ := h.noted token action hlast
    rw [filter_some, if_neg]
    simp only [decide_eq_true_eq]
    exact fun htoken => hother p attempt hattempt hbefore (congrArg EventConsumerCursor.mk htoken)

theorem Orderly.unused_outstanding (h : sub.Orderly scope)
    (hactive : sub.active = some active) (hapart : sub.CursorApart scope active) :
    sub.lastCursorAction.filter (·.1 = (sub.cursor scope active).token) = none := by
  refine h.unused fun p attempt hattempt hbefore hcursor => ?_
  have hahead := (h.ahead active hactive).1
  obtain hp | ⟨active', hactive', rfl, hearlier⟩ := hbefore
  · have hsame := hapart p (by omega) attempt hattempt hcursor
    omega
  · obtain rfl := mem_unique hactive hactive'
    have hsame := hapart _ le_rfl attempt hattempt hcursor
    exact absurd hsame.2 hearlier.ne

end MemoryEventSubscriptionState

namespace MemoryState

theorem validateEventConsumerCursor_cursor (active : MemoryEventActiveBatch) :
    validateEventConsumerCursor (sub.cursor scope active) = .ok () := by
  have hlength : (sub.cursor scope active).token.length = 32 := Digest.length_eq _
  have hnonempty : ¬(sub.cursor scope active).token.isEmpty := by
    rw [List.isEmpty_iff_length_eq_zero, hlength]
    decide
  simp [validateEventConsumerCursor, hlength, hnonempty, maxEventConsumerCursorLen]

-- The attempts of a batch that is retried do not overflow.
theorem attempt_succ (h : ¬isTerminalRejection sub active failureKind) :
    active.attempt < sub.subscription.maxAttempts ∧ active.attempt.val + 1 < 2 ^ 32 := by
  simp only [isTerminalRejection, Bool.or_eq_true, decide_eq_true_eq, not_or, ge_iff_le, not_le] at h
  exact ⟨h.2, lt_of_le_of_lt (Fin.lt_def.mp h.2) sub.subscription.maxAttempts.isLt⟩

theorem retryBatch_eq_error (hsmall : active.attempt.val + 1 < 2 ^ 32) :
    (∃ e, retryBatch active now = .error e) ↔
      maxI64 < now + eventRetryDelayMs (active.attempt + 1) := by
  have hnext : ¬active.attempt.val + 1 ≥ 2 ^ 32 := not_le.mpr hsmall
  simp only [retryBatch, rejectIf, if_neg hnext]
  by_cases hlate : maxI64 < now + eventRetryDelayMs (active.attempt + 1) <;> simp [hlate]

-- A rejection that comes too late for a retry fails, and has noted itself.
theorem rejectEventCursor_late (hfound : s.Outstanding scope subscriptionId cursor sub active)
    (hagain : ¬isTerminalRejection sub active failureKind)
    (hlate : maxI64 < now + eventRetryDelayMs (active.attempt + 1)) :
    (∃ e, (s.rejectEventCursor scope subscriptionId cursor failureKind now).1 = .error e) ∧
      (s.rejectEventCursor scope subscriptionId cursor failureKind now).2 ≠ s := by
  have hnow : 0 ≤ now := by
    have hdelay : eventRetryDelayMs (active.attempt + 1) ≤ 60000 := min_le_right _ _
    simp only [maxI64] at hlate
    omega
  have hcursor : validateEventConsumerCursor cursor = .ok () :=
    hfound.cursor_eq ▸ validateEventConsumerCursor_cursor active
  have hprepared : s.prepareRejection scope subscriptionId cursor failureKind now =
      .ok (some (sub, active, none)) :=
    prepareRejection_eq_some.mpr ⟨hcursor, hnow, hfound, hagain⟩
  obtain ⟨e, hretry⟩ := (retryBatch_eq_error (attempt_succ hagain).2).mpr hlate
  simp only [rejectEventCursor, hprepared, hretry]
  refine ⟨⟨e, rfl⟩, fun hsame => ?_⟩
  have hstored := congrArg (·.eventSubscriptions.get (scope, subscriptionId)) hsame
  simp only [putSubscription, get_put_self, hfound.stored, Option.some.injEq] at hstored
  have hunused := hfound.unused
  rw [← hstored] at hunused
  simp at hunused

theorem newEventSubscription_orderly (h : canonicalEventSubscription subscription = .ok canonical) :
    (s.newEventSubscription owner canonical).Orderly scope := by
  refine ⟨?_, by simp [newEventSubscription], by simp [newEventSubscription]⟩
  simp only [canonicalEventSubscription, validateEventSubscription, bind_eq_ok, pure_eq_ok] at h
  obtain ⟨-, ⟨_, -, _, -, _, -, _, hattempts, -⟩, rfl⟩ := h
  simp only [rejectIf_eq_ok, not_or] at hattempts
  exact Fin.one_le_of_ne_zero hattempts.1

-- An operation on a subscription does nothing, or it succeeds and the subscription moves. A new one
-- is in order.
def Consumed (s : MemoryState) (op : StoreOp) (scope : TenantScope)
    (subscriptionId : EventSubscriptionId) : Prop :=
  op.run s = s ∨ ¬op.FailsToConsume s ∧ ∃ sub',
    op.run s = s.putSubscription (scope, subscriptionId) sub' ∧
      (s.eventSubscriptions.get (scope, subscriptionId) = none ∧ sub'.Orderly scope ∨
        ∃ sub, s.eventSubscriptions.get (scope, subscriptionId) = some sub ∧ sub.Moves scope sub')

theorem poll_consumed (maxItems : ℕ) (now : ℤ) :
    s.Consumed (.pollEventSubscription scope subscriptionId maxItems now) scope subscriptionId := by
  unfold Consumed
  simp only [run, FailsToConsume]
  rcases hpoll : s.pollEventSubscription scope subscriptionId maxItems now with e | ⟨result, s'⟩
  case error => exact .inl rfl
  case ok =>
    obtain ⟨sub, hstored, hanswer⟩ := pollEventSubscription_answer hpoll
    cases hanswer
    case waiting => exact .inl rfl
    case again   => exact .inl rfl
    case empty limit hidle computed =>
      have hforward := (memoryNextEventBatch_none computed).1
      exact .inr ⟨by simp, _, rfl, .inr ⟨sub, hstored, .skipped _ hidle hforward⟩⟩
    case batch limit endPosition events hidle computed =>
      have hahead := (memoryNextEventBatch_some computed).1
      exact .inr ⟨by simp, _, rfl, .inr ⟨sub, hstored, .handedOut endPosition now hidle hahead⟩⟩

theorem acknowledge_consumed (cursor : EventConsumerCursor) :
    s.Consumed (.acknowledgeEventCursor scope subscriptionId cursor) scope subscriptionId := by
  unfold Consumed
  simp only [run, FailsToConsume]
  rcases hack : s.acknowledgeEventCursor scope subscriptionId cursor with e | ⟨status, s'⟩
  case error => exact .inl rfl
  case ok =>
    obtain ⟨-, rfl⟩ | ⟨-, sub, active, hfound, rfl⟩ := acknowledgeEventCursor_spec hack
    · exact .inl rfl
    · refine .inr ⟨by simp, _, rfl, .inr ⟨sub, hfound.stored, ?_⟩⟩
      rw [← hfound.cursor_eq]
      exact .finished active .acknowledge sub.deadLetters hfound.batch

theorem replay_consumed (replayId : OpaqueId) :
    s.Consumed (.replayEventSubscription scope subscriptionId replayId) scope subscriptionId := by
  unfold Consumed
  simp only [run, FailsToConsume]
  rcases hreplay : s.replayEventSubscription scope subscriptionId replayId with e | ⟨status, s'⟩
  case error => exact .inl rfl
  case ok =>
    obtain ⟨-, rfl⟩ | ⟨-, sub, generation, hstored, hlater, rfl⟩ := replayEventSubscription_spec hreplay
    · exact .inl rfl
    · exact .inr ⟨by simp, _, rfl, .inr ⟨sub, hstored, .replayed generation replayId hlater⟩⟩

theorem reject_consumed (hintime : RetriesInTime s
      (.rejectEventCursor scope subscriptionId cursor failureKind now)) :
    s.Consumed (.rejectEventCursor scope subscriptionId cursor failureKind now) scope
      subscriptionId := by
  unfold Consumed
  simp only [run, FailsToConsume]
  have hanswer := rejectEventCursor_answer s scope subscriptionId cursor failureKind now
  revert hanswer
  generalize s.rejectEventCursor scope subscriptionId cursor failureKind now = answer
  rintro (⟨result, -⟩ | ⟨sub, active, dead, hfound, -⟩ | ⟨sub, active, retry, hfound, hagain, hretry⟩ |
    ⟨sub, active, e, hfound, hagain, hfailed⟩)
  case unchanged => exact .inl rfl
  case terminal =>
    refine .inr ⟨by simp, _, rfl, .inr ⟨sub, hfound.stored, ?_⟩⟩
    rw [← hfound.cursor_eq]
    exact .finished active .reject _ hfound.batch
  case retried =>
    obtain ⟨hsame, hnext⟩ := retryBatch_spec hretry
    refine .inr ⟨by simp, _, rfl, .inr ⟨sub, hfound.stored, ?_⟩⟩
    rw [← hfound.cursor_eq]
    exact .retried active retry hfound.batch hsame hnext (attempt_succ hagain).1
  case late =>
    have hlate := (retryBatch_eq_error (attempt_succ hagain).2).mp ⟨e, hfailed⟩
    exact absurd (hintime sub active hfound hagain) (not_le.mpr hlate)

theorem persist_consumed :
    s.Consumed (.persistEventSubscription owner subscription) subscription.scope
      subscription.subscriptionId := by
  unfold Consumed
  simp only [run, FailsToConsume]
  rcases hpersist : s.persistEventSubscription owner subscription with e | ⟨status, s'⟩
  case error => exact .inl rfl
  case ok =>
    obtain ⟨-, rfl⟩ | ⟨-, canonical, hcanonical, hfresh, rfl⟩ := persistEventSubscription_spec hpersist
    · exact .inl rfl
    · exact .inr ⟨by simp, _, rfl, .inl ⟨hfresh, newEventSubscription_orderly hcanonical⟩⟩

theorem consumed_of_inTime (hop : op.subscription? = some (scope, subscriptionId))
    (hintime : op.RetriesInTime s) : s.Consumed op scope subscriptionId := by
  cases op <;> simp only [subscription?, reduceCtorEq, Option.some.injEq, Prod.mk.injEq] at hop
  all_goals obtain ⟨rfl, rfl⟩ := hop
  case persistEventSubscription => exact persist_consumed
  case pollEventSubscription    => exact poll_consumed ..
  case acknowledgeEventCursor   => exact acknowledge_consumed _
  case rejectEventCursor        => exact reject_consumed hintime
  case replayEventSubscription  => exact replay_consumed _

def SubscriptionsOrderly (s : MemoryState) : Prop :=
  ∀ key sub, s.eventSubscriptions.get key = some sub → sub.Orderly key.1

theorem SubscriptionsOrderly.run (h : s.SubscriptionsOrderly) (hs : s.Keyed) {op : StoreOp}
    (hintime : op.RetriesInTime s) : (op.run s).SubscriptionsOrderly := by
  intro key sub' hget
  by_cases hop : op.subscription? = some key
  case neg =>
    rw [run_other hs op hop] at hget
    exact h key sub' hget
  case pos =>
    obtain ⟨scope, subscriptionId⟩ := key
    obtain hsame | ⟨-, next, hput, hnext⟩ := consumed_of_inTime hop hintime
    · exact h _ sub' (hsame ▸ hget)
    · rw [hput, putSubscription, get_put_self] at hget
      obtain rfl := Option.some.inj hget
      obtain ⟨-, horderly⟩ | ⟨sub, hstored, hmoves⟩ := hnext
      · exact horderly
      · exact (h _ sub hstored).moves hmoves

theorem subscriptionsOrderly (hrun : RunInTime .empty s) : s.SubscriptionsOrderly :=
  StoreRunWhere.induction hrun .refl (by simp [SubscriptionsOrderly, empty]) fun _ _ ht hintime ih =>
    ih.run ht.attainable.keyed hintime

-- A subscription keeps what it is about, and its generation does not fall.
theorem run_generation {op : StoreOp} (hs : s.Keyed) (hintime : op.RetriesInTime s)
    (hstored : s.eventSubscriptions.get key = some sub) :
    ∃ sub', (op.run s).eventSubscriptions.get key = some sub' ∧
      sub'.subscription = sub.subscription ∧ sub.generation ≤ sub'.generation := by
  by_cases hop : op.subscription? = some key
  case neg => exact ⟨sub, (run_other hs op hop).trans hstored, rfl, le_rfl⟩
  case pos =>
    obtain ⟨scope, subscriptionId⟩ := key
    obtain hsame | ⟨-, sub', hput, ⟨hnone, -⟩ | ⟨_, hget, hmoves⟩⟩ := consumed_of_inTime hop hintime
    · exact ⟨sub, by rwa [hsame], rfl, le_rfl⟩
    · simp [hstored] at hnone
    · obtain rfl := mem_unique hstored hget
      refine ⟨sub', by rw [hput]; exact get_put_self, ?_⟩
      cases hmoves
      case replayed hlater => exact ⟨rfl, hlater.le⟩
      all_goals exact ⟨rfl, le_rfl⟩

theorem runInTime_generation (hs : s.Reachable) (hrun : RunInTime s s')
    (hstored : s.eventSubscriptions.get key = some sub) :
    ∃ sub', s'.eventSubscriptions.get key = some sub' ∧
      sub'.subscription = sub.subscription ∧ sub.generation ≤ sub'.generation := by
  refine StoreRunWhere.induction hrun hs ⟨sub, hstored, rfl, le_rfl⟩ fun t op ht hintime ih => ?_
  obtain ⟨middle, hmiddle, hsubscription, hle⟩ := ih
  obtain ⟨sub', hget, hsame, hle'⟩ := run_generation ht.attainable.keyed hintime hmiddle
  exact ⟨sub', hget, hsame.trans hsubscription, hle.trans hle'⟩

theorem poll_cursor
    (hpoll : s.pollEventSubscription scope subscriptionId maxItems now = .ok (.batch batch, s')) :
    ∃ sub active, s'.eventSubscriptions.get (scope, subscriptionId) = some sub ∧
      sub.active = some active ∧ batch.cursor = sub.cursor scope active := by
  obtain ⟨sub, hstored, hanswer⟩ := pollEventSubscription_answer hpoll
  cases hanswer
  case again active _ hactive _ => exact ⟨sub, active, hstored, hactive, rfl⟩
  case batch                    => exact ⟨_, _, get_put_self, rfl, rfl⟩

theorem requireActiveCursor_other (h : sub.Orderly scope)
    (hstored : s.eventSubscriptions.get (scope, subscriptionId) = some sub)
    (hother : sub.Foreign scope cursor) :
    s.requireActiveCursor scope subscriptionId cursor action = .error .conflict := by
  have hunused : sub.lastCursorAction.filter (·.1 = cursor.token) = none := by
    refine h.unused fun position attempt hattempt hbefore => hother position ?_ attempt hattempt
    obtain hle | ⟨active, hactive, rfl, -⟩ := hbefore
    · exact .inl hle
    · exact .inr ⟨active, hactive, rfl⟩
  rcases hactive : sub.active with _ | active
  case none => simp [requireActiveCursor, hstored, hunused, hactive]
  case some =>
    have hne := hother _ (.inr ⟨active, hactive, rfl⟩) active.attempt (h.ahead active hactive).2
    simp [requireActiveCursor, hstored, hunused, hactive, rejectIf, hne,
      MemoryEventSubscriptionState.cursor]

theorem foreign_refused {old : MemoryEventSubscriptionState} (h : sub.Orderly scope)
    (hstored : s.eventSubscriptions.get (scope, subscriptionId) = some sub)
    (hforeign : sub.Foreign scope (old.cursor scope active)) :
    (∃ e, s.acknowledgeEventCursor scope subscriptionId (old.cursor scope active) = .error e) ∧
      ∀ failureKind now, ∃ e, (s.rejectEventCursor scope subscriptionId (old.cursor scope active)
        failureKind now).1 = .error e := by
  refine ⟨?_, fun failureKind now => ?_⟩
  · rcases hack : s.acknowledgeEventCursor _ _ _ with e | answer
    case error => exact ⟨e, rfl⟩
    case ok =>
      simp only [acknowledgeEventCursor, bind_eq_ok] at hack
      obtain ⟨_, -, _, hfound, -⟩ := hack
      simp [requireActiveCursor_other h hstored hforeign] at hfound
  · rcases hprepared : s.prepareRejection _ _ _ failureKind now with e | found
    case error => exact ⟨e, by rw [rejectEventCursor, hprepared]⟩
    case ok =>
      simp only [prepareRejection, bind_eq_ok] at hprepared
      obtain ⟨_, -, _, -, _, hfound, -⟩ := hprepared
      simp [requireActiveCursor_other h hstored hforeign] at hfound

theorem retriesInTime_iff (op : StoreOp) :
    (op.FailsToConsume s → op.run s = s) ↔ op.RetriesInTime s := by
  constructor
  · intro hatomic
    cases op
    case rejectEventCursor scope subscriptionId cursor failureKind now =>
      intro sub active hfound hagain
      by_contra hlate
      obtain ⟨hfails, hchanged⟩ := rejectEventCursor_late hfound hagain (not_le.mp hlate)
      exact hchanged (hatomic hfails)
    all_goals exact trivial
  · intro hintime hfails
    rcases hop : op.subscription? with _ | ⟨scope, subscriptionId⟩
    case none =>
      cases op
      all_goals simp only [FailsToConsume, subscription?, reduceCtorEq] at hfails hop
    case some =>
      obtain hsame | ⟨hsucceeds, -⟩ := consumed_of_inTime hop hintime
      · exact hsame
      · exact absurd hfails hsucceeds

theorem acknowledge_polled (hstored : s.eventSubscriptions.get (scope, subscriptionId) = some sub)
    (hactive : sub.active = some active)
    (hunused : sub.lastCursorAction.filter (·.1 = (sub.cursor scope active).token) = none)
    (hpoll : s.pollEventSubscription scope subscriptionId maxItems now = .ok (.batch batch, s')) :
    ∃ s'', s'.acknowledgeEventCursor scope subscriptionId batch.cursor = .ok (.persisted, s'') := by
  obtain ⟨sub', hstored', hanswer⟩ := pollEventSubscription_answer hpoll
  obtain rfl := mem_unique hstored hstored'
  cases hanswer
  case batch hidle _ => simp [hidle] at hactive
  case again active' events hactive' _ =>
    obtain rfl := mem_unique hactive hactive'
    have hfound : s.requireActiveCursor scope subscriptionId (sub.cursor scope active) .acknowledge =
        .ok (some (sub, active)) :=
      requireActiveCursor_eq_some.mpr ⟨hstored, hactive, rfl, hunused⟩
    simp [acknowledgeEventCursor, validateEventConsumerCursor_cursor, hfound, Except.mapError]

end MemoryState

-- As long as every rejection that asks for a retry can get one, operations that fail change
-- nothing, and a batch that is outstanding can be acknowledged by whoever polls it.
theorem consumers_are_not_wedged
    (hrun : StoreRunWhere (fun s op => op.RetriesInTime s) .empty s) :
    (∀ op : StoreOp, (op.FailsToConsume s → op.run s = s) ↔ op.RetriesInTime s) ∧
      ∀ scope subscriptionId sub active,
        s.eventSubscriptions.get (scope, subscriptionId) = some sub → sub.active = some active →
        sub.CursorApart scope active → ∀ maxItems now batch s',
        s.pollEventSubscription scope subscriptionId maxItems now = .ok (.batch batch, s') →
        ∃ s'', s'.acknowledgeEventCursor scope subscriptionId batch.cursor =
          .ok (.persisted, s'') := by
  refine ⟨retriesInTime_iff, ?_⟩
  intro scope subscriptionId sub active hstored hactive hapart maxItems now batch s' hpoll
  have hunused := (subscriptionsOrderly hrun _ sub hstored).unused_outstanding hactive hapart
  exact acknowledge_polled hstored hactive hunused hpoll

-- A replay refuses every cursor from before it. From the first position on the subscription
-- completes what it selects, each event once and in order, until it is replayed again.
theorem replay_restarts_subscription {s₀ s₁ : MemoryState} {replayId : OpaqueId}
    (hrun : RunInTime .empty s₀)
    (hreplay : s₀.replayEventSubscription scope subscriptionId replayId = .ok (.persisted, s₁)) :
    (∀ earlier polled maxItems now batch old, RunInTime .empty earlier →
      earlier.pollEventSubscription scope subscriptionId maxItems now = .ok (.batch batch, polled) →
      polled.eventSubscriptions.get (scope, subscriptionId) = some old → RunInTime polled s₀ →
      ∀ s sub, RunInTime s₁ s → s.eventSubscriptions.get (scope, subscriptionId) = some sub →
        sub.GenerationsApart old scope →
        (∃ e, s.acknowledgeEventCursor scope subscriptionId batch.cursor = .error e) ∧
        ∀ failureKind now, ∃ e,
          (s.rejectEventCursor scope subscriptionId batch.cursor failureKind now).1 = .error e) ∧
    ∀ s d, UndisturbedRun (scope, subscriptionId) (s₁, .none) (s, d) →
      ∃ sub, s.eventSubscriptions.get (scope, subscriptionId) = some sub ∧
        sub.committedPosition ≤ s.eventOrder.length ∧
        (∀ key ∈ s.eventOrder, (s.events.get key).isSome) ∧
        d.completed.flatten = s.selected sub 0 sub.committedPosition ∧
        sub.deadLetters.map (·.event) = d.deadLettered.flatten := by
  have hafter : RunInTime .empty s₁ :=
    hrun.tail ⟨.replayEventSubscription scope subscriptionId replayId, trivial,
      by simp [run, hreplay, commit]⟩
  have hreachable := hafter.storeRun
  obtain ⟨⟨⟩, -⟩ | ⟨-, before, generation, hbefore, hlater, rfl⟩ := replayEventSubscription_spec hreplay
  constructor
  · intro earlier polled maxItems now batch old hearlier hpoll hold hpolled s sub hrest hstored hapart
    have hseen : RunInTime .empty polled := hearlier.tail
      ⟨.pollEventSubscription scope subscriptionId maxItems now, trivial, by simp [run, hpoll, commit]⟩
    obtain ⟨old', active, hold', hactive, hcursor⟩ := poll_cursor hpoll
    obtain rfl := mem_unique hold hold'
    obtain ⟨before', hbefore', -, hle⟩ := runInTime_generation hseen.storeRun hpolled hold
    obtain rfl := mem_unique hbefore hbefore'
    obtain ⟨sub', hsub, -, hge⟩ := runInTime_generation hreachable hrest get_put_self
    obtain rfl := mem_unique hstored hsub
    have hforeign := hapart active hactive (hle.trans_lt (hlater.trans_le hge)).ne'
    have horderly := subscriptionsOrderly (hafter.trans hrest) _ sub hstored
    rw [hcursor]
    exact foreign_refused horderly hstored hforeign
  · intro s d hundisturbed
    obtain ⟨hs, sub, h⟩ := InStep.undisturbed (.idle rfl rfl (Nat.zero_le _)) hreachable hundisturbed
    exact ⟨sub, h.stored, h.committed_le, hs.journalBacked, h.completed, h.deadLetters⟩

namespace Scenario

def lampFeed : EventSubscription :=
  { noteFeed with
    subscriptionId := named "lamp-feed"
    eventTypes := ["ucr.lamp"]
    maxAttempts := 2 }

def lampLit : EventEnvelope := journalEntry (named "lamp-lit") "ucr.lamp"

def lampReady : MemoryState :=
  empty.runAll [.persistEventSubscription ⟨tenant, alice⟩ lampFeed, .appendEvent lampLit]

-- The batch with the event is outstanding.
def lampStore : MemoryState :=
  empty.runAll [
    .persistEventSubscription ⟨tenant, alice⟩ lampFeed,
    .appendEvent lampLit,
    .pollEventSubscription tenant lampFeed.subscriptionId 10 0]

def lampBatch : MemoryEventActiveBatch := ⟨1, 1, 0⟩

def lampState : MemoryEventSubscriptionState :=
  { empty.newEventSubscription ⟨tenant, alice⟩ lampFeed with active := some lampBatch }

def lampReplayed : MemoryEventSubscriptionState :=
  { lampState with generation := 2, active := none, lastReplayId := some dawn }

def lampCursor : EventConsumerCursor := lampState.cursor tenant lampBatch

theorem lampStore_get :
    lampStore.eventSubscriptions.get (tenant, lampFeed.subscriptionId) = some lampState := by
  decide +kernel

theorem lampFeed_attempts (h : attempt ≤ lampFeed.maxAttempts) :
    ∃ n ∈ List.range 3, attempt = Fin.ofNat _ n := by
  have hmax : lampFeed.maxAttempts.val = 2 := by decide
  have hbound : attempt.val ≤ 2 := (Fin.le_def.mp h).trans_eq hmax
  exact ⟨attempt, List.mem_range.mpr (Nat.lt_succ_of_le hbound), (Fin.ofNat_val_eq_self attempt).symm⟩

theorem lampState_cursorApart : lampState.CursorApart tenant lampBatch := by
  have hfew : ∀ position ∈ List.range 2, ∀ attempt ∈ List.range 3,
      eventConsumerCursorToken tenant lampFeed 1 position (Fin.ofNat _ attempt) = lampCursor →
      position = 1 ∧ Fin.ofNat _ attempt = lampBatch.attempt := by
    decide +kernel
  intro position hposition attempt hattempt
  obtain ⟨n, hn, rfl⟩ := lampFeed_attempts hattempt
  exact hfew position (List.mem_range.mpr (Nat.lt_succ_of_le hposition)) n hn

def lampPolled : EventDeliveryBatch :=
  ⟨lampFeed.subscriptionId, tenant, [lampLit], lampCursor, 1⟩

end Scenario

open Scenario

theorem lamp_batch_can_be_acknowledged :
    lampStore.pollEventSubscription tenant lampFeed.subscriptionId 1 5 =
        .ok (.batch lampPolled, lampStore) ∧
      ∃ s, lampStore.acknowledgeEventCursor tenant lampFeed.subscriptionId lampCursor =
        .ok (.persisted, s) := by
  have hrun : StoreRunWhere (fun s op => op.RetriesInTime s) .empty lampStore :=
    RunsWhere.storeRunWhere ⟨trivial, trivial, trivial, trivial⟩
  have hpoll : lampStore.pollEventSubscription tenant lampFeed.subscriptionId 1 5 =
      .ok (.batch lampPolled, lampStore) := by
    rfl
  exact ⟨hpoll, (consumers_are_not_wedged hrun).2 tenant lampFeed.subscriptionId lampState lampBatch
    lampStore_get rfl lampState_cursorApart 1 5 lampPolled lampStore hpoll⟩

-- The batch was outstanding when the replay came.
theorem lamp_cursor_is_refused_after_replay :
    ∃ s, lampStore.replayEventSubscription tenant lampFeed.subscriptionId dawn = .ok (.persisted, s) ∧
      ∃ e, s.acknowledgeEventCursor tenant lampFeed.subscriptionId lampCursor = .error e := by
  have hearlier : RunInTime .empty lampReady := RunsWhere.storeRunWhere ⟨trivial, trivial, trivial⟩
  have hpoll : lampReady.pollEventSubscription tenant lampFeed.subscriptionId 10 0 =
      .ok (.batch lampPolled, lampStore) := by rfl
  have hrun : RunInTime .empty lampStore :=
    hearlier.tail ⟨.pollEventSubscription tenant lampFeed.subscriptionId 10 0, trivial, rfl⟩
  have hreplay : lampStore.replayEventSubscription tenant lampFeed.subscriptionId dawn =
      .ok (.persisted, (replayEventSubscription tenant lampFeed.subscriptionId dawn).run lampStore) := by
    rfl
  have hapart : lampReplayed.GenerationsApart lampState tenant := by
    have hfew : ∀ attempt ∈ List.range 3,
        eventConsumerCursorToken tenant lampFeed 2 0 (Fin.ofNat _ attempt) ≠ lampCursor := by
      decide +kernel
    rintro _ ⟨⟩ - position (hposition | ⟨_, ⟨⟩, -⟩) attempt hattempt
    obtain rfl := Nat.le_zero.mp hposition
    obtain ⟨n, hn, rfl⟩ := lampFeed_attempts hattempt
    exact hfew n hn
  exact ⟨_, hreplay, ((replay_restarts_subscription hrun hreplay).1 lampReady lampStore 10 0 lampPolled
    lampState hearlier hpoll lampStore_get .refl _ lampReplayed .refl (by decide +kernel) hapart).1⟩

-- The clock is at its end when the batch is rejected: an error, but the rejection was noted, and
-- the cursor of the batch, which is still outstanding, is refused from then on.
theorem lamp_feed_is_wedged :
    lampStore.Reachable ∧
      (lampStore.rejectEventCursor tenant lampFeed.subscriptionId lampCursor .retryable maxI64).1 =
        .error .invalidRecord ∧
      let s := (rejectEventCursor tenant lampFeed.subscriptionId lampCursor .retryable
        maxI64).run lampStore
      s.eventSubscriptions.get (tenant, lampFeed.subscriptionId) =
        some { lampState with lastCursorAction := some (lampCursor.token, .reject) } ∧
      (s.pollEventSubscription tenant lampFeed.subscriptionId 1 5).map Prod.fst =
        .ok (.batch lampPolled) ∧
      (s.acknowledgeEventCursor tenant lampFeed.subscriptionId lampCursor).map Prod.fst =
        .error .conflict := by
  refine ⟨storeRun_runAll _ _, ?_, ?_, ?_, ?_⟩ <;> decide +kernel

end Ucr
