import Ucr.Store.Theorems.EventIds

-- The batches a subscription completes, put together, are the journal as far as it is committed.

namespace Ucr

open Except Relation MemoryState

variable {s s' : MemoryState} {sub sub' : MemoryEventSubscriptionState} {key : ScopedId}
  {scope : TenantScope} {subscriptionId : EventSubscriptionId} {start : ℕ}

structure Delivery where
  handed : List EventEnvelope
  completed : List (List EventEnvelope)
  deadLettered : List (List EventEnvelope)

namespace Delivery

def none : Delivery := ⟨[], [], []⟩

def hand (d : Delivery) (events : List EventEnvelope) : Delivery :=
  { d with handed := events }

def complete (d : Delivery) : Delivery :=
  { d with completed := d.completed ++ [d.handed] }

def deadLetter (d : Delivery) : Delivery :=
  { d.complete with deadLettered := d.deadLettered ++ [d.handed] }

-- The consumer of the subscription watches the answers to its operations. The batch handed out last
-- is completed by an acknowledgement that is accepted, and by an accepted rejection after which the
-- subscription has no batch outstanding.
def step (key : ScopedId) (s : MemoryState) (d : Delivery) (op : StoreOp) : Delivery :=
  if op.subscription? = some key then
    match op with
    | .pollEventSubscription scope subscriptionId maxItems nowUnixMs =>
      match s.pollEventSubscription scope subscriptionId maxItems nowUnixMs with
      | .ok (.batch batch, _) => d.hand batch.events
      | _ => d
    | .acknowledgeEventCursor scope subscriptionId cursor =>
      match s.acknowledgeEventCursor scope subscriptionId cursor with
      | .ok (.persisted, _) => d.complete
      | _ => d
    | .rejectEventCursor scope subscriptionId cursor failureKind nowUnixMs =>
      match s.rejectEventCursor scope subscriptionId cursor failureKind nowUnixMs with
      | (.ok .persisted, s') =>
        if (s'.eventSubscriptions.get key).any (·.active.isNone) then d.deadLetter else d
      | _ => d
    | _ => d
  else
    d

end Delivery

def StoreOp.Replays (op : StoreOp) (key : ScopedId) : Prop :=
  match op with
  | .replayEventSubscription scope subscriptionId _ => (scope, subscriptionId) = key
  | _ => False

instance (op : StoreOp) (key : ScopedId) : Decidable (op.Replays key) := by
  unfold StoreOp.Replays
  split <;> infer_instance

abbrev DeliveryRun (key : ScopedId) :=
  ReflTransGen fun x y : MemoryState × Delivery =>
    ∃ op : StoreOp, ¬op.Replays key ∧ y = (op.run x.1, x.2.step key x.1 op)

-- What only a replay changes of a subscription, if anything does.
def MemoryEventSubscriptionState.fixed (sub : MemoryEventSubscriptionState) :
    EventSubscription × ScopedPrincipal × Option OpaqueId :=
  (sub.subscription, sub.owner, sub.lastReplayId)

-- A run in which no replay takes effect.
abbrev UndisturbedRun (key : ScopedId) :=
  ReflTransGen fun x y : MemoryState × Delivery =>
    ∃ op : StoreOp, (op.Replays key → op.run x.1 = x.1) ∧ y = (op.run x.1, x.2.step key x.1 op)

namespace MemoryState

open MemoryEventSubscriptionState

section Journal

def JournalBacked (s : MemoryState) : Prop :=
  ∀ key ∈ s.eventOrder, (s.events.get key).isSome

theorem run_other (hs : s.Keyed) (op : StoreOp) (hop : op.subscription? ≠ some key) :
    (op.run s).eventSubscriptions.get key = s.eventSubscriptions.get key := by
  have hcases := run_cases hs op
  split at hcases
  case h_1 key' heq =>
    obtain hsame | ⟨sub, hput⟩ := hcases
    · rw [hsame]
    · have hne : key ≠ key' := fun h => hop (h ▸ heq)
      rw [hput, putSubscription, Table.get_put_ne hne]
  case h_2 => rw [hcases.eventsGrow.subscriptions]

theorem Reachable.journalBacked (hs : s.Reachable) : s.JournalBacked :=
  fun key hkey => (hs.ledgersSound.listed key).mp hkey

theorem selected_eq_of_extends (h : s.toEventLedgers.Extends s'.toEventLedgers)
    (hbacked : s.JournalBacked) (hstop : stop ≤ s.eventOrder.length) :
    s'.selected sub start stop = s.selected sub start stop := by
  have hevents : ∀ key ∈ s.eventOrder.between start stop, s'.events.get key = s.events.get key :=
    fun key hkey => by
      have hmem : key ∈ s.eventOrder := List.mem_of_mem_take (List.mem_of_mem_drop hkey)
      obtain ⟨event, hevent⟩ := Option.isSome_iff_exists.mp (hbacked key hmem)
      rw [hevent, h.events key event hevent]
  rw [selected, selected, List.between_of_prefix h.order hstop, selectedAmong, selectedAmong,
    List.filterMap_congr hevents]

theorem selected_congr (hfixed : sub'.fixed = sub.fixed) :
    s.selected sub' start stop = s.selected sub start stop := by
  obtain ⟨hsubscription, howner, -⟩ := by simpa only [fixed, Prod.mk.injEq] using hfixed
  have hselects : sub'.selects = sub.selects := by
    funext event
    rw [selects, selects, hsubscription, howner]
  rw [selected, selected, selectedAmong, selectedAmong, hselects]

theorem selected_trans (hstart : start ≤ middle) (hstop : middle ≤ stop) :
    s.selected sub start middle ++ s.selected sub middle stop = s.selected sub start stop := by
  rw [selected, selected, selected, ← List.between_trans hstart hstop, selectedAmong_append]

end Journal

-- The consumer and the subscription agree. `created` is the subscription as it was at the
-- beginning.
structure InStep (s : MemoryState) (key : ScopedId) (created sub : MemoryEventSubscriptionState)
    (d : Delivery) : Prop where
  stored : s.eventSubscriptions.get key = some sub
  fixed : sub.fixed = created.fixed
  start_le : created.committedPosition ≤ sub.committedPosition
  committed_le : sub.committedPosition ≤ s.eventOrder.length
  completed :
    d.completed.flatten = s.selected sub created.committedPosition sub.committedPosition
  deadLetters  : sub.deadLetters.map (·.event) = d.deadLettered.flatten
  outstanding  : ∀ active, sub.active = some active →
    sub.committedPosition ≤ active.endPosition ∧ active.endPosition ≤ s.eventOrder.length ∧
      d.handed = s.selected sub sub.committedPosition active.endPosition

namespace InStep

variable {d' : Delivery}

theorem grow (h : s.InStep key created sub d) (hgrow : s.toEventLedgers.Extends s'.toEventLedgers)
    (hbacked : s.JournalBacked)
    (hstored : s'.eventSubscriptions.get key = s.eventSubscriptions.get key) :
    s'.InStep key created sub d where
  stored := hstored.trans h.stored
  fixed := h.fixed
  start_le := h.start_le
  committed_le := h.committed_le.trans hgrow.order.length_le
  completed := by rw [selected_eq_of_extends hgrow hbacked h.committed_le, h.completed]
  deadLetters := h.deadLetters
  outstanding := fun active hactive => by
    obtain ⟨hstart, hstop, hhanded⟩ := h.outstanding active hactive
    exact ⟨hstart, hstop.trans hgrow.order.length_le,
      by rw [selected_eq_of_extends hgrow hbacked hstop, hhanded]⟩

-- The subscription moves on to the end of what it has handed out, which is completed.
theorem advance (h : s.InStep key created sub d) (hfixed : sub'.fixed = sub.fixed)
    (hidle : sub'.active = none)
    (hstart : sub.committedPosition ≤ sub'.committedPosition)
    (hstop : sub'.committedPosition ≤ s.eventOrder.length)
    (hcompleted : d'.completed.flatten =
      d.completed.flatten ++ s.selected sub sub.committedPosition sub'.committedPosition)
    (hletters : sub'.deadLetters.map (·.event) = d'.deadLettered.flatten) :
    (s.putSubscription key sub').InStep key created sub' d' where
  stored := Table.get_put_self
  fixed := hfixed.trans h.fixed
  start_le := h.start_le.trans hstart
  committed_le := hstop
  completed := by
    rw [hcompleted, h.completed, selected_trans h.start_le hstart]
    exact (selected_congr hfixed).symm
  deadLetters  := hletters
  outstanding  := by simp [hidle]

-- The subscription stays where it is, with a batch outstanding that the consumer has.
theorem hand (h : s.InStep key created sub d) {active} (hfixed : sub'.fixed = sub.fixed)
    (hactive : sub'.active = some active)
    (hcommitted : sub'.committedPosition = sub.committedPosition)
    (hstart : sub.committedPosition ≤ active.endPosition)
    (hstop : active.endPosition ≤ s.eventOrder.length)
    (hletters : sub'.deadLetters = sub.deadLetters) (hcompleted : d'.completed = d.completed)
    (hdead : d'.deadLettered = d.deadLettered)
    (hhanded : d'.handed = s.selected sub sub.committedPosition active.endPosition) :
    (s.putSubscription key sub').InStep key created sub' d' where
  stored := Table.get_put_self
  fixed := hfixed.trans h.fixed
  start_le := hcommitted ▸ h.start_le
  committed_le := hcommitted ▸ h.committed_le
  completed := by
    rw [hcompleted, hcommitted, h.completed]
    exact (selected_congr hfixed).symm
  deadLetters  := by rw [hletters, hdead, h.deadLetters]
  outstanding  := fun active' hactive' => by
    obtain rfl : active = active' := by simpa [hactive] using hactive'
    refine ⟨hcommitted ▸ hstart, hstop, ?_⟩
    rw [hhanded, hcommitted]
    exact (selected_congr hfixed).symm

-- The operations on the subscription itself. The others are covered by `grow`.
theorem run_poll (h : s.InStep (scope, subscriptionId) created sub d) (maxItems : ℕ) (now : ℤ) :
    let op := StoreOp.pollEventSubscription scope subscriptionId maxItems now
    ∃ sub', (op.run s).InStep (scope, subscriptionId) created sub'
      (d.step (scope, subscriptionId) s op) := by
  simp only [StoreOp.run, Delivery.step, StoreOp.subscription?, if_true]
  cases hpoll : s.pollEventSubscription scope subscriptionId maxItems now
  case error => exact ⟨sub, h⟩
  case ok answer =>
    obtain ⟨result, s'⟩ := answer
    obtain ⟨stored, hstored, hanswer⟩ := pollEventSubscription_answer hpoll
    obtain rfl := Option.mem_unique h.stored hstored
    cases hanswer
    case waiting => exact ⟨sub, h⟩
    case again active events hactive hcomputed =>
      obtain ⟨hstart, hstop, -⟩ := h.outstanding active hactive
      refine ⟨sub, { h with outstanding := fun active' hactive' => ?_ }⟩
      obtain rfl := Option.mem_unique hactive hactive'
      exact ⟨hstart, hstop, memoryActiveEvents_spec hcomputed⟩
    case empty limit hidle hcomputed =>
      obtain ⟨hstart, hnothing⟩ := memoryNextEventBatch_none hcomputed
      exact ⟨_, h.advance rfl hidle hstart le_rfl (by simp [hnothing]) h.deadLetters⟩
    case batch limit endPosition events hidle hcomputed =>
      obtain ⟨hstart, hstop, hevents⟩ := memoryNextEventBatch_some hcomputed
      exact ⟨_, h.hand rfl rfl rfl hstart.le hstop rfl rfl rfl hevents⟩

theorem run_acknowledge (h : s.InStep (scope, subscriptionId) created sub d)
    (cursor : EventConsumerCursor) :
    let op := StoreOp.acknowledgeEventCursor scope subscriptionId cursor
    ∃ sub', (op.run s).InStep (scope, subscriptionId) created sub'
      (d.step (scope, subscriptionId) s op) := by
  simp only [StoreOp.run, Delivery.step, StoreOp.subscription?, if_true]
  cases hacknowledge : s.acknowledgeEventCursor scope subscriptionId cursor
  case error => exact ⟨sub, h⟩
  case ok answer =>
    obtain ⟨status, s'⟩ := answer
    obtain ⟨rfl, rfl⟩ | ⟨rfl, stored, active, hfound, rfl⟩ :=
      acknowledgeEventCursor_spec hacknowledge
    · exact ⟨sub, h⟩
    · obtain rfl := Option.mem_unique h.stored hfound.stored
      obtain ⟨hstart, hstop, hhanded⟩ := h.outstanding active hfound.batch
      exact ⟨_, h.advance rfl rfl hstart hstop (by simp [Delivery.complete, hhanded])
        h.deadLetters⟩

theorem run_reject (h : s.InStep (scope, subscriptionId) created sub d)
    (cursor : EventConsumerCursor) (failureKind : EventDeliveryFailureKind) (now : ℤ) :
    let op := StoreOp.rejectEventCursor scope subscriptionId cursor failureKind now
    ∃ sub', (op.run s).InStep (scope, subscriptionId) created sub'
      (d.step (scope, subscriptionId) s op) := by
  simp only [StoreOp.run, Delivery.step, StoreOp.subscription?, if_true]
  have hanswer := rejectEventCursor_answer s scope subscriptionId cursor failureKind now
  revert hanswer
  generalize s.rejectEventCursor scope subscriptionId cursor failureKind now = answer
  rintro (⟨result, hrefused⟩ | ⟨stored, active, dead, hfound, hdead⟩ |
    ⟨stored, active, retry, hfound, -, hretry⟩ | ⟨stored, active, e, hfound, -, -⟩)
  case unchanged =>
    refine ⟨sub, ?_⟩
    split
    case h_1 hpersisted => exact absurd (Prod.mk.inj hpersisted).1 hrefused
    case h_2            => exact h
  all_goals
    obtain rfl := Option.mem_unique h.stored hfound.stored
    obtain ⟨hstart, hstop, hhanded⟩ := h.outstanding active hfound.batch
  case terminal =>
    have hevents := memoryActiveEvents_spec hdead
    simp only [putSubscription, Table.get_put_self, Option.any_some, Option.isNone_none, if_true]
    refine ⟨_, h.advance rfl rfl hstart hstop ?_ ?_⟩
    · simp [Delivery.deadLetter, Delivery.complete, hhanded]
    · simp [Delivery.deadLetter, h.deadLetters, hhanded, ← hevents, Function.comp_def]
  case retried =>
    obtain ⟨hsame, -⟩ := retryBatch_spec hretry
    simp only [putSubscription, Table.get_put_self, Option.any_some, Option.isNone_some,
      Bool.false_eq_true, if_false]
    exact ⟨_, h.hand rfl rfl rfl (hsame ▸ hstart) (hsame ▸ hstop) rfl rfl rfl (hsame ▸ hhanded)⟩
  case late => exact ⟨_, h.hand rfl hfound.batch rfl hstart hstop rfl rfl rfl hhanded⟩

theorem run_persist (h : s.InStep key created sub d) (owner : ScopedPrincipal) {subscription}
    (hkey : (subscription.scope, subscription.subscriptionId) = key) :
    ((StoreOp.persistEventSubscription owner subscription).run s).InStep key created sub d := by
  refine commit_snd_cases (motive := fun s' : MemoryState => s'.InStep key created sub d) h
    fun status s' hok => ?_
  obtain ⟨-, rfl⟩ | ⟨-, canonical, -, hfresh, -⟩ := persistEventSubscription_spec hok
  · exact h
  · rw [hkey, h.stored] at hfresh
    simp at hfresh

theorem run (h : s.InStep key created sub d) (hs : s.Keyed) (hbacked : s.JournalBacked)
    (op : StoreOp) (hop : ¬op.Replays key) :
    ∃ sub', (op.run s).InStep key created sub' (d.step key s op) := by
  by_cases hkey : op.subscription? = some key
  case neg =>
    unfold Delivery.step
    rw [if_neg hkey]
    exact ⟨sub, h.grow (run_records hs op).extends hbacked (run_other hs op hkey)⟩
  case pos =>
    cases op <;> simp only [StoreOp.subscription?, reduceCtorEq, Option.some.injEq] at hkey
    all_goals subst hkey
    case persistEventSubscription owner subscription =>
      exact ⟨sub, by simpa [Delivery.step] using h.run_persist owner rfl⟩
    case pollEventSubscription    => exact h.run_poll ..
    case acknowledgeEventCursor   => exact h.run_acknowledge _
    case rejectEventCursor        => exact h.run_reject ..
    case replayEventSubscription  => exact absurd rfl hop

theorem undisturbed (h : s.InStep key created sub d) (hs : s.Reachable)
    (hrun : UndisturbedRun key (s, d) x) :
    x.1.Reachable ∧ ∃ sub', x.1.InStep key created sub' x.2 := by
  induction hrun
  case refl => exact ⟨hs, sub, h⟩
  case tail y _ _ hstep ih =>
    obtain ⟨hreachable, sub', hbefore⟩ := ih
    obtain ⟨op, hop, rfl⟩ := hstep
    refine ⟨hreachable.tail ⟨op, rfl⟩, ?_⟩
    by_cases hreplays : op.Replays key
    case neg => exact hbefore.run hreachable.attainable.keyed hreachable.journalBacked op hreplays
    case pos =>
      have hsame : y.2.step key y.1 op = y.2 := by
        cases op <;> simp only [StoreOp.Replays] at hreplays
        simp [Delivery.step]
      exact ⟨sub', by rwa [hop hreplays, hsame]⟩

theorem idle (hidle : sub.active = none) (hletters : sub.deadLetters = [])
    (hle : sub.committedPosition ≤ s.eventOrder.length) :
    (s.putSubscription key sub).InStep key sub sub .none where
  stored := Table.get_put_self
  fixed := rfl
  start_le := le_rfl
  committed_le := hle
  completed    := by simp [Delivery.none, selected, selectedAmong]
  deadLetters  := by simp [hletters, Delivery.none]
  outstanding  := by simp [hidle]

theorem duplicate (h : s.InStep key created sub d) (hlast : created.lastReplayId = some replayId) :
    s.replayEventSubscription key.1 key.2 replayId = .ok (.duplicate, s) := by
  have hlast : sub.lastReplayId = some replayId := (congrArg (·.2.2) h.fixed).trans hlast
  simp [replayEventSubscription, h.stored, hlast]

-- As long as no other replay is asked for, the subscription knows the last one when it is retried.
theorem retried (h : s.InStep key created sub d) (hs : s.Reachable)
    (hlast : created.lastReplayId = some replayId)
    (hturn : ∀ op ∈ ops, ∀ other,
      op = .replayEventSubscription key.1 key.2 other → other = replayId) :
    (s.runAll ops).replayEventSubscription key.1 key.2 replayId = .ok (.duplicate, s.runAll ops) := by
  induction ops generalizing s sub d
  case nil => exact h.duplicate hlast
  case cons op ops ih =>
    obtain ⟨hfirst, hrest⟩ := List.forall_mem_cons.mp hturn
    have hafter : ∃ sub' d', (op.run s).InStep key created sub' d' := by
      by_cases hop : op.Replays key
      case neg =>
        obtain ⟨sub', hafter⟩ := h.run hs.attainable.keyed hs.journalBacked op hop
        exact ⟨sub', _, hafter⟩
      case pos =>
        cases op <;> simp only [StoreOp.Replays] at hop
        subst hop
        obtain rfl := hfirst _ rfl
        exact ⟨sub, d, by simpa [StoreOp.run, h.duplicate hlast, commit] using h⟩
    obtain ⟨sub', d', hafter⟩ := hafter
    exact ih hafter (hs.tail ⟨op, rfl⟩) hrest

end InStep

end MemoryState

-- From its creation on, and as long as it is not replayed, a subscription completes exactly the
-- events it selects between where it started and where it is, each of them once and in order.
theorem delivery_is_gap_free {s₀ s₁ s : MemoryState} {d : Delivery} {owner : ScopedPrincipal}
    {subscription : EventSubscription} (hs : s₀.Reachable)
    (hcreated : s₀.persistEventSubscription owner subscription = .ok (.persisted, s₁))
    (hrun : DeliveryRun (subscription.scope, subscription.subscriptionId) (s₁, .none) (s, d)) :
    let start := s₀.startPosition subscription.start
    ∃ sub, s.eventSubscriptions.get (subscription.scope, subscription.subscriptionId) = some sub ∧
      canonicalEventSubscription subscription = .ok sub.subscription ∧ sub.owner = owner ∧
      start ≤ sub.committedPosition ∧ sub.committedPosition ≤ s.eventOrder.length ∧
      (∀ key ∈ s.eventOrder, (s.events.get key).isSome) ∧
      d.completed.flatten = s.selected sub start sub.committedPosition ∧
      sub.deadLetters.map (·.event) = d.deadLettered.flatten := by
  obtain ⟨hduplicate, -⟩ | ⟨-, canonical, hcanonical, -, rfl⟩ :=
    persistEventSubscription_spec hcreated
  case inl => cases hduplicate
  case inr =>
    have hfirst := hs.tail ⟨.persistEventSubscription owner subscription, rfl⟩
    simp only [StoreOp.run, hcreated, commit] at hfirst
    have hstarts : s₀.startPosition canonical.start ≤ s₀.eventOrder.length := by
      cases canonical.start <;> simp [startPosition]
    obtain ⟨hreachable, sub, h⟩ := InStep.undisturbed (.idle rfl rfl hstarts) hfirst <| by
      refine hrun.lift id ?_
      rintro _ _ ⟨op, hop, heq⟩
      exact ⟨op, fun h => absurd h hop, heq⟩
    obtain ⟨hsubscription, hrest⟩ := Prod.mk.inj h.fixed
    have hstart : canonical.start = subscription.start := by
      simp only [canonicalEventSubscription, ok_iff] at hcanonical
      obtain ⟨-, -, rfl⟩ := hcanonical
      rfl
    rw [← hstart]
    exact ⟨sub, h.stored, hsubscription ▸ hcanonical, (Prod.mk.inj hrest).1, h.start_le, h.committed_le,
      hreachable.journalBacked, h.completed, h.deadLetters⟩

-- The same run, computed.
def Delivery.watch (key : ScopedId) (x : MemoryState × Delivery) (ops : List StoreOp) :
    MemoryState × Delivery :=
  ops.foldl (fun x op => (op.run x.1, x.2.step key x.1 op)) x

theorem Delivery.deliveryRun_watch (h : ∀ op ∈ ops, ¬op.Replays key) (x : MemoryState × Delivery) :
    DeliveryRun key x (watch key x ops) := by
  induction ops generalizing x
  case nil => exact .refl
  case cons op ops ih =>
    exact .head ⟨op, h op List.mem_cons_self, rfl⟩
      (ih (fun op hop => h op (List.mem_cons_of_mem _ hop)) _)

namespace Scenario

-- Alice subscribes to notes, one at a time, and does not want a note twice.
def noteFeed : EventSubscription where
  subscriptionId := named "note-feed"
  scope := tenant
  mode := .durableStream
  webhookUri := none
  eventTypes := ["ucr.note"]
  maxInFlight := 1
  maxAttempts := 1
  start := .beginning

def firstNote : EventEnvelope := journalEntry (named "first-note") "ucr.note"
def photo : EventEnvelope := journalEntry (named "photo") "ucr.photo"
def secondNote : EventEnvelope := journalEntry (named "second-note") "ucr.note"

def noteFeedKey : ScopedId := (tenant, noteFeed.subscriptionId)

-- The cursor of a batch that ends at a position.
def noteCursor (generation : U64) (endPosition : ℕ) : EventConsumerCursor :=
  eventConsumerCursorToken tenant noteFeed generation endPosition 1

def noteStore : MemoryState :=
  empty.runAll [.persistEventSubscription ⟨tenant, alice⟩ noteFeed]

-- The first note is acknowledged. The second one, behind a photo, is rejected.
def noteOps : List StoreOp := [
  .appendEvent firstNote,
  .appendEvent photo,
  .pollEventSubscription tenant noteFeed.subscriptionId 10 0,
  .appendEvent secondNote,
  .acknowledgeEventCursor tenant noteFeed.subscriptionId (noteCursor 1 1),
  .pollEventSubscription tenant noteFeed.subscriptionId 10 1,
  .rejectEventCursor tenant noteFeed.subscriptionId (noteCursor 1 3) .permanent 2]

def noteRun : MemoryState × Delivery :=
  Delivery.watch noteFeedKey (noteStore, .none) noteOps

end Scenario

open Scenario

theorem notes_are_delivered :
    ∃ sub, noteRun.1.eventSubscriptions.get noteFeedKey = some sub ∧
      noteRun.1.selected sub 0 sub.committedPosition =
        [firstNote, secondNote] ∧
      sub.deadLetters.map (·.event) = [secondNote] := by
  have hcreated : empty.persistEventSubscription ⟨tenant, alice⟩
      noteFeed = .ok (.persisted, noteStore) := by rfl
  have hrun : DeliveryRun noteFeedKey (noteStore, .none) noteRun :=
    Delivery.deliveryRun_watch (by decide) _
  obtain ⟨sub, hstored, -, -, -, -, -, hcompleted, hletters⟩ :=
    delivery_is_gap_free .refl hcreated hrun
  refine ⟨sub, hstored, hcompleted.symm.trans ?_, hletters.trans ?_⟩
  · decide +kernel
  · decide +kernel

-- A replay that took effect does not take effect again when the request is retried, as long as no
-- other replay of the subscription is asked for before. Only the last one is remembered.
theorem replays_take_effect_once {replayId : OpaqueId} {between : List StoreOp} (hs : s.Reachable)
    (hdone : s.replayEventSubscription scope subscriptionId replayId = .ok (.persisted, s'))
    (hturn : ∀ op ∈ between, ∀ other,
      op = .replayEventSubscription scope subscriptionId other → other = replayId) :
    (s'.runAll between).replayEventSubscription scope subscriptionId replayId =
      .ok (.duplicate, s'.runAll between) := by
  have hafter := hs.tail ⟨.replayEventSubscription scope subscriptionId replayId, rfl⟩
  simp only [StoreOp.run, hdone, commit] at hafter
  obtain ⟨⟨⟩, -⟩ | ⟨-, sub, generation, -, -, rfl⟩ := replayEventSubscription_spec hdone
  exact InStep.retried (.idle rfl rfl (Nat.zero_le _)) hafter rfl hturn

namespace Scenario

def dawn : OpaqueId := named "dawn"
def dusk : OpaqueId := named "dusk"

def replayNotes (replayId : OpaqueId) : StoreOp :=
  .replayEventSubscription tenant noteFeed.subscriptionId replayId

def replayAnswer (s : MemoryState) (replayId : OpaqueId) :
    StoreResult DurableRecordStatus :=
  (s.replayEventSubscription tenant noteFeed.subscriptionId replayId).map Prod.fst

-- After the replay the first note is rejected as well.
def rereadNotes : List StoreOp := [
  .pollEventSubscription tenant noteFeed.subscriptionId 10 3,
  .rejectEventCursor tenant noteFeed.subscriptionId (noteCursor 2 1) .permanent 4,
  .pollEventSubscription tenant noteFeed.subscriptionId 10 5]

end Scenario

theorem replayNotes_run (h : replayAnswer s replayId = .ok status) :
    s.replayEventSubscription tenant noteFeed.subscriptionId replayId =
      .ok (status, (replayNotes replayId).run s) := by
  obtain ⟨⟨_, s'⟩, hok, rfl⟩ := map_eq_ok.mp h
  simp [replayNotes, StoreOp.run, hok, commit]

theorem notes_are_replayed_once :
    let s := noteStore.runAll noteOps
    let s' := s.runAll (replayNotes dawn :: rereadNotes)
    replayAnswer s dawn = .ok .persisted ∧ replayAnswer s' dawn = .ok .duplicate ∧
      (s'.eventSubscriptions.get noteFeedKey).map (·.deadLetters.map (·.event)) = some [firstNote] := by
  intro s s'
  have hdone : replayAnswer s dawn = .ok .persisted := by decide +kernel
  have hs : s.Reachable := (storeRun_runAll ..).trans (storeRun_runAll ..)
  have hretry := @replays_take_effect_once _ _ _ _ _ rereadNotes hs (replayNotes_run hdone)
    (by simp [rereadNotes])
  exact ⟨hdone, congrArg (Except.map Prod.fst) hretry, by decide +kernel⟩

-- Another replay comes before the retry, which takes effect again.
theorem notes_are_replayed_again :
    noteStore.Reachable ∧ replayAnswer noteStore dawn = .ok .persisted ∧
      replayAnswer (noteStore.runAll [replayNotes dawn, replayNotes dusk]) dawn = .ok .persisted := by
  refine ⟨storeRun_runAll _ _, ?_, ?_⟩ <;> decide +kernel

end Ucr
