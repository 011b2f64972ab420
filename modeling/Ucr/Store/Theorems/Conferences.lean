import Ucr.Store.Theorems.OpEffects

-- A conference announces once that it starts and once that it ends, provided that whoever repeats a
-- call repeats its event, and nobody else has used the event before.

namespace Ucr

open Except MemoryState List Option

variable {s s' : MemoryState}

structure LifecycleCall where
  scope : TenantScope
  conferenceId : GroupId
  expectedRevision : U64
  lifecycle : UniversalConferenceLifecycle
  entryOpen : Bool
  event : Option EventEnvelope

namespace LifecycleCall

def key (c : LifecycleCall) : ScopedId :=
  (c.scope, c.conferenceId)

def run (c : LifecycleCall) (s : MemoryState) : MemoryState :=
  (s.transitionUniversalConferenceWithEvent c.scope c.conferenceId c.expectedRevision c.lifecycle
    c.entryOpen c.event).2

end LifecycleCall

def StoreOp.lifecycleCall : StoreOp → Option LifecycleCall
  | .conference (.transitionUniversalConferenceWithEvent scope conferenceId expectedRevision lifecycle
      entryOpen event) => some ⟨scope, conferenceId, expectedRevision, lifecycle, entryOpen, event⟩
  | _ => none

theorem StoreOp.run_lifecycleCall {op : StoreOp} (h : op.lifecycleCall = some c) :
    op.run s = c.run s := by
  simp only [StoreOp.lifecycleCall] at h
  split at h
  case h_1 => cases h; rfl
  case h_2 => cases h

def lifecycleOf (s : MemoryState) (key : ScopedId) : Option UniversalConferenceLifecycle :=
  (s.universalConferences.get key).map (·.lifecycle)

def gained (s s' : MemoryState) : List EventEnvelope :=
  (s'.eventOrder.drop s.eventOrder.length).filterMap s'.events.get

-- What the calls for a conference have added to the journal.
def announced (key : ScopedId) : MemoryState → List StoreOp → List EventEnvelope
  | _, [] => []
  | s, op :: ops =>
    (if op.lifecycleCall.any (·.key = key) then gained s (op.run s) else []) ++
      announced key (op.run s) ops

-- Conferences change their lifecycle through these calls only.
def OnlyByCalls (s : MemoryState) (op : StoreOp) : Prop :=
  op.lifecycleCall = none → ∀ key lifecycle, lifecycleOf s key = some lifecycle →
    lifecycleOf (op.run s) key = some lifecycle

-- A call that was made before comes with an event of the journal, and one that can take the
-- conference on with a new one. All other calls are refused, whatever they come with.
def LifecycleCall.Repeats (c : LifecycleCall) (s : MemoryState) : Prop :=
  ∀ event current, c.event = some event → s.universalConferences.get c.key = some current →
    if transitionApplied current c.expectedRevision c.lifecycle c.entryOpen then
      (s.events.get event.key).isSome
    else
      current.revision = c.expectedRevision →
        validUniversalConferenceTransition current.lifecycle c.lifecycle →
          s.events.get event.key = none

def RepeatsEvent (s : MemoryState) (op : StoreOp) : Prop :=
  ∀ c, op.lifecycleCall = some c → c.Repeats s

variable {event : EventEnvelope} {c : LifecycleCall} {key : ScopedId} {op : StoreOp}
  {ops : List StoreOp}

theorem gained_same (h : s'.eventOrder = s.eventOrder) : gained s s' = [] := by
  rw [gained, h, drop_length, filterMap_nil]

theorem gained_journalEvent :
    gained s ({ s with toConferenceTables := tables }.journalEvent event) = [event] := by
  simp [gained, journalEvent, Table.get_put_self]

theorem lifecycleOf_put :
    lifecycleOf { s with universalConferences := s.universalConferences.put c.key current } key =
      if key = c.key then some current.lifecycle else lifecycleOf s key := by
  rw [lifecycleOf, Table.get_put]
  split <;> rfl

-- What a call can do, if it carries the event it should.
inductive Moves (s : MemoryState) (c : LifecycleCall) (s' : MemoryState) : Prop
  | nothing : gained s s' = [] → (∀ key, lifecycleOf s' key = lifecycleOf s key) → Moves s c s'
  | on (previous) : lifecycleOf s c.key = some previous →
      validUniversalConferenceTransition previous c.lifecycle →
      (gained s s').map (·.eventType) = (conferenceLifecycleEventType c.lifecycle).toList →
      (∀ key, lifecycleOf s' key = if key = c.key then some c.lifecycle else lifecycleOf s key) →
      Moves s c s'

variable {lifecycle : UniversalConferenceLifecycle} {event? : Option EventEnvelope}

theorem validateConferenceLifecycleEvent_ok
    (h : validateConferenceLifecycleEvent current expectedRevision lifecycle event? = .ok ()) :
    event?.map (·.eventType) = conferenceLifecycleEventType lifecycle := by
  simp only [validateConferenceLifecycleEvent] at h
  split at h
  case h_1 htype => exact htype.symm
  case h_2 expectedType event htype =>
    simp only [ok_iff, not_not] at h
    obtain ⟨-, hevent, -⟩ := h
    rw [htype, map_some, hevent.2.1]
  case h_3 => cases h

theorem nextConferenceRevision_ok
    (h : s.nextConferenceRevision current scope expectedRevision lifecycle event? = .ok revision) :
    current.revision = expectedRevision ∧
      validUniversalConferenceTransition current.lifecycle lifecycle := by
  simp only [nextConferenceRevision, ok_iff, not_or, not_not] at h
  obtain ⟨-, hallowed, -⟩ := h
  exact hallowed

theorem appendOptionalEvent_moves {next}
    (hfresh : ∀ event, event? = some event → s.events.get event.key = none)
    (h : appendOptionalEvent
      { s with universalConferences := s.universalConferences.put c.key next } event? = .ok s') :
    (gained s s').map (·.eventType) = (event?.map (·.eventType)).toList ∧
      ∀ key, lifecycleOf s' key = if key = c.key then some next.lifecycle else lifecycleOf s key := by
  cases event?
  case none =>
    cases pure_eq_ok.mp h
    exact ⟨by rw [gained_same (by rfl)]; rfl, fun _ => lifecycleOf_put⟩
  case some event =>
    simp only [appendOptionalEvent, ok_iff, Prod.exists] at h
    obtain ⟨status, _, happend, rfl⟩ := h
    obtain ⟨hstored, _⟩ | ⟨_, canonical, _, htype, rfl⟩ := appendEvent_cases happend
    · rw [show _ = none from hfresh event rfl] at hstored
      cases hstored
    · refine ⟨?_, fun _ => lifecycleOf_put⟩
      rw [gained_journalEvent, map_singleton, htype]
      rfl

theorem LifecycleCall.run_moves (hrepeats : c.Repeats s) : Moves s c (c.run s) := by
  have hnothing : Moves s c s := .nothing (gained_same rfl) fun _ => rfl
  obtain hsame | ⟨current, hcurrent, hvalid,
      ⟨happlied, happend⟩ | ⟨happlied, revision, hnext, happend⟩⟩ :=
    @transitionUniversalConferenceWithEvent_cases s c.scope c.conferenceId c.expectedRevision c.entryOpen
      c.lifecycle c.event
  · rwa [LifecycleCall.run, hsame]
  · rw [LifecycleCall.run]
    cases hevent : c.event
    case none =>
      rw [hevent] at happend
      rwa [← pure_eq_ok.mp happend]
    case some event =>
      rw [hevent] at happend
      simp only [appendOptionalEvent, ok_iff, Prod.exists] at happend
      obtain ⟨status, _, happend, hrun⟩ := happend
      rw [← hrun]
      -- The call was made before, so its event is in the journal, and is not added.
      have hstored := hrepeats event current hevent hcurrent
      rw [if_pos happlied] at hstored
      obtain ⟨_, rfl⟩ | ⟨hfresh, _⟩ := appendEvent_cases happend
      · exact hnothing
      · rw [hfresh] at hstored; cases hstored
  · have hprevious : lifecycleOf s c.key = some current.lifecycle := by
      rw [lifecycleOf, show s.universalConferences.get c.key = _ from hcurrent, map_some]
    obtain ⟨hrevision, htransition⟩ := nextConferenceRevision_ok hnext
    have hfresh : ∀ event, c.event = some event → s.events.get event.key = none := by
      intro event hevent
      have hnew := hrepeats event current hevent hcurrent
      rw [if_neg happlied] at hnew
      exact hnew hrevision htransition
    obtain ⟨hgained, hlifecycles⟩ := @appendOptionalEvent_moves _ _ c _ _ hfresh happend
    exact .on current.lifecycle hprevious htransition
      (by rw [LifecycleCall.run, hgained, validateConferenceLifecycleEvent_ok hvalid]) hlifecycles

def Becomes (lifecycle : UniversalConferenceLifecycle) (s s' : MemoryState) (key : ScopedId) : Prop :=
  lifecycleOf s key ≠ some lifecycle ∧ lifecycleOf s' key = some lifecycle

instance {lifecycle : UniversalConferenceLifecycle} : Decidable (Becomes lifecycle s s' key) :=
  inferInstanceAs (Decidable (_ ∧ _))

-- How far a conference has got. It never goes back.
def lifecycleRank : UniversalConferenceLifecycle → ℕ
  | .scheduled => 0
  | .waiting   => 1
  | .live      => 2
  | .ending    => 3
  | .ended     => 4

def Reached (lifecycle : UniversalConferenceLifecycle) (s : MemoryState) (key : ScopedId) : Bool :=
  (lifecycleOf s key).any (lifecycleRank lifecycle ≤ lifecycleRank ·)

section

variable {lifecycle : UniversalConferenceLifecycle}

theorem lifecycleRank_lt (h : validUniversalConferenceTransition previous lifecycle) :
    lifecycleRank previous < lifecycleRank lifecycle := by
  cases previous <;> cases lifecycle <;> first | decide | cases h

theorem conferenceLifecycleEventType_inj (h : conferenceLifecycleEventType lifecycle = some type)
    (h' : conferenceLifecycleEventType lifecycle' = some type) : lifecycle = lifecycle' := by
  rw [← h'] at h
  cases lifecycle <;> cases lifecycle' <;> first | rfl | simp [conferenceLifecycleEventType] at h h'

-- An event of the type is added just when the conference gets to what it announces.
theorem Moves.exact (h : Moves s c s') (htype : conferenceLifecycleEventType lifecycle = some type) :
    (gained s s').countP (·.eventType = type) = if Becomes lifecycle s s' c.key then 1 else 0 := by
  cases h
  case nothing hgained hsame =>
    rw [hgained, if_neg fun hbecomes => hbecomes.1 ((hsame c.key).symm.trans hbecomes.2)]
    rfl
  case on previous hprevious hvalid hgained hmoved =>
    have hcount : (gained s s').countP (·.eventType = type) =
        (conferenceLifecycleEventType c.lifecycle).toList.countP (· = type) := by
      rw [← hgained, countP_map]
      rfl
    have hafter : lifecycleOf s' c.key = some c.lifecycle := (hmoved c.key).trans (if_pos rfl)
    rw [hcount]
    by_cases hsame : c.lifecycle = lifecycle
    case pos =>
      have hbecomes : Becomes lifecycle s s' c.key := by
        refine ⟨fun hbefore => ?_, hsame ▸ hafter⟩
        have hlt := lifecycleRank_lt hvalid
        rw [mem_unique hprevious hbefore, hsame] at hlt
        exact lt_irrefl _ hlt
      rw [if_pos hbecomes, hsame, htype]
      simp
    case neg =>
      have hstays : ¬Becomes lifecycle s s' c.key := fun hbecomes =>
        hsame (mem_unique hafter hbecomes.2)
      have hother : conferenceLifecycleEventType c.lifecycle ≠ some type := fun htype' =>
        hsame (conferenceLifecycleEventType_inj htype' htype)
      rw [if_neg hstays]
      cases hevent : conferenceLifecycleEventType c.lifecycle
      case none => rfl
      case some type' =>
        have hne : type' ≠ type := fun heq => hother (heq ▸ hevent)
        simp [hne]

theorem Moves.reached (h : Moves s c s') (hreached : Reached lifecycle s key) :
    Reached lifecycle s' key := by
  cases h
  case nothing hsame => rwa [Reached, hsame key]
  case on previous hprevious hvalid _ hmoved =>
    rw [Reached, hmoved key]
    split
    case isTrue heq =>
      rw [Reached, heq, hprevious, any_some, decide_eq_true_eq] at hreached
      rw [any_some, decide_eq_true_eq]
      exact hreached.trans (lifecycleRank_lt hvalid).le
    case isFalse => exact hreached

theorem Moves.becomes (h : Moves s c s') (hbecomes : Becomes lifecycle s s' c.key) :
    ¬Reached lifecycle s c.key ∧ Reached lifecycle s' c.key := by
  cases h
  case nothing hsame => exact absurd ((hsame c.key).symm.trans hbecomes.2) hbecomes.1
  case on previous hprevious hvalid _ hmoved =>
    have hlifecycle : c.lifecycle = lifecycle :=
      mem_unique ((hmoved c.key).trans (if_pos rfl)) hbecomes.2
    constructor
    · rw [Reached, hprevious, any_some, decide_eq_true_eq, ← hlifecycle]
      exact not_le.mpr (lifecycleRank_lt hvalid)
    · rw [Reached, hbecomes.2, any_some, decide_eq_true_eq]

end

-- Whenever a conference gets to what an event announces, and only then, one such event is added.
def AnnouncesExactly : MemoryState → List StoreOp → Prop
  | _, [] => True
  | s, op :: ops =>
    (∀ c lifecycle type, op.lifecycleCall = some c →
      conferenceLifecycleEventType lifecycle = some type →
        (gained s (op.run s)).countP (·.eventType = type) =
          if Becomes lifecycle s (op.run s) c.key then 1 else 0) ∧
    AnnouncesExactly (op.run s) ops

theorem RepeatsEvent.moves (h : RepeatsEvent s op) (hc : op.lifecycleCall = some c) :
    Moves s c (op.run s) := by
  rw [StoreOp.run_lifecycleCall hc]
  exact LifecycleCall.run_moves (h c hc)

theorem reached_run (honly : OnlyByCalls s op)
    (hrepeats : RepeatsEvent s op) (h : Reached lifecycle s key) : Reached lifecycle (op.run s) key := by
  cases hcall : op.lifecycleCall
  case none =>
    cases hlifecycle : lifecycleOf s key
    case none => rw [Reached, hlifecycle] at h; cases h
    case some current =>
      rw [Reached, honly hcall key current hlifecycle]
      rwa [Reached, hlifecycle] at h
  case some c => exact (hrepeats.moves hcall).reached h

-- A step announces nothing, or it takes the conference to where it has not been.
theorem announced_step {type} (htype : conferenceLifecycleEventType lifecycle = some type)
    (hrepeats : RepeatsEvent s op) :
    (announced key s [op]).countP (·.eventType = type) = 0 ∨
      (announced key s [op]).countP (·.eventType = type) = 1 ∧
        ¬Reached lifecycle s key ∧ Reached lifecycle (op.run s) key := by
  rw [announced, announced, append_nil]
  split
  case isFalse => exact .inl rfl
  case isTrue hcall =>
    obtain ⟨c, hc, hkey⟩ := (Option.any_eq_true ..).mp hcall
    obtain rfl : c.key = key := of_decide_eq_true hkey
    have hmoves := hrepeats.moves hc
    rw [hmoves.exact htype]
    split
    case isFalse => exact .inl rfl
    case isTrue hbecomes => exact .inr ⟨rfl, hmoves.becomes hbecomes⟩

theorem announced_cons :
    announced key s (op :: ops) = announced key s [op] ++ announced key (op.run s) ops := by
  rw [announced, announced, announced, append_nil]

theorem announced_at_most_once (lifecycle : UniversalConferenceLifecycle) {type}
    (htype : conferenceLifecycleEventType lifecycle = some type)
    (h : RunsWhere (fun s op => OnlyByCalls s op ∧ RepeatsEvent s op) s ops) :
    (announced key s ops).countP (·.eventType = type) ≤ if Reached lifecycle s key then 0 else 1 := by
  induction ops generalizing s
  case nil => exact Nat.zero_le _
  case cons op ops ih =>
    obtain ⟨⟨honly, hrepeats⟩, hrest⟩ := h
    have hlater := ih hrest
    rw [announced_cons, countP_append]
    obtain hzero | ⟨hone, hbefore, hafter⟩ := announced_step htype hrepeats
    · rw [hzero, Nat.zero_add]
      by_cases hreached : Reached lifecycle s key
      case pos =>
        rw [if_pos (reached_run honly hrepeats hreached)] at hlater
        rwa [if_pos hreached]
      case neg =>
        rw [if_neg hreached]
        exact hlater.trans (by split <;> decide)
    · rw [if_pos hafter] at hlater
      rw [hone, if_neg hbefore, Nat.le_zero.mp hlater]

theorem announcesExactly_of_repeats
    (h : RunsWhere (fun s op => OnlyByCalls s op ∧ RepeatsEvent s op) s ops) :
    AnnouncesExactly s ops := by
  induction ops generalizing s
  case nil => trivial
  case cons op ops ih =>
    exact ⟨fun c lifecycle type hc htype => (h.1.2.moves hc).exact htype, ih h.2⟩

theorem conferences_announce_once (s : MemoryState) (ops : List StoreOp)
    (h : RunsWhere (fun s op => OnlyByCalls s op ∧ RepeatsEvent s op) s ops) :
    AnnouncesExactly s ops ∧
      ∀ key, (announced key s ops).countP (·.eventType = "ucr.conference.started") ≤ 1 ∧
        (announced key s ops).countP (·.eventType = "ucr.conference.ended") ≤ 1 := by
  have honce : ∀ {n : ℕ} {b : Bool}, n ≤ (if b then 0 else 1) → n ≤ 1 :=
    fun {n b} hle => hle.trans (by cases b <;> decide)
  refine ⟨announcesExactly_of_repeats h, fun key => ⟨?_, ?_⟩⟩
  · exact honce (announced_at_most_once .live rfl h)
  · exact honce (announced_at_most_once .ended rfl h)

namespace Scenario

def theatre : TenantScope := ⟨named "theatre", none⟩

def rehearsal : UniversalConferenceProfile where
  scope := theatre
  conferenceId := named "rehearsal"
  integrationId := named "stage-door"
  externalConferenceId := [1]
  createIdempotencyKey := "rehearsal"
  mode := .meeting
  lifecycle := .scheduled
  schedule := ⟨0, none, 0, 0, none⟩
  metadata := []
  entryOpen := false
  revision := 1

def curtainUp (eventId : EventId) : EventEnvelope :=
  { journalEntry eventId "ucr.conference.started" with
    scope := theatre
    actor := ⟨eventId, .system, some rehearsal.integrationId⟩
    sourceDevice := ⟨eventId, eventId⟩
    logicalOrder := 2
    correlation := ⟨eventId, none, none⟩ }

def firstBell : EventEnvelope := curtainUp (named "first-bell")
def secondBell : EventEnvelope := curtainUp (named "second-bell")

def planned : MemoryState :=
  MemoryState.empty.runAll [.conference (.persistUniversalConferenceProfile rehearsal)]

-- The rehearsal begins, and an event says so.
def begin (expectedRevision : U64) (event : EventEnvelope) : StoreOp :=
  .conference (.transitionUniversalConferenceWithEvent theatre rehearsal.conferenceId expectedRevision
    .live true (some event))

def rehearsalKey : ScopedId := (theatre, rehearsal.conferenceId)

end Scenario

open Scenario in
-- The call is repeated with its event, and then made once more, with the new revision.
theorem rehearsal_starts_once :
    let calls := [begin 1 firstBell, begin 1 firstBell, begin 2 firstBell]
    announced rehearsalKey planned calls = [firstBell] ∧ AnnouncesExactly planned calls := by
  have hplanned : planned.universalConferences.get rehearsalKey = some rehearsal := by decide +kernel
  have hlive : ((begin 1 firstBell).run planned).universalConferences.get rehearsalKey =
      some { rehearsal with lifecycle := .live, entryOpen := true, revision := 2 } := by decide +kernel
  refine ⟨by decide +kernel, (conferences_announce_once planned _ ?_).1⟩
  refine ⟨⟨nofun, ?_⟩, ⟨nofun, ?_⟩, ⟨nofun, ?_⟩, trivial⟩ <;> rintro c ⟨⟩ event current ⟨⟩ hcurrent
  · cases hplanned.symm.trans hcurrent
    decide +kernel
  all_goals
    cases hlive.symm.trans hcurrent
    decide +kernel

open Scenario in
-- The call is repeated with another event, which is added as well. Or somebody has sent the event
-- before, and nothing is added when the rehearsal begins.
theorem rehearsal_starts_twice_or_silently :
    announced rehearsalKey planned [begin 1 firstBell, begin 1 secondBell] = [firstBell, secondBell] ∧
      (let told := planned.runAll [.appendEvent firstBell]
      gained told ((begin 1 firstBell).run told) = [] ∧
        Becomes .live told ((begin 1 firstBell).run told) rehearsalKey) := by
  decide +kernel

end Ucr
