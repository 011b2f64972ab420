import Ucr.Protocol.Recording

-- Recordings along runs of their transitions: consent, revisions and times.

namespace Ucr

open Except Relation RecordingState

variable {s s' : RecordingSession}

inductive RecordingAction
  | consent (participant : PrincipalRef) (state : RecordingConsentState) (nowUnixMs : ℤ)
  | start (nowUnixMs : ℤ)
  | stop (nowUnixMs : ℤ)
  | expire (nowUnixMs : ℤ)
  | delete (nowUnixMs : ℤ)

namespace RecordingAction

def apply (session : RecordingSession) :
    RecordingAction → Except RecordingProtocolError RecordingSession
  | .consent participant state nowUnixMs =>
    applyRecordingConsent session participant state nowUnixMs
  | .start nowUnixMs  => startRecording session nowUnixMs
  | .stop nowUnixMs   => stopRecording session nowUnixMs
  | .expire nowUnixMs => expireRecording session nowUnixMs
  | .delete nowUnixMs => deleteRecording session nowUnixMs

-- The clock of an action that ends a recording while it runs.
def endsAt : RecordingAction → Option ℤ
  | .consent _ state nowUnixMs => if state = .granted then none else some nowUnixMs
  | .stop nowUnixMs | .delete nowUnixMs => some nowUnixMs
  | .start _ | .expire _ => none

-- A recording that runs is not ended at a time before its start.
def InOrder (session : RecordingSession) (action : RecordingAction) : Prop :=
  session.state = .active → ∀ now ∈ action.endsAt, ∀ started ∈ session.startedAtUnixMs, started ≤ now

instance (session : RecordingSession) (action : RecordingAction) :
    Decidable (action.InOrder session) :=
  inferInstanceAs (Decidable (session.state = .active → ∀ now ∈ action.endsAt,
    ∀ started ∈ session.startedAtUnixMs, started ≤ now))

end RecordingAction

-- A run of successful transitions, all of which meet a condition.
abbrev RecordingRunWhere (P : RecordingSession → RecordingAction → Prop) :=
  ReflTransGen fun s s' : RecordingSession => ∃ action, P s action ∧ action.apply s = .ok s'

abbrev RecordingRun := RecordingRunWhere fun _ _ => True

def RecordingState.isFinal : RecordingState → Bool
  | .stopped | .expired | .deleted => true
  | .waitingForConsent | .ready | .active => false

namespace RecordingSession

-- Nobody is recorded against their will, nor without being asked where the policy says so.
def Consented (session : RecordingSession) : Prop :=
  session.state = .active → ∀ consent ∈ session.consents,
    consent.state ≠ .denied ∧ consent.state ≠ .revoked ∧
      (session.policy.requireAllParticipantConsent → consent.state = .granted)

def TimesInOrder (session : RecordingSession) : Prop :=
  ∀ started ∈ session.startedAtUnixMs, ∀ stopped ∈ session.stoppedAtUnixMs,
    session.requestedAtUnixMs ≤ started ∧ started ≤ stopped ∧ stopped ≤ session.expiresAtUnixMs

-- The next version of a session, for the same span of time.
structure Advances (s s' : RecordingSession) : Prop where
  requested : s'.requestedAtUnixMs = s.requestedAtUnixMs
  expires   : s'.expiresAtUnixMs = s.expiresAtUnixMs
  revision  : s'.revision.val = s.revision.val + 1
  valid     : validateRecordingSession s' = .ok ()

-- What a transition that changes a session does to its state and its times.
inductive Step (s : RecordingSession) (action : RecordingAction) (s' : RecordingSession) : Prop
  | decided (live : ¬s.state.isFinal) (running : s.state = .active → action.endsAt = none)
      (started : s'.startedAtUnixMs = s.startedAtUnixMs)
      (stopped : s'.stoppedAtUnixMs = s.stoppedAtUnixMs)
  | started (now : ℤ) (ready : s.state = .ready) (notEarly : s.requestedAtUnixMs ≤ now)
      (notLate : now < s.expiresAtUnixMs) (started : s'.startedAtUnixMs = some now)
      (stopped : s'.stoppedAtUnixMs = s.stoppedAtUnixMs)
  | ended (live : ¬s.state.isFinal) (final : s'.state.isFinal) (time : ℤ)
      (clock : action.endsAt = none ∧ time = s.expiresAtUnixMs ∨
        ∃ now, action.endsAt = some now ∧ time = min now s.expiresAtUnixMs)
      (started : s'.startedAtUnixMs = s.startedAtUnixMs) (stopped : s'.stoppedAtUnixMs = some time)
  | closed (idle : s.state ≠ .active) (final : s'.state.isFinal)
      (started : s'.startedAtUnixMs = s.startedAtUnixMs)
      (stopped : s'.stoppedAtUnixMs = s.stoppedAtUnixMs)

end RecordingSession

open RecordingSession

section Transitions

variable {participant : PrincipalRef} {state : RecordingConsentState} {now : ℤ}

theorem nextRevision_eq_ok {revision} :
    nextRevision s = .ok revision ↔ revision.val = s.revision.val + 1 := by
  rw [nextRevision, Option.okOr_eq_ok, U64.checkedSucc_eq_some]

theorem stateAfterConsent_cases (s : RecordingSession) (state : RecordingConsentState) (now : ℤ) :
    (s.state = .active ∧ state ≠ .granted ∧ stateAfterConsent s state now =
        { s with state := .stopped, stoppedAtUnixMs := some now }) ∨
      (s.state = .active ∧ state = .granted ∧ stateAfterConsent s state now = s) ∨
      (s.state ≠ .active ∧ ∃ next : RecordingState,
        stateAfterConsent s state now = { s with state := next }) := by
  unfold stateAfterConsent
  split
  case isTrue h => exact .inl ⟨h.1, h.2, rfl⟩
  case isFalse h =>
    split
    case isTrue hactive => exact .inr (.inr ⟨hactive, _, rfl⟩)
    case isFalse hactive =>
      have hactive := not_not.mp hactive
      exact .inr (.inl ⟨hactive, not_not.mp fun hne => h ⟨hactive, hne⟩, rfl⟩)

theorem applyRecordingConsent_step (h : applyRecordingConsent s participant state now = .ok s') :
    s.Advances s' ∧ s.Step (.consent participant state now) s' := by
  simp only [applyRecordingConsent, ok_iff, exists_const, not_or, not_lt, not_le] at h
  obtain ⟨-, -, ⟨-, -, hlate⟩, ⟨hstopped, hexpired, hdeleted⟩, consents, -, revision, hrevision, _,
    hvalid, rfl⟩ := h
  have hlive : ¬s.state.isFinal := by
    cases hs : s.state <;> simp_all [isFinal]
  rw [nextRevision_eq_ok] at hrevision
  obtain ⟨hactive, hstate, heq⟩ | ⟨hactive, hstate, heq⟩ | ⟨hactive, next, heq⟩ :=
    stateAfterConsent_cases { s with consents := consents } state now
  · rw [heq] at hvalid ⊢
    refine ⟨⟨rfl, rfl, hrevision, hvalid⟩, .ended hlive rfl now (.inr ⟨now, ?_, ?_⟩) rfl rfl⟩
    · simp [RecordingAction.endsAt, hstate]
    · exact (min_eq_left hlate.le).symm
  · rw [heq] at hvalid ⊢
    refine ⟨⟨rfl, rfl, hrevision, hvalid⟩, .decided hlive (fun _ => ?_) rfl rfl⟩
    simp [RecordingAction.endsAt, hstate]
  · rw [heq] at hvalid ⊢
    exact ⟨⟨rfl, rfl, hrevision, hvalid⟩, .decided hlive (fun h => absurd h hactive) rfl rfl⟩

theorem startRecording_step (h : startRecording s now = .ok s') :
    s.Advances s' ∧ s.Step (.start now) s' := by
  simp only [startRecording, ok_iff, exists_const, not_or, not_lt, not_le, not_not] at h
  obtain ⟨-, -, ⟨hearly, hlate⟩, -, hready, revision, hrevision, _, hvalid, rfl⟩ := h
  rw [nextRevision_eq_ok] at hrevision
  exact ⟨⟨rfl, rfl, hrevision, hvalid⟩, .started now hready hearly hlate rfl rfl⟩

theorem stopRecording_step (h : stopRecording s now = .ok s') :
    s.Advances s' ∧ s.Step (.stop now) s' := by
  simp only [stopRecording, ok_iff, exists_const, not_or, not_lt] at h
  obtain ⟨-, -, ⟨-, hlate⟩, hstate, revision, hrevision, _, hvalid, rfl⟩ := h
  have hlive : ¬s.state.isFinal := by
    cases hs : s.state <;> simp_all [isFinal]
  rw [nextRevision_eq_ok] at hrevision
  exact ⟨⟨rfl, rfl, hrevision, hvalid⟩,
    .ended hlive rfl now (.inr ⟨now, rfl, (min_eq_left hlate).symm⟩) rfl rfl⟩

theorem consistent_of_valid (h : validateRecordingSession s = .ok ()) : s.consistent := by
  simp only [validateRecordingSession, ok_iff, exists_const, not_not] at h
  exact h.2.2.2.2.2.2

theorem times_of_active (h : validateRecordingSession s = .ok ()) (hactive : s.state = .active) :
    s.startedAtUnixMs.isSome ∧ s.stoppedAtUnixMs = none := by
  have := consistent_of_valid h
  simp_all [consistent]

theorem times_of_idle (h : validateRecordingSession s = .ok ()) (hlive : ¬s.state.isFinal)
    (hactive : s.state ≠ .active) : s.startedAtUnixMs = none ∧ s.stoppedAtUnixMs = none := by
  have := consistent_of_valid h
  cases hs : s.state <;> simp_all [consistent, isFinal]

-- Expiry and deletion end a recording that runs and close one that does not.
theorem step_of_stoppedBy (hvalid : validateRecordingSession s = .ok ()) (hfinal : s'.state.isFinal)
    (hstarted : s'.startedAtUnixMs = s.startedAtUnixMs)
    (hstopped : s'.stoppedAtUnixMs = stoppedBy s time)
    (hclock : action.endsAt = none ∧ time = s.expiresAtUnixMs ∨
      ∃ now, action.endsAt = some now ∧ time = min now s.expiresAtUnixMs) : s.Step action s' := by
  by_cases hactive : s.state = .active
  · have hnone := (times_of_active hvalid hactive).2
    rw [stoppedBy, if_pos ⟨hactive, by simp [hnone]⟩] at hstopped
    exact .ended (by simp [hactive, isFinal]) hfinal time hclock hstarted hstopped
  · rw [stoppedBy, if_neg fun h => hactive h.1] at hstopped
    exact .closed hactive hfinal hstarted hstopped

theorem expireRecording_step (h : expireRecording s now = .ok s') :
    (s.state.isFinal ∧ s' = s) ∨ s.Advances s' ∧ s.Step (.expire now) s' := by
  simp only [expireRecording, ok_iff, exists_const] at h
  obtain ⟨_, hvalid, -, -, h⟩ := h
  split at h
  case isTrue hexpired =>
    exact .inl ⟨by simp [hexpired, isFinal], (pure_eq_ok.mp h).symm⟩
  case isFalse =>
    simp only [ok_iff] at h
    obtain ⟨revision, hrevision, _, hnext, rfl⟩ := h
    rw [nextRevision_eq_ok] at hrevision
    exact .inr ⟨⟨rfl, rfl, hrevision, hnext⟩,
      step_of_stoppedBy hvalid rfl rfl rfl (.inl ⟨rfl, rfl⟩)⟩

theorem deleteRecording_step (h : deleteRecording s now = .ok s') :
    (s.state.isFinal ∧ s' = s) ∨ s.Advances s' ∧ s.Step (.delete now) s' := by
  simp only [deleteRecording, ok_iff] at h
  obtain ⟨_, hvalid, h⟩ := h
  split at h
  case isTrue hdeleted =>
    exact .inl ⟨by simp [hdeleted, isFinal], (pure_eq_ok.mp h).symm⟩
  case isFalse =>
    simp only [ok_iff, exists_const] at h
    obtain ⟨-, revision, hrevision, _, hnext, rfl⟩ := h
    rw [nextRevision_eq_ok] at hrevision
    exact .inr ⟨⟨rfl, rfl, hrevision, hnext⟩,
      step_of_stoppedBy hvalid rfl rfl rfl (.inr ⟨now, rfl, rfl⟩)⟩

end Transitions

-- Only a session that has ended can be left as it is by a transition.
theorem RecordingAction.step (h : action.apply s = .ok s') :
    (s.state.isFinal ∧ s' = s) ∨ s.Advances s' ∧ s.Step action s' := by
  cases action
  case consent => exact .inr (applyRecordingConsent_step h)
  case start   => exact .inr (startRecording_step h)
  case stop    => exact .inr (stopRecording_step h)
  case expire  => exact expireRecording_step h
  case delete  => exact deleteRecording_step h

namespace RecordingSession

variable {action : RecordingAction}

theorem consented_of_valid (h : validateRecordingSession s = .ok ()) : s.Consented := by
  intro hactive consent hmem
  have hallowed : s.recordingAllowed := by
    have := consistent_of_valid h
    simp_all [consistent]
  simp only [recordingAllowed, anyExplicitDenial, allGranted, Bool.and_eq_true, Bool.or_eq_true,
    Bool.not_eq_true', List.any_eq_false, List.all_eq_true, decide_eq_true_eq, not_or] at hallowed
  obtain ⟨hgranted, hdenied⟩ := hallowed
  refine ⟨(hdenied consent hmem).1, (hdenied consent hmem).2, fun hall => ?_⟩
  exact (hgranted.resolve_left (by simp [hall])) consent hmem

theorem Step.final (h : s.Step action s') (hs : s.state.isFinal) : s'.state.isFinal := by
  cases h
  case decided live _ _ _    => exact absurd hs live
  case started ready _ _ _ _ => simp [ready, isFinal] at hs
  case ended final _ _ _ _   => exact final
  case closed final _ _      => exact final

-- What holds of a session that was accepted before it started, as long as its clocks are in order.
structure Lived (s : RecordingSession) : Prop where
  valid : validateRecordingSession s = .ok ()
  span  : ∀ started ∈ s.startedAtUnixMs,
    s.requestedAtUnixMs ≤ started ∧ started < s.expiresAtUnixMs
  times : s.TimesInOrder

theorem TimesInOrder.congr (hs : s.TimesInOrder) (h : s.Advances s')
    (hstarted : s'.startedAtUnixMs = s.startedAtUnixMs)
    (hstopped : s'.stoppedAtUnixMs = s.stoppedAtUnixMs) : s'.TimesInOrder := by
  simpa only [TimesInOrder, hstarted, hstopped, h.requested, h.expires] using hs

theorem timesInOrder_of_not_started (h : s.startedAtUnixMs = none) : s.TimesInOrder := by
  simp [TimesInOrder, h]

-- The only way to get the times of a session out of order is to end it before its start.
theorem Step.timesInOrder_iff (h : s.Step action s') (hadvances : s.Advances s') (hs : s.Lived) :
    s'.TimesInOrder ↔ action.InOrder s := by
  cases h
  case decided live running started stopped =>
    refine iff_of_true (hs.times.congr hadvances started stopped) fun hactive => ?_
    simp [running hactive]
  case started now ready _ _ started stopped =>
    have hnone := (times_of_idle hs.valid (by simp [ready, isFinal])
      (by simp [ready])).2
    exact iff_of_true (by simp [TimesInOrder, stopped, hnone]) (by simp [RecordingAction.InOrder, ready])
  case ended live _ time clock started stopped =>
    by_cases hactive : s.state = .active
    · obtain ⟨begin, hbegin⟩ := Option.isSome_iff_exists.mp (times_of_active hs.valid hactive).1
      obtain ⟨hearly, hlate⟩ := hs.span begin hbegin
      obtain ⟨hends, rfl⟩ | ⟨now, hends, rfl⟩ := clock
      · refine iff_of_true ?_ (by simp [RecordingAction.InOrder, hends])
        simp [TimesInOrder, started, stopped, hbegin, hadvances.requested, hadvances.expires, hearly,
          hlate.le]
      · simp [TimesInOrder, RecordingAction.InOrder, started, stopped, hbegin, hends, hactive,
          hadvances.requested, hadvances.expires, hearly, hlate.le]
    · have hnone := (times_of_idle hs.valid live hactive).1
      exact iff_of_true (timesInOrder_of_not_started (started.trans hnone))
        fun h => absurd h hactive
  case closed idle _ started stopped =>
    exact iff_of_true (hs.times.congr hadvances started stopped) fun h => absurd h idle

theorem Step.span (h : s.Step action s') (hadvances : s.Advances s') (hs : s.Lived) :
    ∀ started ∈ s'.startedAtUnixMs,
      s'.requestedAtUnixMs ≤ started ∧ started < s'.expiresAtUnixMs := by
  rw [hadvances.requested, hadvances.expires]
  cases h
  case decided started _ => exact started ▸ hs.span
  case started _ notEarly notLate started _ => simp [started, notEarly, notLate]
  case ended started _   => exact started ▸ hs.span
  case closed started _  => exact started ▸ hs.span

theorem Lived.apply (hs : s.Lived) (horder : action.InOrder s) (h : action.apply s = .ok s') :
    s'.Lived := by
  obtain ⟨-, rfl⟩ | ⟨hadvances, hstep⟩ := RecordingAction.step h
  · exact hs
  · exact ⟨hadvances.valid, hstep.span hadvances hs, (hstep.timesInOrder_iff hadvances hs).mpr horder⟩

theorem Lived.run (hs : s.Lived)
    (hrun : RecordingRunWhere (fun s action => action.InOrder s) s reached) : reached.Lived := by
  induction hrun
  case refl => exact hs
  case tail step ih =>
    obtain ⟨action, horder, happly⟩ := step
    exact ih.apply horder happly

theorem valid_of_run (hs : validateRecordingSession s = .ok ())
    (hrun : RecordingRun s reached) : validateRecordingSession reached = .ok () := by
  induction hrun
  case refl => exact hs
  case tail step ih =>
    obtain ⟨action, -, happly⟩ := step
    obtain ⟨-, rfl⟩ | ⟨hadvances, -⟩ := RecordingAction.step happly
    · exact ih
    · exact hadvances.valid

theorem final_of_run (hs : s.state.isFinal)
    (hrun : RecordingRun s reached) : reached.state.isFinal := by
  induction hrun
  case refl => exact hs
  case tail step ih =>
    obtain ⟨action, -, happly⟩ := step
    obtain ⟨-, rfl⟩ | ⟨-, hstep⟩ := RecordingAction.step happly
    · exact ih
    · exact hstep.final ih

end RecordingSession

-- In every run nobody is recorded without consent, what has ended does not start again, and a
-- change adds one to the revision. The times of a recording are in order as long as it is not ended
-- at a time before its start, and no longer.
theorem recordings_keep_consent_and_order (hvalid : validateRecordingSession s = .ok ())
    (hunstarted : s.startedAtUnixMs = none) :
    (∀ reached, RecordingRun s reached →
      reached.Consented ∧
        (reached.state.isFinal → ∀ later, RecordingRun reached later → later.state ≠ .active) ∧
        ∀ action next, RecordingAction.apply reached action = .ok next →
          next = reached ∨ next.revision.val = reached.revision.val + 1) ∧
      ∀ reached, RecordingRunWhere (fun s action => action.InOrder s) s reached →
        reached.TimesInOrder ∧
          ∀ action next, RecordingAction.apply reached action = .ok next →
            (next.TimesInOrder ↔ action.InOrder reached) := by
  refine ⟨fun reached hrun => ⟨?_, fun hfinal later hlater hactive => ?_, fun action next h => ?_⟩,
    fun reached hrun => ?_⟩
  · exact consented_of_valid (valid_of_run hvalid hrun)
  · simpa [hactive, isFinal] using final_of_run hfinal hlater
  · obtain ⟨-, rfl⟩ | ⟨hadvances, -⟩ := RecordingAction.step h
    · exact .inl rfl
    · exact .inr hadvances.revision
  · have hs : s.Lived := ⟨hvalid, by simp [hunstarted], timesInOrder_of_not_started hunstarted⟩
    have hlived := hs.run hrun
    refine ⟨hlived.times, fun action next h => ?_⟩
    obtain ⟨hfinal, rfl⟩ | ⟨hadvances, hstep⟩ := RecordingAction.step h
    · refine iff_of_true hlived.times fun hactive => ?_
      simp [hactive, isFinal] at hfinal
    · exact hstep.timesInOrder_iff hadvances hlived

namespace Scenario

-- A recording that needs nobody's consent, kept for a minute.
def memo : RecordingSession where
  scope := tenant
  recordingId := named "memo"
  callId := named "memo-call"
  requestedBy := alice
  policy := ⟨false, true, 60, none⟩
  state := .ready
  consents := []
  requestedAtUnixMs := 0
  startedAtUnixMs := none
  stoppedAtUnixMs := none
  expiresAtUnixMs := 60000
  revision := 1

def memoRunning : RecordingSession :=
  { memo with state := .active, startedAtUnixMs := some 100, revision := 2 }

-- A recording that Alice has agreed to and Bob not yet.
def interview : RecordingSession :=
  { memo with
    policy := ⟨true, true, 60, none⟩
    state := .waitingForConsent
    consents := [⟨alice, .granted, 10⟩, ⟨bob, .pending, 0⟩] }

def interviewReady : RecordingSession :=
  { interview with
    state := .ready
    consents := [⟨alice, .granted, 10⟩, ⟨bob, .granted, 20⟩]
    revision := 2 }

def interviewRunning : RecordingSession :=
  { interviewReady with state := .active, startedAtUnixMs := some 100, revision := 3 }

def interviewStopped : RecordingSession :=
  { interviewRunning with
    state := .stopped
    consents := [⟨alice, .granted, 10⟩, ⟨bob, .revoked, 150⟩]
    stoppedAtUnixMs := some 150
    revision := 4 }

end Scenario

open Scenario

-- The memo starts at 100 and is stopped at 50.
theorem memo_is_stopped_before_its_start :
    validateRecordingSession memo = .ok () ∧ memo.startedAtUnixMs = none ∧
      ∃ s, RecordingRun memo s ∧ s.startedAtUnixMs = some 100 ∧
        s.stoppedAtUnixMs = some 50 ∧ ¬s.TimesInOrder := by
  refine ⟨by decide +kernel, rfl, { memoRunning with
    state := .stopped, stoppedAtUnixMs := some 50, revision := 3 }, ?_, rfl, rfl, ?_⟩
  · exact .tail (.single ⟨.start 100, trivial, by rfl⟩) ⟨.stop 50, trivial, by rfl⟩
  · intro h
    obtain ⟨-, hstopped, -⟩ := h 100 rfl 50 rfl
    omega

-- Bob agrees, the interview starts at 100, and Bob takes back the consent at 150.
theorem interview_is_stopped_by_bob :
    RecordingRun interview interviewRunning ∧ interviewRunning.Consented ∧
      RecordingRunWhere (fun s action => action.InOrder s) interview interviewStopped ∧
      interviewStopped.TimesInOrder := by
  have hready : RecordingAction.apply interview (.consent bob .granted 20) = .ok interviewReady := by
    decide +kernel
  have hstart : RecordingAction.apply interviewReady (.start 100) = .ok interviewRunning := by
    decide +kernel
  have hstop : RecordingAction.apply interviewRunning (.consent bob .revoked 150) =
      .ok interviewStopped := by
    decide +kernel
  have hruns : RecordingRun interview interviewRunning :=
    .tail (.single ⟨_, trivial, hready⟩) ⟨_, trivial, hstart⟩
  have hstops : RecordingRunWhere (fun s action => action.InOrder s) interview interviewStopped :=
    .tail (.tail (.single ⟨_, by decide, hready⟩) ⟨_, by decide, hstart⟩) ⟨_, by decide, hstop⟩
  obtain ⟨hconsent, hordered⟩ := recordings_keep_consent_and_order (s := interview)
    (by decide +kernel) rfl
  exact ⟨hruns, (hconsent _ hruns).1, hstops, (hordered _ hstops).1⟩

end Ucr
