import Ucr.Conference.ActiveSpeaker
import Ucr.Lib.Slice

-- As long as the times of all calls go forward, a call hears its own speakers only.

namespace Ucr

open InPlace List

abbrev SpeakerReports := List ActiveSpeakerState

variable {ops : List SpeakerOp} {op : SpeakerOp} {s reports : SpeakerReports} {call : ScopedId}
  {entry : ActiveSpeakerState} {nowUnixMs t start : ℤ} {view : ConferenceView}
  {actor : PrincipalRef}

section Runs

namespace SpeakerOp

-- The report that is made if the operation succeeds.
def made (s : SpeakerReports) : SpeakerOp → Option ActiveSpeakerState
  | report view actor call level reportedAtUnixMs =>
    match ((reportAudioLevel view actor call level reportedAtUnixMs).run s).1, audioLevel level with
    | .ok (), .ok level => some ⟨call.1, call.2, actor, level, reportedAtUnixMs⟩
    | _, _ => none
  | ask .. => none

def Refused (s : SpeakerReports) (call : ScopedId) : SpeakerOp → Prop
  | report view actor call' level reportedAtUnixMs =>
    call' = call ∧ ((reportAudioLevel view actor call level reportedAtUnixMs).run s).1 =
      .error .subscriptionCapacityExceeded
  | ask .. => False

instance : (op : SpeakerOp) → Decidable (op.Refused s call)
  | report .. => inferInstanceAs (Decidable (_ ∧ _))
  | ask ..    => inferInstanceAs (Decidable False)

end SpeakerOp

def afterSpeaking (s : SpeakerReports) : List SpeakerOp → SpeakerReports
  | [] => s
  | op :: ops => afterSpeaking (op.run.run s).2 ops

def madeFor (call : ScopedId) (s : SpeakerReports) : List SpeakerOp → SpeakerReports
  | [] => []
  | op :: ops => (op.made s).toList.filter (·.call = call) ++ madeFor call (op.run.run s).2 ops

-- No report of the call was refused because there was no room.
def HasRoom (call : ScopedId) (s : SpeakerReports) : List SpeakerOp → Prop
  | [] => True
  | op :: ops => ¬op.Refused s call ∧ HasRoom call (op.run.run s).2 ops

instance decidableHasRoom (call : ScopedId) :
    (s : SpeakerReports) → (ops : List SpeakerOp) → Decidable (HasRoom call s ops)
  | _, [] => inferInstanceAs (Decidable True)
  | s, op :: ops =>
    have := decidableHasRoom call (op.run.run s).2 ops
    inferInstanceAs (Decidable (_ ∧ _))

end Runs

section Purpose

-- What counts of the reports: from each participant, the last one.
def latest (reports : SpeakerReports) : SpeakerReports :=
  reports.foldl (fun kept entry => kept.filter (·.owner ≠ entry.owner) ++ [entry]) []

def IsLatest (reports : SpeakerReports) (entry : ActiveSpeakerState) : Prop :=
  ∃ before after, reports = before ++ entry :: after ∧ ∀ later ∈ after, later.owner ≠ entry.owner

def Eligible (nowUnixMs : ℤ) (entry : ActiveSpeakerState) : Prop :=
  0 < entry.level ∧ nowUnixMs - 3000 ≤ entry.reportedAtUnixMs ∧ entry.reportedAtUnixMs ≤ nowUnixMs

instance : Decidable (Eligible nowUnixMs entry) :=
  inferInstanceAs (Decidable (_ ∧ _))

def dominant (reports : SpeakerReports) (nowUnixMs : ℤ) : Option PrincipalRef :=
  (((latest reports).filter (Eligible nowUnixMs)).reverse.argmax ActiveSpeakerState.key).map
    (·.participant)

theorem latest_concat :
    latest (reports ++ [entry]) = (latest reports).filter (·.owner ≠ entry.owner) ++ [entry] := by
  simp [latest, foldl_append]

theorem mem_latest : entry ∈ latest reports ↔ IsLatest reports entry := by
  induction reports using reverseRecOn
  case nil => simp [latest, IsLatest]
  case append_singleton reports last ih =>
    rw [latest_concat, mem_append, mem_filter, ih, mem_singleton]
    constructor
    · rintro (⟨⟨before, after, rfl, hafter⟩, hne⟩ | rfl)
      · refine ⟨before, after ++ [last], by simp, fun later hlater => ?_⟩
        obtain hlater | hlater := mem_append.mp hlater
        · exact hafter later hlater
        · obtain rfl := mem_singleton.mp hlater
          exact Ne.symm (of_decide_eq_true hne)
      · exact ⟨reports, [], rfl, by simp⟩
    · rintro ⟨before, after, heq, hafter⟩
      obtain ⟨rest, rfl, rfl⟩ | ⟨-, rfl, -⟩ := split_concat heq
      · refine .inl ⟨⟨before, rest, rfl, fun later hlater => hafter later (by simp [hlater])⟩, ?_⟩
        exact decide_eq_true (Ne.symm (hafter last (by simp)))
      · exact .inr rfl

theorem dominant_spec (h : IsLatest reports entry) (heligible : Eligible nowUnixMs entry) :
    ∃ speaker, dominant reports nowUnixMs = some speaker.participant ∧
      IsLatest reports speaker ∧ Eligible nowUnixMs speaker ∧
      ∀ other, IsLatest reports other → Eligible nowUnixMs other → other.key ≤ speaker.key := by
  have hmem {e : ActiveSpeakerState} :
      e ∈ ((latest reports).filter (Eligible nowUnixMs)).reverse ↔
        IsLatest reports e ∧ Eligible nowUnixMs e := by
    rw [mem_reverse, mem_filter, mem_latest, decide_eq_true_iff]
  rcases hmax : ((latest reports).filter (Eligible nowUnixMs)).reverse.argmax ActiveSpeakerState.key
    with _ | speaker
  case none =>
    have hnil := argmax_eq_none.mp hmax
    rw [hnil] at hmem
    exact absurd (hmem.mpr ⟨h, heligible⟩) not_mem_nil
  case some =>
    have hspeaker := hmem.mp (argmax_mem hmax)
    refine ⟨speaker, by rw [dominant, hmax, Option.map_some], hspeaker.1, hspeaker.2, ?_⟩
    exact fun other hlatest hother => le_of_mem_argmax (hmem.mpr ⟨hlatest, hother⟩) hmax

end Purpose

section Steps

def Fresh (t : ℤ) (entry : ActiveSpeakerState) : Prop :=
  t - entry.reportedAtUnixMs ≤ activeSpeakerReportTtlMs

instance : Decidable (Fresh t entry) :=
  inferInstanceAs (Decidable (_ ≤ _))

theorem saturatingSub_le : I64.saturatingSub t nowUnixMs ≤ activeSpeakerReportTtlMs ↔
    t - nowUnixMs ≤ activeSpeakerReportTtlMs := by
  simp only [I64.saturatingSub, activeSpeakerReportTtlMs, maxI64]
  omega

-- What is asked for from some moment on is still there.
structure Tracks (call : ScopedId) (start : ℤ) (s reports : SpeakerReports) : Prop where
  same   : ∀ t ≥ start, s.filter (fun e => e.call = call ∧ Fresh t e) = (latest reports).filter (Fresh t)
  past   : ∀ e ∈ reports, e.reportedAtUnixMs ≤ start
  inCall : ∀ e ∈ reports, e.call = call

theorem Tracks.nil : Tracks call start [] [] where
  same   := by simp [latest]
  past   := by simp
  inCall := by simp

variable (h : Tracks call start s reports)
include h

theorem Tracks.wait (hle : start ≤ later) : Tracks call later s reports where
  same t ht := h.same t (hle.trans ht)
  past e he := (h.past e he).trans hle
  inCall    := h.inCall

-- What is pruned at a later time is not asked for any more.
theorem Tracks.prune {p : ActiveSpeakerState → Bool} (hle : start ≤ later)
    (hp : ∀ e, e.call = call → e.reportedAtUnixMs ≤ later → Fresh later e → p e) :
    Tracks call later (s.filter p) reports where
  same t ht := by
    rw [← h.same t (hle.trans ht), filter_filter]
    refine filter_congr fun e he => ?_
    by_cases hasked : e.call = call ∧ Fresh t e
    case neg => simp [hasked]
    case pos =>
      have hmem : e ∈ s.filter (fun e => e.call = call ∧ Fresh t e) :=
        mem_filter.mpr ⟨he, decide_eq_true hasked⟩
      rw [h.same t (hle.trans ht)] at hmem
      obtain ⟨before, after, heq, -⟩ := mem_latest.mp (mem_of_mem_filter hmem)
      have hpast := h.past e (heq ▸ by simp)
      have hfresh : Fresh later e := by
        have := hasked.2
        simp only [Fresh] at this ⊢
        omega
      simp [hasked, hp e hasked.1 (hpast.trans hle) hfresh]
  past e he := (h.past e he).trans hle
  inCall    := h.inCall

theorem Tracks.remove {p : ActiveSpeakerState → Bool}
    (hp : ∀ e, e.call = call → p e) : Tracks call start (s.filter p) reports :=
  h.prune le_rfl fun e hcall _ _ => hp e hcall

theorem Tracks.other (hne : entry.call ≠ call) :
    Tracks call start (s ++ [entry]) reports where
  same t ht := by
    rw [filter_append, h.same t ht]
    simp [hne]
  past   := h.past
  inCall := h.inCall

theorem Tracks.own (hcall : entry.call = call)
    (htime : entry.reportedAtUnixMs = start) :
    Tracks call start (s.filter (·.owner ≠ entry.owner) ++ [entry]) (reports ++ [entry]) where
  same t ht := by
    rw [latest_concat, filter_append, filter_append, filter_comm, h.same t ht,
      filter_comm]
    simp [filter_cons, hcall]
  past e he := by
    obtain he | he := mem_append.mp he
    · exact h.past e he
    · obtain rfl := mem_singleton.mp he
      exact htime.le
  inCall e he := by
    obtain he | he := mem_append.mp he
    · exact h.inCall e he
    · obtain rfl := mem_singleton.mp he
      exact hcall

def pruned (s : SpeakerReports) (call : ScopedId) (actor : PrincipalRef) (reportedAtUnixMs : ℤ) :
    SpeakerReports :=
  (s.filter fun entry => entry.reportedAtUnixMs ≤ reportedAtUnixMs &&
    I64.saturatingSub reportedAtUnixMs entry.reportedAtUnixMs ≤ activeSpeakerReportTtlMs).filter
      fun entry => entry.owner ≠ (call, actor)

omit h in
theorem run_reportAudioLevel {level reportedAtUnixMs} :
    (reportAudioLevel view actor call level reportedAtUnixMs).run s =
      match requireObserver view actor, audioLevel level with
      | .error e, _ => (.error e, s)
      | .ok (), .error e => (.error e, s)
      | .ok (), .ok level =>
        let state := pruned s call actor reportedAtUnixMs
        if state.countP (·.call = call) ≥ maxCallParticipants ∨
            state.length ≥ maxTrackedConferenceRecipientSets then
          (.error .subscriptionCapacityExceeded, state)
        else
          (.ok (), state ++ [⟨call.1, call.2, actor, level, reportedAtUnixMs⟩]) := by
  unfold reportAudioLevel
  rcases requireObserver view actor with e | ⟨⟩
  case error => rfl
  case ok =>
    rcases audioLevel level with e | level
    case error => rfl
    case ok =>
      dsimp only
      split
      case isTrue hfull =>
        exact congrArg (InPlace.run · (pruned s call actor reportedAtUnixMs)) (if_pos hfull)
      case isFalse hroom =>
        exact congrArg (InPlace.run · (pruned s call actor reportedAtUnixMs)) (if_neg hroom)

omit h in
theorem run_activeSpeaker :
    (activeSpeaker view actor call nowUnixMs).run s =
      match requireObserver view actor with
      | .error e => (.error e, s)
      | .ok ()   =>
        let state := s.filter fun entry => entry.call ≠ call ||
          I64.saturatingSub nowUnixMs entry.reportedAtUnixMs ≤ activeSpeakerReportTtlMs
        (.ok (((state.filter fun entry => entry.call = call && 0 < entry.level &&
          entry.reportedAtUnixMs ≤ nowUnixMs).reverse.argmax ActiveSpeakerState.key).map
            (·.participant)), state) := by
  unfold activeSpeaker
  rcases requireObserver view actor with e | ⟨⟩ <;> rfl

theorem Tracks.fresh (hle : start ≤ reportedAtUnixMs) :
    Tracks call reportedAtUnixMs (s.filter fun entry => entry.reportedAtUnixMs ≤ reportedAtUnixMs &&
      I64.saturatingSub reportedAtUnixMs entry.reportedAtUnixMs ≤ activeSpeakerReportTtlMs) reports := by
  refine h.prune hle fun e _ hpast hfresh => ?_
  simpa [saturatingSub_le, hpast, Fresh] using hfresh

theorem Tracks.pruned (hle : start ≤ reportedAtUnixMs) (hne : call' ≠ call) :
    Tracks call reportedAtUnixMs (pruned s call' actor reportedAtUnixMs) reports := by
  refine (h.fresh hle).remove fun e hcall => ?_
  simp only [ActiveSpeakerState.owner, hcall, decide_eq_true_eq, ne_eq, Prod.mk.injEq, not_and]
  exact fun heq => absurd heq.symm hne

theorem SpeakerOp.tracks (hle : start ≤ op.time)
    (hroom : ¬op.Refused s call) :
    Tracks call op.time (op.run.run s).2
      (reports ++ (op.made s).toList.filter (·.call = call)) := by
  cases op
  case ask view actor call' now =>
    have hrun := @run_activeSpeaker s call' now view actor
    simp only [SpeakerOp.run, SpeakerOp.made, Option.toList_none, filter_nil, append_nil]
    rw [hrun]
    split
    · exact h.wait hle
    · refine h.prune hle fun e _ _ hfresh => ?_
      simp only [saturatingSub_le, Bool.or_eq_true, decide_eq_true_eq]
      exact .inr hfresh
  case report view actor call' level reportedAtUnixMs =>
    have hrun := @run_reportAudioLevel s call' view actor level reportedAtUnixMs
    simp only [SpeakerOp.run, SpeakerOp.made, SpeakerOp.Refused, SpeakerOp.time, run_bind_pure_snd]
      at hle hroom ⊢
    rcases hobserver : requireObserver view actor with e | ⟨⟩ <;> rw [hobserver] at hrun
    case error => simpa [hrun] using h.wait hle
    rcases hlevel : audioLevel level with e | level' <;> rw [hlevel] at hrun
    case error => simpa [hrun] using h.wait hle
    dsimp only at hrun
    by_cases hcall : call' = call
    case neg =>
      split at hrun
      · simpa [hrun] using h.pruned hle hcall
      · simpa [hrun, ActiveSpeakerState.call, hcall] using (h.pruned hle hcall).other (by exact hcall)
    case pos =>
      subst hcall
      split at hrun
      case isTrue => exact absurd ⟨rfl, congrArg Prod.fst hrun⟩ hroom
      case isFalse =>
        have hcall :
            ActiveSpeakerState.call ⟨call'.1, call'.2, actor, level', reportedAtUnixMs⟩ = call' :=
          rfl
        simp only [hrun, Option.toList_some, filter_cons, hcall, decide_true, if_true, filter_nil]
        exact (h.fresh hle).own hcall rfl

theorem tracks_afterSpeaking
    (hsteady : (ops.map (·.time)).Pairwise (· ≤ ·)) (hle : ∀ op ∈ ops, start ≤ op.time)
    (hnow : ∀ op ∈ ops, op.time ≤ nowUnixMs) (hstart : start ≤ nowUnixMs) (hroom : HasRoom call s ops) :
    Tracks call nowUnixMs (afterSpeaking s ops) (reports ++ madeFor call s ops) := by
  induction ops generalizing s reports start
  case nil => simpa [afterSpeaking, madeFor] using h.wait hstart
  case cons op ops ih =>
    obtain ⟨hfirst, hrest⟩ := pairwise_cons.mp hsteady
    have hop := op.tracks h (hle op (by simp)) hroom.1
    have hlater := ih hop hrest (fun op' hmem => hfirst _ (mem_map_of_mem hmem))
      (fun op' hmem => hnow op' (by simp [hmem])) (hnow op (by simp)) hroom.2
    rwa [append_assoc] at hlater

end Steps

section Isolation

-- Other calls do not matter, whatever is reported for them.
theorem activeSpeaker_of_tracks (h : Tracks call nowUnixMs s reports)
    (hview : requireObserver view actor = .ok ()) :
    ((activeSpeaker view actor call nowUnixMs).run s).1 = .ok (dominant reports nowUnixMs) := by
  have heligible (l : SpeakerReports) : (l.filter fun e => e.call = call ∧ Fresh nowUnixMs e).filter
      (fun e => 0 < e.level ∧ e.reportedAtUnixMs ≤ nowUnixMs) = l.filter fun e =>
        (e.call = call && 0 < e.level && e.reportedAtUnixMs ≤ nowUnixMs) && (e.call ≠ call ||
          I64.saturatingSub nowUnixMs e.reportedAtUnixMs ≤ activeSpeakerReportTtlMs) := by
    rw [filter_filter]
    refine filter_congr fun e _ => ?_
    by_cases hcall : e.call = call <;> simp [hcall, saturatingSub_le, Fresh]
  have hlatest : ((latest reports).filter (Fresh nowUnixMs)).filter
      (fun e => 0 < e.level ∧ e.reportedAtUnixMs ≤ nowUnixMs) =
        (latest reports).filter (Eligible nowUnixMs) := by
    rw [filter_filter]
    refine filter_congr fun e _ => ?_
    rw [← Bool.decide_and, decide_eq_decide]
    simp only [Eligible, Fresh, activeSpeakerReportTtlMs]
    omega
  rw [run_activeSpeaker, hview]
  simp only [filter_filter, dominant, ← heligible, h.same _ le_rfl, hlatest]

-- The times of all calls that share the list go forward.
theorem active_speaker_of_own_reports (ops : List SpeakerOp) (view : ConferenceView)
    (actor : PrincipalRef) (call : ScopedId) (nowUnixMs : ℤ)
    (hsteady : (ops.map (·.time) ++ [nowUnixMs]).Pairwise (· ≤ ·)) (hroom : HasRoom call [] ops)
    (hview : requireObserver view actor = .ok ()) :
    let reports := madeFor call [] ops
    ((activeSpeaker view actor call nowUnixMs).run (afterSpeaking [] ops)).1 =
        .ok (dominant reports nowUnixMs) ∧
      ((∃ entry, IsLatest reports entry ∧ Eligible nowUnixMs entry) →
        ∃ speaker, dominant reports nowUnixMs = some speaker.participant ∧
          IsLatest reports speaker ∧ Eligible nowUnixMs speaker ∧
          ∀ other, IsLatest reports other → Eligible nowUnixMs other → other.key ≤ speaker.key) := by
  obtain ⟨hops, -, hnow⟩ := pairwise_append.mp hsteady
  refine ⟨?_, fun hexists => ?_⟩
  · refine activeSpeaker_of_tracks ?_ hview
    cases ops
    case nil => exact Tracks.nil
    case cons op ops =>
      have hnow' : ∀ op' ∈ op :: ops, op'.time ≤ nowUnixMs := fun op' hmem =>
        hnow _ (mem_map_of_mem hmem) _ (mem_singleton_self _)
      have hfirst : ∀ op' ∈ op :: ops, op.time ≤ op'.time := forall_mem_cons.mpr
        ⟨le_rfl, fun op' hmem => (pairwise_cons.mp hops).1 _ (mem_map_of_mem hmem)⟩
      exact tracks_afterSpeaking Tracks.nil hops hfirst hnow' (hnow' op (by simp)) hroom
  · obtain ⟨entry, hlatest, heligible⟩ := hexists
    exact dominant_spec hlatest heligible

namespace Scenario

def duet : CallSession :=
  bobTakesCall (named "duet") ⟨named "duet-chat", .privateGroup⟩

def duetView : ConferenceView := ⟨true, true, .ok duet⟩

def duetRehearsal : ScopedId := (tenant, named "duet-rehearsal")
def duetConcert : ScopedId := (tenant, named "duet-concert")

def aliceSpeaks : SpeakerOp := .report duetView alice duetRehearsal 60 1005
def bobHums     : SpeakerOp := .report duetView bob duetRehearsal 30 1005
def bobConcert  : SpeakerOp := .report duetView bob duetConcert 40 1004

end Scenario

open Scenario

theorem alice_heard_over_bob :
    ((activeSpeaker duetView bob duetRehearsal 1006).run
        (afterSpeaking [] [bobConcert, aliceSpeaks, bobHums])).1 = .ok (some alice) := by
  have hdominant :
      dominant (madeFor duetRehearsal [] [bobConcert, aliceSpeaks, bobHums]) 1006 = some alice := by
    decide +kernel
  have hanswer := active_speaker_of_own_reports [bobConcert, aliceSpeaks, bobHums] duetView bob
    duetRehearsal
    1006 (by decide) (by decide +kernel) (by decide)
  rw [hanswer.1, hdominant]

-- The clock is read before the list is locked. A report that was stamped a moment earlier in
-- another call, and comes a moment later, silences everybody.
theorem alice_silenced_by_concert :
    HasRoom duetRehearsal [] [aliceSpeaks, bobConcert] ∧
      madeFor duetRehearsal [] [aliceSpeaks, bobConcert] = madeFor duetRehearsal [] [aliceSpeaks] ∧
      dominant (madeFor duetRehearsal [] [aliceSpeaks, bobConcert]) 1006 = some alice ∧
      ((activeSpeaker duetView bob duetRehearsal 1006).run (afterSpeaking [] [aliceSpeaks])).1 =
        .ok (some alice) ∧
      ((activeSpeaker duetView bob duetRehearsal 1006).run
        (afterSpeaking [] [aliceSpeaks, bobConcert])).1 =
        .ok none := by
  decide +kernel

end Isolation

end Ucr
