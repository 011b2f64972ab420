import Ucr.Protocol.Call
import Ucr.Store.State
import Mathlib.Data.List.MinMax

-- Who is speaking, told from what the participants report about their own microphones. All calls
-- share one list of reports.

namespace Ucr

open Except

inductive ConferenceError
  | protocol
  | authorization
  | store (e : DurableStoreError)
  | capabilityUnavailable
  | groupUnavailable
  | groupCryptoUnavailable
  | callUnavailable
  | notConference
  | subscriberNotAccepted
  | subscriptionCapacityExceeded
  | invalidAudioLevel
deriving DecidableEq

structure ActiveSpeakerState where
  scope : TenantScope
  callId : CallId
  participant : PrincipalRef
  level : Fin 256
  reportedAtUnixMs : ℤ
deriving DecidableEq

def activeSpeakerReportTtlMs : ℤ := 3000
def maxTrackedConferenceRecipientSets : ℕ := 4096

-- What is read before: the capabilities, the permissions of the actor and the call as it is shown
-- to them.
structure ConferenceView where
  stackAvailable : Bool
  authorized     : Bool
  projection     : Except ConferenceError CallSession

def isAcceptedParticipant (call : CallSession) (principal : PrincipalRef) : Bool :=
  call.participants.any fun participant =>
    participant.principal = principal && participant.state = .accepted && participant.leftRevision.isNone

def requireAcceptedParticipant (call : CallSession) (principal : PrincipalRef) :
    Except ConferenceError Unit :=
  rejectIf (¬isAcceptedParticipant call principal) .subscriberNotAccepted

def requireObserver (view : ConferenceView) (actor : PrincipalRef) : Except ConferenceError Unit := do
  rejectIf (¬view.stackAvailable) .capabilityUnavailable
  rejectIf (¬view.authorized) .authorization
  let call ← view.projection
  requireAcceptedParticipant call actor

def audioLevel (level : U32) : Except ConferenceError (Fin 256) :=
  if h : level.val < 256 then
    if level.val > 100 then .error .invalidAudioLevel else .ok ⟨level.val, h⟩
  else
    .error .invalidAudioLevel

instance audioLevelNeZero : NeZero 256 := ⟨by decide⟩

instance speakerKeyOrder : LinearOrder (Fin 256 ×ₗ ℤ) :=
  @Prod.Lex.instLinearOrder (Fin 256) ℤ _ Int.instLinearOrder

instance speakerKeyPreorder : Preorder (Fin 256 ×ₗ ℤ) :=
  speakerKeyOrder.toPreorder

namespace ActiveSpeakerState

def call (entry : ActiveSpeakerState) : ScopedId :=
  (entry.scope, entry.callId)

def owner (entry : ActiveSpeakerState) : ScopedId × PrincipalRef :=
  (entry.call, entry.participant)

def key (entry : ActiveSpeakerState) : Fin 256 ×ₗ ℤ :=
  toLex (entry.level, entry.reportedAtUnixMs)

end ActiveSpeakerState

abbrev Speakers := InPlace (List ActiveSpeakerState) ConferenceError

-- The list is pruned by the time of the report, whosever reports are in it. When there is no room
-- the previous report of the participant is gone all the same.
def reportAudioLevel (view : ConferenceView) (actor : PrincipalRef) (call : ScopedId) (level : U32)
    (reportedAtUnixMs : ℤ) : Speakers Unit := do
  InPlace.ofExcept (requireObserver view actor)
  let level ← InPlace.ofExcept (audioLevel level)
  modify (·.filter fun entry => entry.reportedAtUnixMs ≤ reportedAtUnixMs &&
    I64.saturatingSub reportedAtUnixMs entry.reportedAtUnixMs ≤ activeSpeakerReportTtlMs)
  modify (·.filter fun entry => entry.owner ≠ (call, actor))
  let state ← get
  if state.countP (·.call = call) ≥ maxCallParticipants ∨
      state.length ≥ maxTrackedConferenceRecipientSets then
    throw .subscriptionCapacityExceeded
  else
    set (state ++ [⟨call.1, call.2, actor, level, reportedAtUnixMs⟩])

-- Of several greatest entries the last one is taken.
def activeSpeaker (view : ConferenceView) (actor : PrincipalRef) (call : ScopedId) (nowUnixMs : ℤ) :
    Speakers (Option PrincipalRef) := do
  InPlace.ofExcept (requireObserver view actor)
  modify (·.filter fun entry => entry.call ≠ call ||
    I64.saturatingSub nowUnixMs entry.reportedAtUnixMs ≤ activeSpeakerReportTtlMs)
  let state ← get
  let eligible := state.filter fun entry =>
    entry.call = call && 0 < entry.level && entry.reportedAtUnixMs ≤ nowUnixMs
  return (eligible.reverse.argmax ActiveSpeakerState.key).map (·.participant)

inductive SpeakerOp
  | report (view : ConferenceView) (actor : PrincipalRef) (call : ScopedId) (level : U32)
      (reportedAtUnixMs : ℤ)
  | ask (view : ConferenceView) (actor : PrincipalRef) (call : ScopedId) (nowUnixMs : ℤ)

namespace SpeakerOp

def time : SpeakerOp → ℤ
  | report _ _ _ _ reportedAtUnixMs => reportedAtUnixMs
  | ask _ _ _ nowUnixMs => nowUnixMs

def run : SpeakerOp → Speakers (Option PrincipalRef)
  | report view actor call level reportedAtUnixMs => do
    reportAudioLevel view actor call level reportedAtUnixMs
    return none
  | ask view actor call nowUnixMs => activeSpeaker view actor call nowUnixMs

end SpeakerOp

end Ucr
