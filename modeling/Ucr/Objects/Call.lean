import Ucr.Objects.Basic

-- Transport-agnostic call signalling records.

namespace Ucr

inductive CallSignallingState
  | inviting
  | ringing
  | active
  | reconnecting
  | terminated
deriving DecidableEq

inductive CallParticipantState
  | invited
  | ringing
  | accepted
  | rejected
  | busy
  | left
deriving DecidableEq

inductive CallTerminationReason
  | rejected
  | busy
  | cancelled
  | timedOut
  | completed
  | failed
deriving DecidableEq

inductive CallReconnectPhase
  | started
  | restored
deriving DecidableEq

inductive CallParticipantUpdateKind
  | add
  | remove
deriving DecidableEq

-- Removed, rejected and busy participants stay in the list as tombstones.
structure CallParticipant where
  principal : PrincipalRef
  state : CallParticipantState
  joinedRevision : U64
  leftRevision : Option U64
deriving DecidableEq

structure CallSession where
  scope : TenantScope
  callId : CallId
  conversation : ConversationRef
  initiatedBy : PrincipalRef
  participants : List CallParticipant
  signallingState : CallSignallingState
  reconnectingParticipant : Option PrincipalRef
  mediaNegotiationRef : Option OpaqueId
  mediaNegotiationGeneration : U64
  replicationGeneration : U64
  revision : U64
  terminationReason : Option CallTerminationReason
deriving DecidableEq

inductive CallSignalKind
  | ringing
  | accept
  | reject
  | busy
  | cancel
  | timeout
  | reconnect (phase : CallReconnectPhase)
  | participantUpdate (participant : PrincipalRef) (kind : CallParticipantUpdateKind)
  | mediaRenegotiation (negotiationRef : OpaqueId)
  | terminate (reason : CallTerminationReason)
deriving DecidableEq

structure CallSignal where
  eventId : EventId
  scope : TenantScope
  callId : CallId
  expectedRevision : U64
  kind : CallSignalKind
deriving DecidableEq

inductive CallSignallingError
  | invalidConversationKind
  | invalidSession
  | invalidParticipant
  | duplicateParticipant
  | tooManyParticipants
  | scopeMismatch
  | callMismatch
  | revisionMismatch
  | permissionDenied
  | invalidTransition
  | participantNotActive
  | participantAlreadyExists
  | wouldRemoveInitiator
  | overflow
deriving DecidableEq

namespace Scenario

def aliceCallsBob (callId : CallId) (conversation : ConversationRef) : CallSession where
  scope := tenant
  callId := callId
  conversation := conversation
  initiatedBy := alice
  participants := [⟨alice, .accepted, 0, none⟩, ⟨bob, .invited, 0, none⟩]
  signallingState := .inviting
  reconnectingParticipant := none
  mediaNegotiationRef := none
  mediaNegotiationGeneration := 0
  replicationGeneration := 0
  revision := 0
  terminationReason := none

def bobTakesCall (callId : CallId) (conversation : ConversationRef) : CallSession :=
  { aliceCallsBob callId conversation with
    participants := [⟨alice, .accepted, 0, none⟩, ⟨bob, .accepted, 0, none⟩]
    signallingState := .active
    replicationGeneration := 1
    revision := 1 }

end Scenario

end Ucr
