import Ucr.Objects.Basic

-- Conferences that an integration runs on top of a group.

namespace Ucr

inductive UniversalConferenceMode
  | meeting
  | webinar
  | broadcast
  | audioRoom
deriving DecidableEq

inductive UniversalConferenceLifecycle
  | scheduled
  | waiting
  | live
  | ending
  | ended
deriving DecidableEq

structure UniversalConferenceMetadataEntry where
  key   : String
  value : Bytes
deriving DecidableEq

structure ConferenceScheduleMetadata where
  startsAtUnixMs : ℤ
  plannedEndUnixMs : Option ℤ
  joinBeforeSeconds : U32
  joinAfterSeconds : U32
  timezone : Option String
deriving DecidableEq

structure UniversalConferenceProfile where
  scope : TenantScope
  conferenceId : GroupId
  integrationId : IntegrationId
  externalConferenceId : Bytes
  createIdempotencyKey : String
  mode : UniversalConferenceMode
  lifecycle : UniversalConferenceLifecycle
  schedule : ConferenceScheduleMetadata
  metadata : List UniversalConferenceMetadataEntry
  entryOpen : Bool
  revision : U64
deriving DecidableEq

inductive ConferenceParticipantRole
  | owner
  | host
  | moderator
  | speaker
  | attendee
deriving DecidableEq

-- What a participant may do in a conference, apart from who they are.
structure ConferenceParticipantPolicy where
  role : ConferenceParticipantRole
  audioMuted : Bool
  cameraAllowed : Bool
  publishAudioAllowed : Bool
  publishVideoAllowed : Bool
  screenShareAllowed : Bool
  active : Bool
deriving DecidableEq

structure UniversalConferenceParticipantProfile extends ConferenceParticipantPolicy where
  scope : TenantScope
  conferenceId : GroupId
  integrationId : IntegrationId
  externalUserId : Bytes
  participant : PrincipalRef
  revision : U64
deriving DecidableEq

inductive ConferenceMetadataError
  | tooManyEntries
  | invalidKey
  | duplicateKey
  | valueTooLarge
  | totalTooLarge

end Ucr
