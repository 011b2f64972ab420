import Ucr.Objects.Basic

-- What a participant shows to be let into a call, and what is told about who comes and goes.

namespace Ucr

inductive JoinGrantUsePolicy
  | singleUse
  | reusable
deriving DecidableEq

structure RealtimeSessionClaims where
  scope : TenantScope
  callId : CallId
  participant : PrincipalRef
  deviceId : Option DeviceId
  sessionId : SessionId
  issuedAtUnixMs : ℤ
  notBeforeUnixMs : ℤ
  expiresAtUnixMs : ℤ
  usePolicy : JoinGrantUsePolicy
deriving DecidableEq

-- Claims are about the same session if these agree.
structure SessionKey where
  scope     : TenantScope
  callId    : CallId
  sessionId : SessionId
deriving DecidableEq

def RealtimeSessionClaims.session (claims : RealtimeSessionClaims) : SessionKey :=
  ⟨claims.scope, claims.callId, claims.sessionId⟩

inductive AttendanceTransitionKind
  | joined
  | left
  | reconnected
  | mediaReady
deriving DecidableEq

structure AttendanceTransition where
  kind : AttendanceTransitionKind
  claims : RealtimeSessionClaims
  sessionSequence : U64
  occurredAtUnixMs : ℤ
deriving DecidableEq

end Ucr
