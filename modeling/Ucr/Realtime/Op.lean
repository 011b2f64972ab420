import Ucr.Realtime.Registry

-- What can be asked of a registry, and what it says about sessions in return.

namespace Ucr

inductive RegistryOp
  | join (claims : RealtimeSessionClaims) (nowUnixMs : ℤ) (nonce : Option OpaqueId)
  | attachDownlink (claims : RealtimeSessionClaims) (nowUnixMs : ℤ)
  | heartbeat (claims : RealtimeSessionClaims) (nowUnixMs : ℤ)
  | heartbeatIfJoinGeneration (claims : RealtimeSessionClaims) (expectedJoinGeneration : U64)
      (nowUnixMs : ℤ)
  | currentJoinGeneration (claims : RealtimeSessionClaims) (nowUnixMs : ℤ)
  | claimPublisherSlot (claims : RealtimeSessionClaims) (owner : ScopedPrincipal)
      (maxConcurrentPublishers : U64) (nowUnixMs : ℤ)
  | markMediaReady (claims : RealtimeSessionClaims) (nowUnixMs : ℤ)
  | leave (claims : RealtimeSessionClaims) (nowUnixMs : ℤ)
  | leaveIfSequence (claims : RealtimeSessionClaims) (expectedSessionSequence : U64) (nowUnixMs : ℤ)
  | chargeAggregateBandwidth (owner : ScopedPrincipal) (maxAggregateBandwidthBps wireBytes : U64)
      (nowUnixMs : ℤ)
  -- All questions that first remove what has expired and then only look.
  | expire (nowUnixMs : ℤ)
  | queueCallCleanupCandidate (call : ScopedId)
  | acknowledgeExpiredCallCleanup (call : ScopedId)
  | queueWebrtcClose (claims : RealtimeSessionClaims)
  | acknowledgeWebrtcClose (session : SessionKey)
  | dropReceiver (receiver : ChannelId)

inductive RegistryAnswer
  | joined (outcome : RealtimeJoinOutcome)
  | attached (claims : RealtimeSessionClaims) (attachment : RealtimeDownlinkAttachment)
  | mediaReady (transition : AttendanceTransition)
  | left (transition : AttendanceTransition)
  -- Everything else, failures included.
  | other

namespace RegistryAnswer

def outcome : RegistryAnswer → Option RealtimeJoinOutcome
  | joined outcome => some outcome
  | _ => none

def receiver : RegistryAnswer → Option ChannelId
  | attached _ attachment => some attachment.receiver
  | _ => none

def transition : RegistryAnswer → Option AttendanceTransition
  | joined outcome => some outcome.transition
  | attached _ attachment => attachment.transition
  | mediaReady transition => some transition
  | left transition => some transition
  | other => none

end RegistryAnswer

open RealtimeSessionRegistry

def answer {α : Type} (f : α → RegistryAnswer) :
    RegistryResult α → RegistryAnswer × RealtimeSessionRegistry
  | (.ok a, r)    => (f a, r)
  | (.error _, r) => (.other, r)

def RegistryOp.run (r : RealtimeSessionRegistry) : RegistryOp → RegistryAnswer × RealtimeSessionRegistry
  | join claims now nonce => answer .joined (r.join claims now nonce)
  | attachDownlink claims now => answer (.attached claims) (r.attachDownlink claims now)
  | heartbeat claims now => answer (fun _ => .other) (r.heartbeat claims now)
  | heartbeatIfJoinGeneration claims g now =>
    answer (fun _ => .other) (r.heartbeatIfJoinGeneration claims g now)
  | currentJoinGeneration claims now =>
    answer (fun _ => .other) (r.currentJoinGeneration claims now)
  | claimPublisherSlot claims owner max now   =>
    answer (fun _ => .other) (r.claimPublisherSlot claims owner max now)
  | markMediaReady claims now =>
    answer (·.elim .other .mediaReady) (r.markMediaReady claims now)
  | leave claims now => answer .left (r.leave claims now)
  | leaveIfSequence claims g now => answer .left (r.leaveIfSequence claims g now)
  | chargeAggregateBandwidth owner max wireBytes now =>
    answer (fun _ => .other) (r.chargeAggregateBandwidth owner max wireBytes now)
  | expire now => answer (fun _ => .other) (r.pruneExpired now)
  | queueCallCleanupCandidate call =>
    answer (fun _ => .other) (r.queueCallCleanupCandidate call)
  | acknowledgeExpiredCallCleanup call => (.other, r.acknowledgeExpiredCallCleanup call)
  | queueWebrtcClose claims => (.other, r.queueWebrtcClose claims)
  | acknowledgeWebrtcClose session => (.other, r.acknowledgeWebrtcClose session)
  | dropReceiver receiver => (.other, r.dropReceiver receiver)

namespace RealtimeSessionRegistry

def after (r : RealtimeSessionRegistry) : List RegistryOp → RealtimeSessionRegistry
  | [] => r
  | op :: ops => (op.run r).2.after ops

def answers (r : RealtimeSessionRegistry) : List RegistryOp → List RegistryAnswer
  | [] => []
  | op :: ops => (op.run r).1 :: (op.run r).2.answers ops

end RealtimeSessionRegistry

end Ucr
