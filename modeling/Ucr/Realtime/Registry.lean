import Ucr.Lib.Keyed
import Ucr.Objects.Realtime
import Ucr.Store.State

-- The sessions that take part in calls on one node, and the bandwidth charged for them. Everything
-- is done under one lock, so an operation is a single step, and it leaves a registry behind also
-- when it fails.

namespace Ucr

open Encoding

def maxJoinGeneration : ℕ := 2 ^ 53 - 1
def initialJoinGenerationMask : ℕ := 2 ^ 52 - 1
def bandwidthWindowMs : ℤ := 1000

inductive RealtimeRegistryError
  | expired
  | capacityExceeded
  | claimMismatch
  | clockRollback
  | sessionUnavailable
  | sequenceOverflow
deriving DecidableEq

structure BandwidthWindow where
  owner : ScopedPrincipal
  windowStartUnixMs : ℤ
  usedBits : U64

-- Channels are numbered as they are opened. Sender and receiver of one have the same number.
abbrev ChannelId := ℕ

structure SessionEntry where
  claims : RealtimeSessionClaims
  sender : ChannelId
  receiver : Option ChannelId
  sequence : U64
  joinGeneration : U64
  mediaReady : Bool
  publisherOwner : Option ScopedPrincipal
  lastSeenUnixMs : ℤ

def SessionEntry.session (entry : SessionEntry) : SessionKey :=
  entry.claims.session

theorem SessionEntry.session_congr {entry entry' : SessionEntry} (h : entry.claims = entry'.claims) :
    entry.session = entry'.session :=
  congrArg RealtimeSessionClaims.session h

def SessionEntry.call (entry : SessionEntry) : ScopedId :=
  (entry.claims.scope, entry.claims.callId)

structure RealtimeSessionRegistry where
  entries : Roster SessionEntry.session
  expiredCallCleanup : List ScopedId
  pendingWebrtcCloses : List SessionKey
  trackExpiredCallCleanup : Bool
  bandwidthUsage : Roster BandwidthWindow.owner
  lastJoinGeneration : U64
  maxSessions : ℕ
  queueCapacity : ℕ
  -- How many channels there are, and which of their receivers are gone.
  channels : ℕ
  closed : List ChannelId

abbrev RegistryResult (α : Type) := Except RealtimeRegistryError α × RealtimeSessionRegistry

structure RealtimeJoinOutcome where
  claims : RealtimeSessionClaims
  transition : AttendanceTransition
  joinGeneration : U64

structure RealtimeDownlinkAttachment where
  receiver   : ChannelId
  transition : Option AttendanceTransition

namespace RealtimeSessionRegistry

def new (maxSessions queueCapacity : ℕ) (trackExpiredCallCleanup : Bool) :
    RealtimeSessionRegistry where
  entries := .empty
  expiredCallCleanup := []
  pendingWebrtcCloses := []
  trackExpiredCallCleanup := trackExpiredCallCleanup
  bandwidthUsage := .empty
  lastJoinGeneration := 0
  maxSessions := maxSessions
  queueCapacity := queueCapacity
  channels := 0
  closed := []

variable (r : RealtimeSessionRegistry)

variable (claims : RealtimeSessionClaims)

def find : Option SessionEntry :=
  r.entries.find claims.session

def update (f : SessionEntry → SessionEntry)
    (hf : ∀ entry, (f entry).claims = entry.claims) : RealtimeSessionRegistry :=
  { r with
    entries := r.entries.update claims.session f fun entry =>
      SessionEntry.session_congr (hf entry) }

def openChannel : ChannelId × RealtimeSessionRegistry :=
  (r.channels, { r with channels := r.channels + 1 })

def queueWebrtcClose : RealtimeSessionRegistry :=
  if claims.session ∈ r.pendingWebrtcCloses then r
  else { r with pendingWebrtcCloses := r.pendingWebrtcCloses ++ [claims.session] }

def acknowledgeWebrtcClose (session : SessionKey) : RealtimeSessionRegistry :=
  { r with pendingWebrtcCloses := r.pendingWebrtcCloses.filter (· ≠ session) }

variable (nowUnixMs : ℤ)

def live (entry : SessionEntry) : Bool :=
  nowUnixMs < entry.claims.expiresAtUnixMs

-- Calls whose last sessions have expired, in the order of the entries.
def finalExpiredCalls : List ScopedId :=
  (r.entries.toList.filter (!live nowUnixMs ·)).foldl (fun calls entry =>
    if entry.call ∈ calls ∨
      r.entries.toList.any (fun other => live nowUnixMs other && other.call = entry.call)
    then calls else calls ++ [entry.call]) []

def pushCandidate (pending : List ScopedId) (call : ScopedId) : List ScopedId :=
  if call ∈ pending then pending else pending ++ [call]

def pruneExpired : RegistryResult Unit :=
  let entries := r.entries.retain (live nowUnixMs)
  if !r.trackExpiredCallCleanup then
    (.ok (), { r with entries })
  else
    let finalCalls := r.finalExpiredCalls nowUnixMs
    let newCandidates := (finalCalls.filter (· ∉ r.expiredCallCleanup)).length
    if r.expiredCallCleanup.length + newCandidates > r.maxSessions then
      (.error .capacityExceeded, r)
    else
      (.ok (), { r with
        entries
        expiredCallCleanup := finalCalls.foldl pushCandidate r.expiredCallCleanup })

-- What is the same in every operation on a session: expired sessions are removed first, and the
-- session has to be there with just these claims.
def withSession {α : Type} (claims : RealtimeSessionClaims) (nowUnixMs : ℤ)
    (act : RealtimeSessionRegistry → SessionEntry →
      RegistryResult α) :
    RegistryResult α :=
  if nowUnixMs ≥ claims.expiresAtUnixMs then
    (.error .expired, r)
  else
    match r.pruneExpired nowUnixMs with
    | (.error e, r) => (.error e, r)
    | (.ok (), r)   =>
      match r.find claims with
      | none => (.error .sessionUnavailable, r)
      | some entry => if entry.claims ≠ claims then (.error .claimMismatch, r) else act r entry

def activeClaimsAt :
    RegistryResult (List RealtimeSessionClaims) :=
  match r.pruneExpired nowUnixMs with
  | (.error e, r) => (.error e, r)
  | (.ok (), r)   => (.ok (r.entries.toList.map (·.claims)), r)

def activeCallSessionCountAt (call : ScopedId) (nowUnixMs : ℤ) :
    RegistryResult ℕ :=
  match r.pruneExpired nowUnixMs with
  | (.error e, r) => (.error e, r)
  | (.ok (), r)   => (.ok (r.entries.toList.countP (·.call = call)), r)

def expiredCallCleanupCandidatesAt :
    RegistryResult (List ScopedId) :=
  match r.pruneExpired nowUnixMs with
  | (.error e, r) => (.error e, r)
  | (.ok (), r)   => (.ok r.expiredCallCleanup, r)

def acknowledgeExpiredCallCleanup (call : ScopedId) : RealtimeSessionRegistry :=
  { r with expiredCallCleanup := r.expiredCallCleanup.filter (· ≠ call) }

def queueCallCleanupCandidate (call : ScopedId) :
    RegistryResult Unit :=
  if !r.trackExpiredCallCleanup ∨ call ∈ r.expiredCallCleanup then
    (.ok (), r)
  else if r.expiredCallCleanup.length ≥ r.maxSessions then
    (.error .capacityExceeded, r)
  else
    (.ok (), { r with expiredCallCleanup := r.expiredCallCleanup ++ [call] })

-- The first eight bytes of a digest, cut to the range a client can represent.
def initialGeneration (nonce : OpaqueId) : ℕ :=
  beNat ((sha256 nonce.asWireBytes).bytes.take 8) % (initialJoinGenerationMask + 1)

variable (nonce : Option OpaqueId)

-- The first generation is drawn at random, and the rest are counted from there. Drawing can fail.
def seedGeneration :
    RegistryResult Unit :=
  if r.lastJoinGeneration = 0 then
    match nonce with
    | none => (.error .sessionUnavailable, r)
    | some nonce =>
      (.ok (), { r with lastJoinGeneration := Fin.ofNat _ (max (initialGeneration nonce) 1) })
  else
    (.ok (), r)

def nextJoinGeneration :
    Except RealtimeRegistryError U64 × RealtimeSessionRegistry :=
  match r.seedGeneration nonce with
  | (.error e, r) => (.error e, r)
  | (.ok (), r)   =>
    match r.lastJoinGeneration.checkedSucc.filter (·.val ≤ maxJoinGeneration) with
    | none      => (.error .sequenceOverflow, r)
    | some next => (.ok next, { r with lastJoinGeneration := next })

-- The session goes on in a new generation and with a new channel.
def renew (sequence : U64) : RegistryResult RealtimeJoinOutcome :=
  match r.nextJoinGeneration nonce with
  | (.error e, r) => (.error e, r)
  | (.ok generation, r) =>
    let (channel, r) := r.openChannel
    (.ok ⟨claims, ⟨.reconnected, claims, sequence, nowUnixMs⟩, generation⟩,
      r.update claims ({ · with
        joinGeneration := generation
        mediaReady := false
        publisherOwner := none
        lastSeenUnixMs := nowUnixMs
        sender := channel
        receiver := some channel }) fun _ => rfl)

-- The sequence stays counted also if there is no generation left.
def reconnect (entry : SessionEntry) :
    RegistryResult RealtimeJoinOutcome :=
  match entry.sequence.checkedSucc with
  | none => (.error .sequenceOverflow, r)
  | some sequence =>
    (r.update claims ({ · with sequence }) fun _ => rfl).renew claims nowUnixMs nonce sequence

def connect :
    RegistryResult RealtimeJoinOutcome :=
  if r.entries.length ≥ r.maxSessions then
    (.error .capacityExceeded, r)
  else
    match r.nextJoinGeneration nonce with
    | (.error e, r) => (.error e, r)
    | (.ok generation, r) =>
      let (channel, r) := r.openChannel
      (.ok ⟨claims, ⟨.joined, claims, 1, nowUnixMs⟩, generation⟩, { r with
        entries := r.entries.push {
          claims
          sender := channel
          receiver := some channel
          sequence := 1
          joinGeneration := generation
          mediaReady := false
          publisherOwner := none
          lastSeenUnixMs := nowUnixMs } })

def join :
    RegistryResult RealtimeJoinOutcome :=
  if nowUnixMs ≥ claims.expiresAtUnixMs then
    (.error .expired, r)
  else if r.maxSessions = 0 ∨ r.queueCapacity = 0 then
    (.error .capacityExceeded, r)
  else
    match r.pruneExpired nowUnixMs with
    | (.error e, r) => (.error e, r)
    | (.ok (), r)   =>
      match r.find claims with
      | some entry =>
        if entry.claims ≠ claims then (.error .claimMismatch, r)
        else r.reconnect claims nowUnixMs nonce entry
      | none => r.connect claims nowUnixMs nonce

-- The prepared receiver is handed out once. After that there is a new one only when it is gone.
def attachDownlink :
    RegistryResult RealtimeDownlinkAttachment :=
  r.withSession claims nowUnixMs fun r entry =>
    match entry.receiver with
    | some receiver => (.ok ⟨receiver, none⟩, r.update claims ({ · with receiver := none }) fun _ => rfl)
    | none =>
      if entry.sender ∉ r.closed then
        (.error .sessionUnavailable, r)
      else
        match entry.sequence.checkedSucc with
        | none => (.error .sequenceOverflow, r)
        | some sequence =>
          let (channel, r) := r.openChannel
          (.ok ⟨channel, some ⟨.reconnected, claims, sequence, nowUnixMs⟩⟩,
            r.update claims ({ · with sequence, mediaReady := false, sender := channel }) fun _ => rfl)

def heartbeatWithGeneration (expectedJoinGeneration : Option U64)
    (nowUnixMs : ℤ) : RegistryResult (U64 × Bool) :=
  r.withSession claims nowUnixMs fun r entry =>
    if expectedJoinGeneration.any (· ≠ entry.joinGeneration) then
      (.ok (entry.sequence, false), r)
    else
      (.ok (entry.sequence, true), r.update claims ({ · with lastSeenUnixMs := nowUnixMs }) fun _ => rfl)

def heartbeat :
    Except RealtimeRegistryError U64 × RealtimeSessionRegistry :=
  let (result, r) := r.heartbeatWithGeneration claims none nowUnixMs
  (Prod.fst <$> result, r)

def heartbeatIfJoinGeneration (expectedJoinGeneration : U64)
    (nowUnixMs : ℤ) : RegistryResult (Option U64) :=
  if expectedJoinGeneration = 0 then
    (.ok none, r)
  else
    let (result, r) := r.heartbeatWithGeneration claims (some expectedJoinGeneration) nowUnixMs
    ((fun (sequence, matched) => if matched then some sequence else none) <$> result, r)

def currentJoinGeneration :
    Except RealtimeRegistryError U64 × RealtimeSessionRegistry :=
  r.withSession claims nowUnixMs fun r entry => (.ok entry.joinGeneration, r)

-- A session takes one of the places its owner has for publishers, however much it publishes.
def claimPublisherSlot (owner : ScopedPrincipal)
    (maxConcurrentPublishers : U64) (nowUnixMs : ℤ) :
    RegistryResult Unit :=
  if nowUnixMs ≥ claims.expiresAtUnixMs then
    (.error .expired, r)
  else if owner.scope ≠ claims.scope ∨ owner.principal.kind ≠ .serviceAccount then
    (.error .claimMismatch, r)
  else if maxConcurrentPublishers = 0 then
    (.error .capacityExceeded, r)
  else
    r.withSession claims nowUnixMs fun r entry =>
      match entry.publisherOwner with
      | some existing => (if existing = owner then .ok () else .error .claimMismatch, r)
      | none =>
        if r.entries.toList.countP (·.publisherOwner = some owner) ≥ maxConcurrentPublishers.val then
          (.error .capacityExceeded, r)
        else
          (.ok (), r.update claims ({ · with publisherOwner := some owner }) fun _ => rfl)

def markMediaReady :
    RegistryResult (Option AttendanceTransition) :=
  r.withSession claims nowUnixMs fun r entry =>
    if entry.mediaReady then
      (.ok none, r)
    else
      match entry.sequence.checkedSucc with
      | none =>
        (.error .sequenceOverflow, r.update claims ({ · with mediaReady := true }) fun _ => rfl)
      | some sequence =>
        (.ok (some ⟨.mediaReady, claims, sequence, nowUnixMs⟩),
          r.update claims ({ · with mediaReady := true, sequence }) fun _ => rfl)

-- Leaving does not look at the clock.
def leaveMatchingSequence (expectedSessionSequence : Option U64)
    (nowUnixMs : ℤ) : RegistryResult AttendanceTransition :=
  match r.find claims with
  | none => (.error .sessionUnavailable, r)
  | some entry =>
    if entry.claims ≠ claims ∨ expectedSessionSequence.any (entry.joinGeneration ≠ ·) then
      (.error .claimMismatch, r)
    else
      match entry.sequence.checkedSucc with
      | none => (.error .sequenceOverflow, r)
      | some sequence =>
        (.ok ⟨.left, claims, sequence, nowUnixMs⟩,
          { r with entries := r.entries.retain (·.session ≠ claims.session) })

def leave :
    RegistryResult AttendanceTransition :=
  r.leaveMatchingSequence claims none nowUnixMs

def leaveIfSequence (expectedSessionSequence : U64)
    (nowUnixMs : ℤ) : RegistryResult AttendanceTransition :=
  if expectedSessionSequence = 0 then
    (.error .claimMismatch, r)
  else
    r.leaveMatchingSequence claims (some expectedSessionSequence) nowUnixMs

-- Somebody who was given a receiver lets go of it.
def dropReceiver (receiver : ChannelId) : RealtimeSessionRegistry :=
  { r with closed := receiver :: r.closed }

def updateUsage (owner : ScopedPrincipal) (f : BandwidthWindow → BandwidthWindow)
    (hf : ∀ entry, (f entry).owner = entry.owner) : RealtimeSessionRegistry :=
  { r with bandwidthUsage := r.bandwidthUsage.update owner f hf }

def windowStart : ℤ :=
  nowUnixMs - nowUnixMs % bandwidthWindowMs

def chargeAggregateBandwidth (owner : ScopedPrincipal) (maxAggregateBandwidthBps wireBytes : U64)
    (nowUnixMs : ℤ) : RegistryResult Unit :=
  if owner.principal.kind ≠ .serviceAccount then
    (.error .claimMismatch, r)
  else if maxAggregateBandwidthBps = 0 then
    (.error .capacityExceeded, r)
  else if nowUnixMs < 0 then
    (.error .clockRollback, r)
  else if h : wireBytes.val * 8 < 2 ^ 64 then
    let wireBits : U64 := ⟨wireBytes.val * 8, h⟩
    let window := windowStart nowUnixMs
    if wireBits > maxAggregateBandwidthBps then
      (.error .capacityExceeded, r)
    else
      match r.bandwidthUsage.find owner with
      | some entry =>
        if entry.windowStartUnixMs > window then
          (.error .clockRollback, r)
        else if entry.windowStartUnixMs < window then
          (.ok (), r.updateUsage owner ({ · with windowStartUnixMs := window, usedBits := wireBits })
            fun _ => rfl)
        else
          match (entry.usedBits.checkedAdd wireBits).filter (· ≤ maxAggregateBandwidthBps) with
          | none      => (.error .capacityExceeded, r)
          | some next =>
            (.ok (), r.updateUsage owner ({ · with usedBits := next }) fun _ => rfl)
      | none =>
        let usage := r.bandwidthUsage.retain (·.windowStartUnixMs ≥ window - bandwidthWindowMs)
        if usage.length ≥ min (r.maxSessions * 2) (2 ^ 64 - 1) then
          (.error .capacityExceeded, { r with bandwidthUsage := usage })
        else
          (.ok (), { r with bandwidthUsage := usage.push ⟨owner, window, wireBits⟩ })
  else
    (.error .capacityExceeded, r)

end RealtimeSessionRegistry

end Ucr
