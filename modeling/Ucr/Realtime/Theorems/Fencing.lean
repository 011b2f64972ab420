import Ucr.Realtime.Theorems.Leases

-- What an old connection still asks for does nothing to the one that has replaced it.

namespace Ucr

open RealtimeSessionRegistry Leases List Option

namespace RealtimeSessionRegistry

def joins (r : RealtimeSessionRegistry) (ops : List RegistryOp) : List RealtimeJoinOutcome :=
  (r.answers ops).filterMap RegistryAnswer.outcome

def latestJoin (r : RealtimeSessionRegistry) (ops : List RegistryOp) (session : SessionKey) :
    Option RealtimeJoinOutcome :=
  ((r.joins ops).filter (·.claims.session = session)).getLast?

def handedOut (r : RealtimeSessionRegistry) (ops : List RegistryOp) : List ChannelId :=
  (r.answers ops).filterMap RegistryAnswer.receiver

-- Something was answered, or something is different afterwards.
def LeaveTakesEffect (r : RealtimeSessionRegistry) (claims : RealtimeSessionClaims) (generation : U64)
    (nowUnixMs : ℤ) : Prop :=
  (∃ transition, (r.leaveIfSequence claims generation nowUnixMs).1 = .ok transition) ∨
    (r.leaveIfSequence claims generation nowUnixMs).2 ≠ r

-- Sessions expire whoever asks, so that alone is no effect.
def HeartbeatTakesEffect (r : RealtimeSessionRegistry) (claims : RealtimeSessionClaims)
    (generation : U64) (nowUnixMs : ℤ) : Prop :=
  (∃ sequence, (r.heartbeatIfJoinGeneration claims generation nowUnixMs).1 = .ok (some sequence)) ∨
    ((r.heartbeatIfJoinGeneration claims generation nowUnixMs).2 ≠ r ∧
      (r.heartbeatIfJoinGeneration claims generation nowUnixMs).2 ≠ (r.pruneExpired nowUnixMs).2)

end RealtimeSessionRegistry

structure FencesStale (r : RealtimeSessionRegistry) (ops : List RegistryOp) : Prop where
  increasing : ((r.joins ops).map (·.joinGeneration)).Pairwise (· < ·)
  bounded    : ∀ joined ∈ r.joins ops, joined.joinGeneration.val ≤ maxJoinGeneration
  leave      : ∀ joined ∈ r.joins ops, ∀ claims nowUnixMs,
    LeaveTakesEffect (r.after ops) claims joined.joinGeneration nowUnixMs →
      claims.session = joined.claims.session ∧ r.latestJoin ops claims.session = some joined
  heartbeat  : ∀ joined ∈ r.joins ops, ∀ claims nowUnixMs,
    HeartbeatTakesEffect (r.after ops) claims joined.joinGeneration nowUnixMs →
      claims.session = joined.claims.session ∧ r.latestJoin ops claims.session = some joined
  receiver   : ∀ entry ∈ (r.after ops).entries, (r.handedOut ops).count entry.sender ≤ 1

variable {r : RealtimeSessionRegistry} {claims : RealtimeSessionClaims} {generation : U64}
  {nowUnixMs : ℤ}

def Leased (r : RealtimeSessionRegistry) (claims : RealtimeSessionClaims) (generation : U64) : Prop :=
  ∃ c, r.leases.conn claims.session = some c ∧ c.generation = generation.val

theorem leased_of_leave (h : LeaveTakesEffect r claims generation nowUnixMs) :
    Leased r claims generation := by
  simp only [LeaveTakesEffect, leaveIfSequence, leaveMatchingSequence] at h
  split at h
  case isTrue => simp at h
  case isFalse =>
    split at h
    case h_1 => simp at h
    case h_2 entry hfind =>
      split at h
      case isTrue => simp at h
      case isFalse hmatch =>
        rw [not_or] at hmatch
        refine ⟨entry.conn, by rw [leases_conn, hfind, map_some], ?_⟩
        simpa [SessionEntry.conn, Fin.ext_iff] using hmatch.2

-- A heartbeat leaves at most what has not expired, unless it finds the session in its generation.
theorem heartbeatWithGeneration_cases :
    ((r.heartbeatWithGeneration claims (some generation) nowUnixMs).2 = r ∨
        (r.heartbeatWithGeneration claims (some generation) nowUnixMs).2 =
          (r.pruneExpired nowUnixMs).2) ∧
      (∀ sequence, (r.heartbeatWithGeneration claims (some generation) nowUnixMs).1 ≠
        .ok (sequence, true)) ∨
    Leased r claims generation := by
  obtain ⟨conn, hconn, hleases⟩ := @pruneExpired_leases r nowUnixMs
  rw [heartbeatWithGeneration, withSession]
  split
  case isTrue => exact .inl ⟨.inl rfl, by simp⟩
  case isFalse =>
    split
    case h_1 heq => exact .inl ⟨.inr (by rw [heq]), by simp⟩
    case h_2 r₁ heq =>
      rw [heq] at hleases
      split
      case h_1 => exact .inl ⟨.inr (by rw [heq]), by simp⟩
      case h_2 entry hfind =>
        split
        case isTrue => exact .inl ⟨.inr (by rw [heq]), by simp⟩
        case isFalse =>
          split
          case isTrue => exact .inl ⟨.inr (by rw [heq]), by simp⟩
          case isFalse hsame =>
            have hfound : conn claims.session = some entry.conn :=
              calc conn claims.session
                _ = r₁.leases.conn claims.session :=
                  (congrArg (State.conn · claims.session) hleases).symm
                _ = some entry.conn := by rw [leases_conn, hfind, map_some]
            simp only [any_some, decide_eq_true_eq, not_not] at hsame
            exact .inr ⟨entry.conn, conn_of_expire hconn hfound, congrArg Fin.val hsame.symm⟩

theorem leased_of_heartbeat (h : HeartbeatTakesEffect r claims generation nowUnixMs) :
    Leased r claims generation := by
  obtain ⟨hstate, hanswer⟩ | hleased :=
    @heartbeatWithGeneration_cases r claims generation nowUnixMs
  case inr => exact hleased
  case inl =>
    rw [HeartbeatTakesEffect, heartbeatIfJoinGeneration] at h
    split at h
    case isTrue => simp at h
    case isFalse =>
      obtain ⟨sequence, hsome⟩ | ⟨hne, hne'⟩ := h
      · cases hresult : (r.heartbeatWithGeneration claims (some generation) nowUnixMs).1
        case error => simp [hresult] at hsome
        case ok found =>
          obtain ⟨sequence', matched⟩ := found
          cases matched
          case false => simp [hresult] at hsome
          case true  => exact absurd hresult (hanswer sequence')
      · exact absurd hstate (not_or.mpr ⟨hne, hne'⟩)

theorem joins_events {answers : List RegistryAnswer} :
    Leases.joins (answers.flatMap RegistryAnswer.events) =
      (answers.filterMap RegistryAnswer.outcome).map
        fun o => (o.claims.session, o.joinGeneration.val) := by
  induction answers
  case nil => rfl
  case cons hd tl ih =>
    rw [flatMap_cons, Leases.joins, filterMap_append]
    change Leases.joins _ ++ Leases.joins _ = _
    rw [ih]
    cases hd
    case joined => simp only [RegistryAnswer.events]; split <;> rfl
    all_goals rfl

theorem handed_events {answers : List RegistryAnswer} :
    Leases.handed (answers.flatMap RegistryAnswer.events) =
      answers.filterMap RegistryAnswer.receiver := by
  induction answers
  case nil => rfl
  case cons hd tl ih =>
    rw [flatMap_cons, Connected.handed_append, ih]
    cases hd
    case joined => simp only [RegistryAnswer.events]; split <;> rfl
    all_goals rfl

theorem latest_events :
    Leases.latest session (r.events ops) =
      (r.latestJoin ops session).map fun o => (o.claims.session, o.joinGeneration.val) := by
  rw [Leases.latest, events, joins_events, List.filter_map, getLast?_map]
  rfl

-- Whoever holds a generation is the latest to have joined.
theorem latestJoin_of_leased
    (hfenced : Fenced maxJoinGeneration (r.events ops) (r.after ops).leases)
    (hjoined : joined ∈ r.joins ops) (h : Leased (r.after ops) claims joined.joinGeneration) :
    claims.session = joined.claims.session ∧ r.latestJoin ops claims.session = some joined := by
  obtain ⟨c, hc, hgeneration⟩ := h
  have hlatest := hfenced.current claims.session c hc
  rw [latest_events, map_eq_some_iff] at hlatest
  obtain ⟨last, hlast, heq⟩ := hlatest
  obtain ⟨hsession, hlastGeneration⟩ := Prod.mk.inj heq
  have hincreasing := hfenced.increasing
  rw [events, joins_events, pairwise_map] at hincreasing
  -- No generation is given out twice, so that the latest join is this one.
  have hunique : ((r.joins ops).map (·.joinGeneration.val)).Nodup :=
    pairwise_map.mpr (hincreasing.imp Nat.ne_of_lt)
  have hmem : last ∈ r.joins ops := mem_of_mem_filter (mem_of_getLast? hlast)
  have hsame : last = joined :=
    inj_on_of_nodup_map hunique hmem hjoined (hlastGeneration.trans hgeneration)
  exact ⟨hsame ▸ hsession.symm, hsame ▸ hlast⟩

theorem stale_connections_are_fenced (maxSessions queueCapacity : ℕ) (track : Bool)
    (ops : List RegistryOp) : FencesStale (.new maxSessions queueCapacity track) ops := by
  have hfenced := (@run_of_new maxSessions queueCapacity track ops).fenced
  have hconnected := (@run_of_new maxSessions queueCapacity track ops).connected
  have hjoins := @joins_events ((new maxSessions queueCapacity track).answers ops)
  constructor
  case increasing =>
    have hincreasing := hfenced.increasing
    rw [events, hjoins, pairwise_map] at hincreasing
    exact pairwise_map.mpr hincreasing
  case bounded =>
    intro joined hjoined
    refine hfenced.limited (joined.claims.session, joined.joinGeneration.val) ?_
    rw [events, hjoins]
    exact List.mem_map_of_mem hjoined
  case leave =>
    exact fun joined hjoined claims nowUnixMs h =>
      latestJoin_of_leased hfenced hjoined (leased_of_leave h)
  case heartbeat =>
    exact fun joined hjoined claims nowUnixMs h =>
      latestJoin_of_leased hfenced hjoined (leased_of_heartbeat h)
  case receiver =>
    intro entry _
    have honce := hconnected.once
    rw [events, handed_events] at honce
    exact nodup_iff_count_le_one.mp honce entry.sender

end Ucr
