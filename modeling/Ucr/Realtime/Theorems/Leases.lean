import Ucr.Lib.Leases
import Ucr.Realtime.Op

-- A registry keeps leases on its sessions: whatever is asked of it, its sessions change as
-- connections do that are joined, replaced and left.

namespace Ucr

open RealtimeSessionRegistry Leases

def SessionEntry.conn (entry : SessionEntry) : Conn RealtimeSessionClaims :=
  ⟨entry.claims, entry.joinGeneration.val, entry.sequence.val, entry.sender, entry.receiver⟩

namespace RealtimeSessionRegistry

def leases (r : RealtimeSessionRegistry) : State SessionKey RealtimeSessionClaims where
  conn k   := (r.entries.find k).map SessionEntry.conn
  last     := r.lastJoinGeneration.val
  channels := r.channels

end RealtimeSessionRegistry

def AttendanceTransition.session (t : AttendanceTransition) : SessionKey :=
  t.claims.session

namespace RegistryAnswer

def events : RegistryAnswer → List (Event SessionKey RealtimeSessionClaims)
  | joined outcome =>
    let sequence := outcome.transition.sessionSequence.val
    if outcome.transition.kind = .joined then
      [.joined outcome.claims.session outcome.claims outcome.joinGeneration.val sequence]
    else
      [.rejoined outcome.claims.session outcome.joinGeneration.val sequence]
  | attached claims attachment =>
    [.handed claims.session attachment.receiver (attachment.transition.map (·.sessionSequence.val))]
  | mediaReady transition => [.ready transition.session transition.sessionSequence.val]
  | left transition => [.left transition.session transition.sessionSequence.val]
  | other => []

end RegistryAnswer

variable {r r' : RealtimeSessionRegistry} {claims : RealtimeSessionClaims} {entry : SessionEntry}
  {nowUnixMs : ℤ} {nonce : Option OpaqueId} {outcome : RealtimeJoinOutcome}

namespace RealtimeSessionRegistry

variable {f : SessionEntry → SessionEntry}

theorem leases_update {hf} (h : r.find claims = some entry) :
    (r.update claims f hf).leases = r.leases.set claims.session (some (f entry).conn) := by
  simp only [leases, update, State.set, State.mk.injEq, and_true]
  funext k
  rw [Roster.find_update, Function.update_apply]
  split
  case isTrue => rw [show r.entries.find claims.session = some entry from h]; rfl
  case isFalse => rfl

theorem find_update {hf} (h : r.find claims = some entry) :
    (r.update claims f hf).find claims = some (f entry) := by
  rw [find, update, Roster.find_update, if_pos rfl,
    show r.entries.find claims.session = some entry from h]
  rfl

-- What was answered, and the registry left behind, continue the history of the leases.
def Continues (r : RealtimeSessionRegistry) (result : RegistryAnswer × RealtimeSessionRegistry) : Prop :=
  Run maxJoinGeneration r.leases result.1.events result.2.leases

-- Nothing of what happened is told.
abbrev Silently (r r' : RealtimeSessionRegistry) : Prop :=
  Run maxJoinGeneration r.leases [] r'.leases

theorem silently_of_eq (h : r'.leases = r.leases) : r.Silently r' := by
  rw [Silently, h]
  exact .start

-- What only changes how a session looks from outside is no event.
theorem update_silently (hf : ∀ e, (f e).claims = e.claims) (h : ∀ e, (f e).conn = e.conn) :
    r.Silently (r.update claims f hf) := by
  refine silently_of_eq ?_
  simp only [leases, update, State.mk.injEq, and_true]
  funext k
  rw [Roster.find_update]
  split
  case isTrue heq => rw [heq, Option.map_map]; congr 1; funext e; exact h e
  case isFalse => rfl

theorem pruneExpired_leases :
    ∃ conn : SessionKey → Option (Conn RealtimeSessionClaims),
      (∀ k, conn k = none ∨ conn k = r.leases.conn k) ∧
      (r.pruneExpired nowUnixMs).2.leases = { r.leases with conn } := by
  have hexpire : ∀ k, ((r.entries.retain (live nowUnixMs)).find k).map SessionEntry.conn = none ∨
      ((r.entries.retain (live nowUnixMs)).find k).map SessionEntry.conn = r.leases.conn k := by
    intro k
    rw [Roster.find_retain]
    cases hfind : r.entries.find k
    case none => exact .inl rfl
    case some entry =>
      by_cases hlive : live nowUnixMs entry
      case pos => exact .inr (by simp [leases, hfind, hlive])
      case neg => exact .inl (by simp [hlive])
  simp only [pruneExpired]
  split
  case isTrue => exact ⟨_, hexpire, rfl⟩
  case isFalse =>
    split
    case isTrue  => exact ⟨r.leases.conn, fun _ => .inr rfl, rfl⟩
    case isFalse => exact ⟨_, hexpire, rfl⟩

theorem pruneExpired_silently : r.Silently (r.pruneExpired nowUnixMs).2 := by
  obtain ⟨conn, hconn, heq⟩ := @pruneExpired_leases r nowUnixMs
  rw [Silently, heq]
  exact .step .start (.expire hconn)

theorem seedGeneration_spec :
    ∃ n, r.lastJoinGeneration ≤ n ∧ (r.seedGeneration nonce).2 = { r with lastJoinGeneration := n } := by
  simp only [seedGeneration]
  split
  case isTrue hzero =>
    split
    case h_1 => exact ⟨_, le_rfl, rfl⟩
    case h_2 => exact ⟨_, hzero ▸ Fin.zero_le _, rfl⟩
  case isFalse => exact ⟨_, le_rfl, rfl⟩

-- The counter goes up, and a generation that is given out is the next one.
theorem nextJoinGeneration_spec :
    ∃ n, r.lastJoinGeneration ≤ n ∧
      ((∃ e, r.nextJoinGeneration nonce = (.error e, { r with lastJoinGeneration := n })) ∨
        ∃ g, n < g ∧ g.val ≤ maxJoinGeneration ∧
          r.nextJoinGeneration nonce = (.ok g, { r with lastJoinGeneration := g })) := by
  obtain ⟨n, hle, hseed⟩ := @seedGeneration_spec r nonce
  refine ⟨n, hle, ?_⟩
  simp only [nextJoinGeneration]
  split
  case h_1 e r₁ heq =>
    rw [heq] at hseed
    exact .inl ⟨e, by rw [← hseed]⟩
  case h_2 r₁ heq =>
    rw [heq] at hseed
    cases hseed
    split
    case h_1 => exact .inl ⟨_, rfl⟩
    case h_2 g hg =>
      rw [Option.filter_eq_some_iff] at hg
      exact .inr ⟨g, U64.lt_of_checkedSucc hg.1, of_decide_eq_true hg.2, rfl⟩

theorem raise_silently (hle : r.lastJoinGeneration ≤ n) :
    r.Silently { r with lastJoinGeneration := n } :=
  .step .start (.raise hle)

section

variable {α : Type} {g : α → RegistryAnswer}

theorem continues_error (h : r.Silently r') : r.Continues (answer g (.error e, r')) :=
  h

theorem continues_silent (hg : ∀ a, g a = .other) :
    r.Continues (answer g result) ↔ r.Silently result.2 := by
  obtain ⟨_ | _, _⟩ := result <;> simp [Continues, answer, hg, RegistryAnswer.events]

theorem continues_withSession
    {act : RealtimeSessionRegistry → SessionEntry → RegistryResult α}
    (hact : ∀ (r : RealtimeSessionRegistry) entry, r.find claims = some entry →
      r.Continues (answer g (act r entry))) :
    r.Continues (answer g (r.withSession claims nowUnixMs act)) := by
  have hpruned := @pruneExpired_silently r nowUnixMs
  rw [withSession]
  split
  case isTrue => exact continues_error .start
  case isFalse =>
    split
    case h_1 heq => rw [heq] at hpruned; exact continues_error hpruned
    case h_2 r₁ heq =>
      rw [heq] at hpruned
      split
      case h_1 => exact continues_error hpruned
      case h_2 entry hfind =>
        split
        case isTrue  => exact continues_error hpruned
        case isFalse => exact hpruned.trans (hact r₁ entry hfind)

theorem withSession_silently
    {act : RealtimeSessionRegistry → SessionEntry → RegistryResult α}
    (hact : ∀ (r : RealtimeSessionRegistry) entry, r.Silently (act r entry).2) :
    r.Silently (r.withSession claims nowUnixMs act).2 := by
  refine (continues_silent (g := fun _ => .other) fun _ => rfl).mp ?_
  exact continues_withSession fun r entry _ => (continues_silent fun _ => rfl).mpr (hact r entry)

end

theorem leases_conn : r.leases.conn claims.session = (r.find claims).map SessionEntry.conn :=
  rfl

theorem conn_of_find (h : r.find claims = some entry) :
    r.leases.conn claims.session = some entry.conn := by
  rw [leases_conn, h, Option.map_some]

theorem leases_push (h : r.entries.find entry.session = none) :
    { r with entries := r.entries.push entry }.leases =
      r.leases.set entry.session (some entry.conn) := by
  simp only [leases, State.set, State.mk.injEq, and_true]
  funext k
  rw [Roster.find_push h, Function.update_apply]
  split <;> rfl

theorem leases_remove :
    { r with entries := r.entries.retain (·.session ≠ claims.session) }.leases =
      r.leases.set claims.session none := by
  simp only [leases, State.set, State.mk.injEq, and_true]
  funext k
  rw [Roster.find_retain, Function.update_apply]
  cases hfind : r.entries.find k
  case none => simp
  case some entry =>
    have hkey := Roster.find_key hfind
    by_cases heq : k = claims.session <;> simp [hkey, heq]

theorem connect_continues (hnone : r.find claims = none) :
    r.Continues (answer .joined (r.connect claims nowUnixMs nonce)) := by
  obtain ⟨n, hle, hnext⟩ := @nextJoinGeneration_spec r nonce
  rw [connect]
  split
  case isTrue => exact continues_error .start
  case isFalse =>
    obtain ⟨e, heq⟩ | ⟨g, hlt, hmax, heq⟩ := hnext <;> rw [heq]
    · exact continues_error (raise_silently hle)
    · have hconn : r.leases.conn claims.session = none := by rw [leases_conn, hnone, Option.map_none]
      rw [Continues, answer, openChannel, leases_push (by exact hnone)]
      exact (raise_silently hle).step (.join hconn hlt hmax)

-- The registry has already counted the renewal of the session.
theorem renew_continues {r₁ : RealtimeSessionRegistry} {sequence : U64}
    (hfound : r₁.find claims = some { entry with sequence })
    (hcounted : r₁.leases =
      r.leases.set claims.session (some { entry with sequence : SessionEntry }.conn))
    (hconn : r.leases.conn claims.session = some entry.conn)
    (hsequence : sequence.val = entry.sequence.val + 1) :
    r.Continues (answer .joined (r₁.renew claims nowUnixMs nonce sequence)) := by
  have hlast : r₁.lastJoinGeneration.val = r.leases.last := congrArg State.last hcounted
  have hchannels : r₁.channels = r.leases.channels := congrArg State.channels hcounted
  obtain ⟨n, hle, ⟨e, heq⟩ | ⟨g, hlt, hmax, heq⟩⟩ := @nextJoinGeneration_spec r₁ nonce
    <;> rw [renew, heq]
  · refine continues_error (Run.trans (t := []) ?_ (raise_silently hle))
    rw [hcounted, SessionEntry.conn, hsequence]
    exact .step .start (.count hconn)
  · rw [Continues, answer]
    dsimp only [openChannel]
    rw [leases_update (by exact hfound)]
    change Run _ _ [.rejoined claims.session g.val sequence.val]
      ({ r₁.leases with last := g.val, channels := r₁.channels + 1 }.set _ _)
    rw [hcounted, State.set_set, SessionEntry.conn]
    simp only [hsequence, hchannels]
    exact .step .start (.rejoin hconn (hlast ▸ lt_of_le_of_lt hle hlt) hmax)

theorem reconnect_continues (hfind : r.find claims = some entry) :
    r.Continues (answer .joined (r.reconnect claims nowUnixMs nonce entry)) := by
  rw [reconnect]
  split
  case h_1 => exact continues_error .start
  case h_2 sequence hsequence =>
    exact renew_continues (find_update hfind) (leases_update hfind)
      (conn_of_find hfind) (U64.checkedSucc_eq_some.mp hsequence)

theorem join_continues : r.Continues (answer .joined (r.join claims nowUnixMs nonce)) := by
  have hpruned := @pruneExpired_silently r nowUnixMs
  rw [join]
  split
  case isTrue => exact continues_error .start
  case isFalse =>
    split
    case isTrue => exact continues_error .start
    case isFalse =>
      split
      case h_1 heq => rw [heq] at hpruned; exact continues_error hpruned
      case h_2 r₁ heq =>
        rw [heq] at hpruned
        split
        case h_1 entry hfind =>
          split
          case isTrue  => exact continues_error hpruned
          case isFalse => exact hpruned.trans (reconnect_continues hfind)
        case h_2 hnone => exact hpruned.trans (connect_continues hnone)

theorem attachDownlink_continues :
    r.Continues (answer (.attached claims) (r.attachDownlink claims nowUnixMs)) := by
  refine continues_withSession fun r entry hfind => ?_
  have hconn := conn_of_find hfind
  split
  case h_1 receiver hreceiver =>
    rw [Continues, answer, leases_update hfind]
    exact .step .start (.take hconn hreceiver)
  case h_2 hreceiver =>
    split
    case isTrue => exact continues_error .start
    case isFalse =>
      split
      case h_1 => exact continues_error .start
      case h_2 sequence hsequence =>
        rw [U64.checkedSucc_eq_some] at hsequence
        rw [Continues, answer]
        dsimp only [openChannel]
        rw [leases_update (by exact hfind)]
        simp only [RegistryAnswer.events, SessionEntry.conn, Option.map_some, hsequence]
        exact .step .start (.reopen hconn hreceiver)

theorem heartbeatWithGeneration_silently :
    r.Silently (r.heartbeatWithGeneration claims expected nowUnixMs).2 := by
  refine withSession_silently fun r entry => ?_
  split
  case isTrue => exact .start
  case isFalse => exact update_silently (by intro _; rfl) (by intro _; rfl)

theorem heartbeatIfJoinGeneration_silently :
    r.Silently (r.heartbeatIfJoinGeneration claims expected nowUnixMs).2 := by
  rw [heartbeatIfJoinGeneration]
  split
  case isTrue  => exact .start
  case isFalse => exact heartbeatWithGeneration_silently

theorem currentJoinGeneration_silently : r.Silently (r.currentJoinGeneration claims nowUnixMs).2 :=
  withSession_silently fun _ _ => .start

theorem claimPublisherSlot_silently :
    r.Silently (r.claimPublisherSlot claims owner maxConcurrentPublishers nowUnixMs).2 := by
  rw [claimPublisherSlot]
  split_ifs
  case pos | pos | pos => exact .start
  refine withSession_silently fun r entry => ?_
  split
  case h_1 => exact .start
  case h_2 =>
    split
    case isTrue  => exact .start
    case isFalse => exact update_silently (by intro _; rfl) (by intro _; rfl)

theorem markMediaReady_continues :
    r.Continues (answer (·.elim .other .mediaReady) (r.markMediaReady claims nowUnixMs)) := by
  refine continues_withSession fun r entry hfind => ?_
  split
  case isTrue => exact .start
  case isFalse =>
    split
    case h_1 => exact continues_error (update_silently (by intro _; rfl) (by intro _; rfl))
    case h_2 sequence hsequence =>
      rw [U64.checkedSucc_eq_some] at hsequence
      have hconn := conn_of_find hfind
      rw [Continues, answer, leases_update hfind]
      simp only [RegistryAnswer.events, AttendanceTransition.session, SessionEntry.conn,
        Option.elim_some, hsequence]
      exact .step .start (.ready hconn)

theorem leaveMatchingSequence_continues :
    r.Continues (answer .left (r.leaveMatchingSequence claims expected nowUnixMs)) := by
  rw [leaveMatchingSequence]
  split
  case h_1 => exact continues_error .start
  case h_2 entry hfind =>
    split
    case isTrue => exact continues_error .start
    case isFalse =>
      split
      case h_1 => exact continues_error .start
      case h_2 sequence hsequence =>
        rw [U64.checkedSucc_eq_some] at hsequence
        have hconn := conn_of_find hfind
        rw [Continues, answer, leases_remove]
        simp only [RegistryAnswer.events, AttendanceTransition.session, hsequence]
        exact .step .start (.leave hconn)

theorem leaveIfSequence_continues {expected} :
    r.Continues (answer .left (r.leaveIfSequence claims expected nowUnixMs)) := by
  rw [leaveIfSequence]
  split
  case isTrue  => exact continues_error .start
  case isFalse => exact leaveMatchingSequence_continues

theorem chargeAggregateBandwidth_silently {owner max wireBytes} :
    r.Silently (r.chargeAggregateBandwidth owner max wireBytes nowUnixMs).2 := by
  refine silently_of_eq ?_
  simp only [chargeAggregateBandwidth]
  repeat' split
  all_goals rfl

theorem queueCallCleanupCandidate_silently : r.Silently (r.queueCallCleanupCandidate call).2 := by
  refine silently_of_eq ?_
  rw [queueCallCleanupCandidate]
  split_ifs <;> rfl

theorem queueWebrtcClose_silently : r.Silently (r.queueWebrtcClose claims) := by
  refine silently_of_eq ?_
  rw [queueWebrtcClose]
  split_ifs <;> rfl

end RealtimeSessionRegistry

theorem RegistryOp.continues (op : RegistryOp) : r.Continues (op.run r) := by
  cases op
  case join => exact join_continues
  case attachDownlink => exact attachDownlink_continues
  case heartbeat => exact (continues_silent fun _ => rfl).mpr heartbeatWithGeneration_silently
  case heartbeatIfJoinGeneration =>
    exact (continues_silent fun _ => rfl).mpr heartbeatIfJoinGeneration_silently
  case currentJoinGeneration => exact (continues_silent fun _ => rfl).mpr currentJoinGeneration_silently
  case claimPublisherSlot => exact (continues_silent fun _ => rfl).mpr claimPublisherSlot_silently
  case markMediaReady => exact markMediaReady_continues
  case leave => exact leaveMatchingSequence_continues
  case leaveIfSequence => exact leaveIfSequence_continues
  case chargeAggregateBandwidth =>
    exact (continues_silent fun _ => rfl).mpr chargeAggregateBandwidth_silently
  case expire => exact (continues_silent fun _ => rfl).mpr pruneExpired_silently
  case queueCallCleanupCandidate =>
    exact (continues_silent fun _ => rfl).mpr queueCallCleanupCandidate_silently
  case queueWebrtcClose => exact queueWebrtcClose_silently
  case acknowledgeExpiredCallCleanup | acknowledgeWebrtcClose | dropReceiver => exact .start

theorem join_sound (h : (r.join claims nowUnixMs nonce).1 = .ok outcome) :
    outcome.claims = claims ∧ outcome.transition.claims = claims := by
  simp only [join, reconnect, renew, connect] at h
  repeat' split at h
  all_goals cases h
  all_goals exact ⟨rfl, rfl⟩

theorem answer_outcome {α : Type} {g : α → RegistryAnswer} {result}
    (h : (answer g result).1.outcome = some outcome) :
    ∃ a, result.1 = .ok a ∧ (g a).outcome = some outcome := by
  obtain ⟨_ | a, _⟩ := result
  case error => cases h
  case ok    => exact ⟨a, rfl, h⟩

theorem RegistryOp.run_outcome {op : RegistryOp} (h : (op.run r).1.outcome = some outcome) :
    ∃ claims nowUnixMs nonce, op = .join claims nowUnixMs nonce ∧
      (r.join claims nowUnixMs nonce).1 = .ok outcome := by
  cases op
  case join claims nowUnixMs nonce =>
    obtain ⟨_, hok, heq⟩ := answer_outcome h
    cases heq
    exact ⟨claims, nowUnixMs, nonce, rfl, hok⟩
  case markMediaReady =>
    obtain ⟨transition, _, heq⟩ := answer_outcome h
    cases transition <;> cases heq
  case attachDownlink | heartbeat | heartbeatIfJoinGeneration | currentJoinGeneration |
      claimPublisherSlot | leave | leaveIfSequence | chargeAggregateBandwidth | expire |
      queueCallCleanupCandidate =>
    obtain ⟨_, _, heq⟩ := answer_outcome h
    cases heq
  all_goals cases h

def RealtimeSessionRegistry.events (r : RealtimeSessionRegistry) (ops : List RegistryOp) :
    List (Event SessionKey RealtimeSessionClaims) :=
  (r.answers ops).flatMap RegistryAnswer.events

theorem after_continues {ops} :
    Run maxJoinGeneration r.leases (r.events ops) (r.after ops).leases := by
  induction ops generalizing r
  case nil => exact .start
  case cons op ops ih => exact op.continues.trans ih

theorem run_of_new {maxSessions queueCapacity track ops} :
    Run maxJoinGeneration .empty ((new maxSessions queueCapacity track).events ops)
      ((new maxSessions queueCapacity track).after ops).leases :=
  @after_continues (new maxSessions queueCapacity track) ops

end Ucr
