import Ucr.Realtime.Service
import Ucr.Realtime.Theorems.Leases
import Ucr.Store.Theorems.CallSound
import Mathlib.Data.List.TakeWhile

-- Whoever gives a placement back has looked whether there are sessions, except for the cleanup of
-- closed conferences, which relies on having retired the sessions it knows of.

namespace Ucr

open Interleaving Workload List Option

section Registry

namespace RealtimeSessionRegistry

variable {α : Type} {r r' : RealtimeSessionRegistry} {claims : RealtimeSessionClaims} {nowUnixMs : ℤ}
  {nonce : Option OpaqueId} {call : ScopedId}

-- No session is added.
def Sheds (r r' : RealtimeSessionRegistry) : Prop :=
  r'.claims ⊆ r.claims

theorem Sheds.refl : r.Sheds r :=
  List.Subset.refl _

theorem Sheds.trans {r₁ r₂ r₃ : RealtimeSessionRegistry} (h₁ : r₁.Sheds r₂) (h₂ : r₂.Sheds r₃) :
    r₁.Sheds r₃ :=
  List.Subset.trans h₂ h₁

theorem sheds_of_entries (h : r'.entries = r.entries) : r.Sheds r' := by
  rw [Sheds, RealtimeSessionRegistry.claims, h]
  exact List.Subset.refl _

variable {c : RealtimeSessionClaims}

theorem mem_claims : c ∈ r.claims ↔ ∃ conn, r.leases.conn c.session = some conn ∧ conn.label = c := by
  simp only [leases, map_eq_some_iff, Roster.find_eq_some]
  constructor
  · intro h
    obtain ⟨entry, hentry, rfl⟩ := List.mem_map.mp h
    exact ⟨_, ⟨entry, ⟨hentry, rfl⟩, rfl⟩, rfl⟩
  · rintro ⟨_, ⟨entry, ⟨hentry, -⟩, rfl⟩, rfl⟩
    exact List.mem_map_of_mem hentry

theorem mem_claims_of_continues (h : r.Continues (a, r')) (hc : c ∈ r'.claims) :
    c ∈ r.claims ∨ ∃ outcome, a.outcome = some outcome ∧ outcome.claims = c := by
  obtain ⟨conn, hconn, hlabel⟩ := mem_claims.mp hc
  obtain ⟨conn', hconn', hlabel'⟩ | ⟨g, n, hjoined⟩ := h.label hconn
  · exact .inl (mem_claims.mpr ⟨conn', hconn', hlabel'.trans hlabel⟩)
  · cases a
    case joined outcome =>
      refine .inr ⟨outcome, rfl, ?_⟩
      simp only [RegistryAnswer.events] at hjoined
      split at hjoined <;> simp_all
    all_goals simp [RegistryAnswer.events] at hjoined

theorem sheds_of_continues (h : r.Continues (a, r')) (ha : a.outcome = none) : r.Sheds r' := by
  intro c hc
  obtain hold | ⟨_, houtcome, -⟩ := mem_claims_of_continues h hc
  · exact hold
  · cases ha.symm.trans houtcome

theorem sheds_of_silently (h : r.Silently r') : r.Sheds r' :=
  sheds_of_continues (a := .other) h rfl

-- Joining adds the session of the claims at most, and only if it succeeds.
theorem mem_claims_join (h : c ∈ (r.join claims nowUnixMs nonce).2.claims) :
    c ∈ r.claims ∨ (c = claims ∧ ∃ outcome, (r.join claims nowUnixMs nonce).1 = .ok outcome) := by
  have hcontinues := @join_continues r claims nowUnixMs nonce
  have hsound := @join_sound r claims nowUnixMs nonce
  generalize r.join claims nowUnixMs nonce = result at *
  obtain ⟨_ | outcome, r'⟩ := result
  · exact .inl (sheds_of_silently hcontinues h)
  · obtain hold | ⟨_, ⟨⟩, rfl⟩ := mem_claims_of_continues hcontinues h
    · exact .inl hold
    · exact .inr ⟨(hsound rfl).1, outcome, rfl⟩

theorem sheds_leaveIfSequence : r.Sheds (r.leaveIfSequence claims generation nowUnixMs).2 := by
  have hcontinues := @leaveIfSequence_continues r claims nowUnixMs generation
  generalize r.leaveIfSequence claims generation nowUnixMs = result at *
  obtain ⟨_ | _, r'⟩ := result <;> exact sheds_of_continues hcontinues rfl

-- Whatever is read off after the expired sessions are gone.
theorem sheds_pruned {g : RealtimeSessionRegistry → α} :
    r.Sheds (match r.pruneExpired nowUnixMs with
      | (.error e, r) => (Except.error e, r)
      | (.ok (), r)   => (.ok (g r), r)).2 := by
  have hprune := sheds_of_silently (@pruneExpired_silently r nowUnixMs)
  split <;> rename_i heq <;> rwa [heq] at hprune

end RealtimeSessionRegistry

open RealtimeSessionRegistry

theorem RegistryOp.sheds {r : RealtimeSessionRegistry} {op : RegistryOp}
    (h : ∀ claims now nonce, op ≠ .join claims now nonce) : r.Sheds (op.run r).2 := by
  refine sheds_of_continues op.continues (eq_none_iff_forall_ne_some.mpr fun outcome hjoined => ?_)
  obtain ⟨claims, now, nonce, rfl, -⟩ := run_outcome hjoined
  exact h claims now nonce rfl

end Registry

variable {node : RealtimeNode}

section Steps

open RealtimeSessionRegistry

namespace RealtimeNode

def Sheds (node node' : RealtimeNode) : Prop :=
  node.registry.Sheds node'.registry

instance : Std.Refl Sheds :=
  ⟨fun _ => .refl⟩

instance : IsTrans RealtimeNode Sheds :=
  ⟨fun _ _ _ => .trans⟩

theorem sheds_revokeGrant {claims} : node.Sheds (node.revokeGrant claims).2 := by
  simp only [revokeGrant]
  repeat' split
  all_goals exact sheds_of_entries rfl

theorem sheds_appendAttendance {answers transition} :
    node.Sheds (node.appendAttendance answers transition).2 := by
  simp only [appendAttendance]
  split <;> exact sheds_of_entries rfl

end RealtimeNode

namespace NodeM

open InPlace

variable {α : Type} {node : RealtimeNode} {answers : NodeAnswers} {nowUnixMs : ℤ} {call : ScopedId}
  {path : ReleasePath} {claims : RealtimeSessionClaims} {event : PlacementEvent}
  {f : RealtimeSessionRegistry → RegistryResult α}

abbrev Sheds (m : NodeM α) : Prop :=
  Preserves RealtimeNode.Sheds m

theorem sheds_tryRegistry (h : ∀ r : RealtimeSessionRegistry, r.Sheds (f r).2) :
    Sheds (tryRegistry f) :=
  fun node => h node.registry

theorem sheds_registry (h : ∀ r : RealtimeSessionRegistry, r.Sheds (f r).2) : Sheds (registry f) :=
  (sheds_tryRegistry h).bind fun _ => .ofExcept

theorem sheds_modifyRegistry {g : RealtimeSessionRegistry → RealtimeSessionRegistry}
    (h : ∀ r : RealtimeSessionRegistry, r.Sheds (g r)) : Sheds (modifyRegistry g) :=
  sheds_registry h

theorem run_registry_eq_ok :
    (registry f).run node = (.ok a, node') ↔
      (f node.registry).1 = .ok a ∧ node' = { node with registry := (f node.registry).2 } := by
  rw [registry, run_bind_eq_ok]
  constructor
  · rintro ⟨result, node₁, hfirst, hsecond⟩
    cases hfirst
    obtain ⟨hok, rfl⟩ := Prod.mk.inj hsecond
    exact ⟨Except.mapError_eq_ok.mp hok, rfl⟩
  · rintro ⟨hok, rfl⟩
    exact ⟨_, _, rfl, Prod.ext (Except.mapError_eq_ok.mpr hok) rfl⟩

-- A call without active sessions has none at all: those that have expired are gone.
theorem claims_of_inactive
    (h : (registry (·.activeCallSessionCountAt call nowUnixMs)).run node = (.ok 0, node')) :
    node'.registry.claims.filter (·.call = call) = [] := by
  obtain ⟨hcount, rfl⟩ := run_registry_eq_ok.mp h
  simp only [activeCallSessionCountAt] at hcount ⊢
  split at hcount
  case h_1 => cases hcount
  case h_2 r heq =>
    have hnone := countP_eq_zero.mp (Except.ok.inj hcount)
    refine filter_eq_nil_iff.mpr fun claims hmem => ?_
    obtain ⟨entry, hentry, rfl⟩ := List.mem_map.mp hmem
    exact hnone entry hentry

theorem run_hasPending_eq_ok
    (h : (hasPendingWebrtcCloseForCall call).run node = (.ok pending, node')) : node' = node := by
  obtain ⟨-, rfl⟩ := run_registry_eq_ok.mp h
  rfl

theorem run_invokeRelease_eq_ok
    (h : (some <$> invokeRelease path call answers).run node = (.ok (some event), node')) :
    node' = node ∧ event = .released path call answers.nowUnixMs
      (node.registry.claims.filter (·.call = call)) := by
  cases h
  exact ⟨rfl, rfl⟩

theorem releaseIfInactive_released
    (h : (releaseIfInactive lifecycle path call nowUnixMs answers).run node =
      (.ok (some event), node')) :
    event = .released path call answers.nowUnixMs [] := by
  simp only [releaseIfInactive, run_bind_eq_ok] at h
  obtain ⟨active, node₁, hactive, pending, node₂, hpending, h⟩ := h
  obtain rfl := run_hasPending_eq_ok hpending
  split at h
  case isTrue hinactive =>
    obtain ⟨-, rfl⟩ := run_invokeRelease_eq_ok h
    rw [hinactive.1] at hactive
    rw [claims_of_inactive hactive]
  case isFalse => cases h

theorem releaseCandidate_released
    (h : (releaseCandidate call nowUnixMs answers).run node = (.ok (some event), node')) :
    event = .released .sweep call answers.nowUnixMs [] := by
  simp only [releaseCandidate, run_bind_eq_ok] at h
  obtain ⟨active, node₁, hactive, h⟩ := h
  split at h
  case isTrue =>
    obtain ⟨_, _, _, h⟩ := run_bind_eq_ok.mp h
    cases h
  case isFalse hinactive =>
    obtain ⟨pending, node₂, hpending, hreleased⟩ := run_bind_eq_ok.mp h
    obtain rfl := run_hasPending_eq_ok hpending
    split at hreleased
    case isTrue => cases hreleased
    case isFalse =>
      obtain ⟨-, rfl⟩ := run_invokeRelease_eq_ok hreleased
      rw [not_not.mp hinactive] at hactive
      rw [claims_of_inactive hactive]

theorem releaseClosed_released
    (h : (releaseClosed call answers).run node = (.ok (some event), node')) :
    event = .released .cleanup call answers.nowUnixMs (node.registry.claims.filter (·.call = call)) := by
  simp only [releaseClosed, run_bind_eq_ok] at h
  obtain ⟨pending, node₁, hpending, h⟩ := h
  obtain rfl := run_hasPending_eq_ok hpending
  split at h
  case isTrue  => cases h
  case isFalse => exact (run_invokeRelease_eq_ok h).2

theorem sheds_hasPending : Sheds (hasPendingWebrtcCloseForCall call) :=
  sheds_registry fun _ => .refl

theorem sheds_invokeRelease : Sheds (some <$> invokeRelease path call answers) :=
  fun _ => RealtimeSessionRegistry.Sheds.refl

theorem sheds_releaseIfInactive :
    Sheds (releaseIfInactive lifecycle path call nowUnixMs answers) := by
  refine (sheds_registry fun _ => sheds_pruned).bind fun active => ?_
  refine sheds_hasPending.bind fun pending => ?_
  split
  · exact sheds_invokeRelease
  · exact .pure

theorem sheds_releaseCandidate : Sheds (releaseCandidate call nowUnixMs answers) := by
  refine (sheds_registry fun _ => sheds_pruned).bind fun active => ?_
  split
  · refine Preserves.bind ?_ fun _ => .pure
    exact sheds_modifyRegistry fun _ => sheds_of_entries rfl
  · refine sheds_hasPending.bind fun pending => ?_
    split
    · exact .pure
    · exact sheds_invokeRelease

theorem sheds_releaseClosed : Sheds (releaseClosed call answers) := by
  refine sheds_hasPending.bind fun pending => ?_
  split
  · exact .pure
  · exact sheds_invokeRelease

theorem sheds_requireLiveCanonicalJoinGrant :
    Sheds (requireLiveCanonicalJoinGrant claims nowUnixMs) := by
  refine Preserves.get.bind fun node => ?_
  split <;> exact .ofExcept

theorem sheds_retireSession : Sheds (retireSession claims nowUnixMs expected) := by
  simp only [retireSession]
  split
  · exact .throw
  · refine (sheds_registry fun _ => sheds_of_silently currentJoinGeneration_silently).bind
      fun generation => ?_
    split
    · exact .throw
    · refine Preserves.bind (fun node => RealtimeNode.sheds_revokeGrant) fun revoked => ?_
      refine (sheds_modifyRegistry fun _ => sheds_of_silently queueWebrtcClose_silently).bind fun _ => ?_
      exact (sheds_registry fun _ => sheds_leaveIfSequence).bind fun _ => .pure

theorem sheds_retireClosedCallSessions {sessions} :
    Sheds (retireClosedCallSessions nowUnixMs answers sessions) := by
  induction sessions
  case nil => exact .pure
  case cons claims rest ih =>
    refine (sheds_tryRegistry fun _ => sheds_of_silently currentJoinGeneration_silently).bind
      fun generation => ?_
    split
    · exact ih
    · exact .throw
    · refine (sheds_modifyRegistry fun _ => sheds_of_silently queueWebrtcClose_silently).bind fun _ => ?_
      refine (sheds_registry fun _ => sheds_leaveIfSequence).bind fun transition => ?_
      refine Preserves.bind (fun node => RealtimeNode.sheds_appendAttendance) fun _ => ?_
      exact ih.bind fun _ => .pure

theorem notMem_claims {r : RealtimeSessionRegistry} (h : r.find claims = none) : claims ∉ r.claims := by
  intro hmem
  obtain ⟨entry, hentry, rfl⟩ := List.mem_map.mp hmem
  have hfound : r.find entry.claims = some entry := Roster.find_eq_some.mpr ⟨hentry, rfl⟩
  rw [h] at hfound
  cases hfound

theorem pruneExpired_error {r : RealtimeSessionRegistry} {e}
    (h : (r.pruneExpired nowUnixMs).1 = .error e) : e = .capacityExceeded := by
  simp only [pruneExpired] at h
  repeat' split at h
  all_goals cases h
  rfl

-- A session that is not there any more, or that was let go, is not registered afterwards.
theorem notMem_of_unavailable {r : RealtimeSessionRegistry}
    (h : (r.currentJoinGeneration claims nowUnixMs).1 = .error .sessionUnavailable) :
    claims ∉ (r.currentJoinGeneration claims nowUnixMs).2.claims := by
  have herror := @pruneExpired_error nowUnixMs r .sessionUnavailable
  simp only [currentJoinGeneration, withSession] at h ⊢
  split at h
  case isTrue => cases h
  case isFalse hlive =>
    rw [if_neg hlive]
    split at h
    case h_1 heq =>
      rw [heq] at herror
      cases h
      exact absurd (herror rfl) (by decide)
    case h_2 =>
      split at h
      case h_1 hfind => exact notMem_claims hfind
      case h_2 => split at h <;> cases h

theorem notMem_of_left {r : RealtimeSessionRegistry}
    (h : (r.leaveIfSequence claims generation nowUnixMs).1 = .ok t) :
    claims ∉ (r.leaveIfSequence claims generation nowUnixMs).2.claims := by
  simp only [leaveIfSequence] at h ⊢
  split at h
  case isTrue => cases h
  case isFalse hne =>
    rw [if_neg hne]
    simp only [leaveMatchingSequence] at h ⊢
    split at h
    case h_1 => cases h
    case h_2 entry hfind =>
      split at h
      case isTrue => cases h
      case isFalse hmatches =>
        rw [if_neg hmatches]
        split at h
        case h_1 => cases h
        case h_2 =>
          intro hmem
          obtain ⟨other, hother, rfl⟩ := List.mem_map.mp hmem
          exact of_decide_eq_true (mem_filter.mp hother).2 rfl

-- Nothing is left of the sessions that were to be retired.
theorem retireClosedCallSessions_retired
    (h : (retireClosedCallSessions nowUnixMs answers sessions).run node = (.ok result, node')) :
    ∀ claims ∈ sessions, claims ∉ node'.registry.claims := by
  induction sessions generalizing node result
  case nil => simp
  case cons claims rest ih =>
    simp only [retireClosedCallSessions, run_bind_eq_ok] at h
    obtain ⟨generation, node₁, hgeneration, h⟩ := h
    obtain ⟨heq, rfl⟩ := Prod.mk.inj hgeneration
    have hrest : ∀ {node₂ result₂},
        (retireClosedCallSessions nowUnixMs answers rest).run node₂ = (.ok result₂, node') →
        claims ∉ node₂.registry.claims → ∀ c ∈ claims :: rest, c ∉ node'.registry.claims := by
      intro node₂ result₂ hrun hgone c hmem
      obtain rfl | hmem := mem_cons.mp hmem
      · have hsheds := @sheds_retireClosedCallSessions answers nowUnixMs rest node₂
        rw [hrun] at hsheds
        exact fun hback => hgone (hsheds hback)
      · exact ih hrun c hmem
    split at h
    case h_1 =>
      exact hrest h (notMem_of_unavailable (Except.ok.inj heq))
    case h_2 => cases h
    case h_3 generation =>
      simp only [run_bind_eq_ok] at h
      obtain ⟨_, node₂, hqueued, transition, node₃, hleft, attendance, node₄, hattended, retired, node₅,
        hretired, h⟩ := h
      obtain ⟨hok, rfl⟩ := run_registry_eq_ok.mp hleft
      cases h
      refine hrest hretired fun hback => notMem_of_left hok ?_
      cases hattended
      exact RealtimeNode.sheds_appendAttendance hback

theorem listCalls_listed (h : (listCalls nowUnixMs).run node = (.ok listing, node')) :
    node'.registry.claims = listing.1 := by
  simp only [listCalls, run_bind_eq_ok] at h
  obtain ⟨active, node₁, hactive, node₂, node₃, hget, h⟩ := h
  obtain ⟨hok, rfl⟩ := run_registry_eq_ok.mp hactive
  cases hget
  cases h
  simp only [activeClaimsAt] at hok ⊢
  split at hok
  case h_1 => cases hok
  case h_2 => exact Except.ok.inj hok

theorem sheds_listCalls : Sheds (listCalls nowUnixMs) := by
  refine (sheds_registry fun _ => sheds_pruned).bind fun active => ?_
  exact Preserves.get.bind fun _ => .pure

end NodeM

theorem RealtimeService.sheds_queueCallCleanupCandidate {service : RealtimeService} {call} :
    NodeM.Sheds (service.queueCallCleanupCandidate call) := by
  simp only [RealtimeService.queueCallCleanupCandidate]
  split
  · exact NodeM.sheds_registry fun _ => sheds_of_silently queueCallCleanupCandidate_silently
  · exact .pure

end Steps

section Invariant

def PlacementEvent.isListing : PlacementEvent → Bool
  | .listed _ => true
  | _ => false

-- What happened after a cleanup has read which sessions there are.
def sinceListed (w : ℕ) (history : History PlacementEvent) : History PlacementEvent :=
  (history.dropWhile fun x => !(x.1 == w && x.2.isListing)).tail

variable {w : ℕ} {history : History PlacementEvent} {activeClaims : List RealtimeSessionClaims}
  {claims : RealtimeSessionClaims} {event : PlacementEvent}

theorem sinceListed_append (h : (w, .listed activeClaims) ∈ history) :
    sinceListed w (history ++ more) = sinceListed w history ++ more := by
  have hne : history.dropWhile (fun x => !(x.1 == w && x.2.isListing)) ≠ [] := by
    intro hnil
    have := dropWhile_eq_nil_iff.mp hnil _ h
    simp [PlacementEvent.isListing] at this
  rw [sinceListed, dropWhile_append, if_neg (by simpa using hne), tail_append_of_ne_nil hne,
    sinceListed]

-- The session has been admitted since the cleanup with number `w` has read which sessions there
-- are.
def AdmittedSince (w : ℕ) (history : History PlacementEvent) (claims : RealtimeSessionClaims) : Prop :=
  Seen (.admitted claims) (sinceListed w history)

theorem AdmittedSince.append (hlisted : (w, .listed activeClaims) ∈ history)
    (h : AdmittedSince w history claims) : AdmittedSince w (history ++ more) claims := by
  obtain ⟨w', hmem⟩ := h
  rw [AdmittedSince, sinceListed_append hlisted]
  exact ⟨w', mem_append_left _ hmem⟩

theorem AdmittedSince.of_mem (hlisted : (w, .listed activeClaims) ∈ history)
    (h : (w', .admitted claims) ∈ more) : AdmittedSince w (history ++ more) claims := by
  rw [AdmittedSince, sinceListed_append hlisted]
  exact ⟨w', mem_append_right _ h⟩

-- What a cleanup does not know of has been admitted since, and so has everything it meets again
-- after it has retired the sessions of a call. Only then a placement can be given back under a
-- session.
structure PlacementInv (c : Shared RealtimeNode PlacementEvent) : Prop where
  listed   : ∀ w activeClaims, (w, .listed activeClaims) ∈ c.history →
    ∀ claims ∈ c.state.registry.claims, claims ∈ activeClaims ∨ AdmittedSince w c.history claims
  retired  : ∀ w call, (w, .retired call) ∈ c.history →
    (∃ activeClaims, (w, .listed activeClaims) ∈ c.history) ∧
    ∀ claims ∈ c.state.registry.claims, claims.call = call → AdmittedSince w c.history claims
  released : ∀ before w path call now registered after,
    c.history = before ++ (w, .released path call now registered) :: after →
    ∀ claims ∈ registered, path = .cleanup ∧ claims.call = call ∧ AdmittedSince w before claims

-- What has to be true for an event to be left in a state.
def Justified (w : ℕ) (history : History PlacementEvent) (node : RealtimeNode) :
    Option PlacementEvent → Prop
  | some (.listed activeClaims) => node.registry.claims ⊆ activeClaims
  | some (.retired call) =>
    (∃ activeClaims, (w, .listed activeClaims) ∈ history) ∧
    ∀ claims ∈ node.registry.claims, claims.call = call → AdmittedSince w history claims
  | some (.released path call _ registered) =>
    ∀ claims ∈ registered, path = .cleanup ∧ claims.call = call ∧ AdmittedSince w history claims
  | _ => True

variable {c : Shared RealtimeNode PlacementEvent} {node : RealtimeNode} {e : Option PlacementEvent}

theorem PlacementInv.step (hinv : PlacementInv c) (hjustified : Justified w c.history node e)
    (hnode : ∀ claims ∈ node.registry.claims,
      claims ∈ c.state.registry.claims ∨ e = some (.admitted claims)) :
    PlacementInv (c.advance w node e) where
  listed w' activeClaims hlisted claims hmem := by
    obtain hearlier | hnew := mem_append.mp hlisted
    case inl =>
      obtain hold | rfl := hnode claims hmem
      · exact (hinv.listed w' activeClaims hearlier claims hold).imp_right (.append hearlier)
      · exact .inr (.of_mem hearlier (mem_singleton_self _))
    case inr =>
      obtain ⟨event, hevent, heq⟩ := List.mem_map.mp hnew
      cases heq
      obtain rfl := mem_toList.mp hevent
      exact .inl (hjustified hmem)
  retired w' call hretired := by
    obtain hearlier | hnew := mem_append.mp hretired
    case inl =>
      obtain ⟨⟨activeClaims, hlisted⟩, hadmitted⟩ := hinv.retired w' call hearlier
      refine ⟨⟨activeClaims, mem_append_left _ hlisted⟩, fun claims hmem hcall => ?_⟩
      obtain hold | rfl := hnode claims hmem
      · exact (hadmitted claims hold hcall).append hlisted
      · exact .of_mem hlisted (mem_singleton_self _)
    case inr =>
      obtain ⟨event, hevent, heq⟩ := List.mem_map.mp hnew
      cases heq
      obtain rfl := mem_toList.mp hevent
      obtain ⟨⟨activeClaims, hlisted⟩, hadmitted⟩ := hjustified
      refine ⟨⟨activeClaims, mem_append_left _ hlisted⟩, fun claims hmem hcall => ?_⟩
      exact (hadmitted claims hmem hcall).append hlisted
  released before w' path call now registered after heq := by
    cases e
    case none =>
      rw [Shared.advance_none] at heq
      exact hinv.released _ _ _ _ _ _ _ heq
    case some event =>
      obtain ⟨rest, -, hearlier⟩ | ⟨-, hlast, hbefore⟩ := split_concat heq
      · exact hinv.released _ _ _ _ _ _ _ hearlier
      · obtain ⟨rfl, rfl⟩ := Prod.mk.inj hlast
        exact hbefore ▸ hjustified

theorem PlacementInv.sheds (hinv : PlacementInv c) (hjustified : Justified w c.history node e)
    (hsheds : c.state.Sheds node) : PlacementInv (c.advance w node e) :=
  hinv.step hjustified fun _ hmem => .inl (hsheds hmem)

theorem placementInv_initial : PlacementInv ⟨node, []⟩ where
  listed   := by simp
  retired  := by simp
  released := by simp

end Invariant

section Programs

variable {α : Type} {service : RealtimeService} {w : ℕ} {nowUnixMs : ℤ} {call : ScopedId}
  {path : ReleasePath} {claims : RealtimeSessionClaims} {allows : RealtimeNode → PlacementEvent → Prop}
  {pre : History PlacementEvent → Prop} {post : α → History PlacementEvent → Prop}

-- Events that ask for nothing.
def Harmless : Option PlacementEvent → Prop
  | none | some (.entered _) => True
  | some (.released _ _ _ registered) => registered = []
  | _ => False

theorem Harmless.justified {e history} (h : Harmless e) : Justified w history node e := by
  match e, h with
  | none, _ => trivial
  | some (.entered _), _ => trivial
  | some (.released ..), h =>
    obtain rfl := h
    exact fun _ hmem => absurd hmem (not_mem_nil)

namespace Placing

open NodeM

abbrev Keeps (allows : RealtimeNode → PlacementEvent → Prop) (p : Placing α) : Prop :=
  Fallible.Keeps PlacementInv allows p

abbrev Triple (allows : RealtimeNode → PlacementEvent → Prop) (w : ℕ)
    (pre : History PlacementEvent → Prop) (p : Placing α) (post : α → History PlacementEvent → Prop) :
    Prop :=
  Fallible.Triple PlacementInv allows w pre p post

variable {f : NodeAnswers → NodeM α} {emit : α → Option PlacementEvent}

theorem keeps_sync (hsheds : ∀ answers, Sheds (f answers))
    (hemit : ∀ answers node a node', (f answers).run node = (.ok a, node') → Harmless (emit a)) :
    Keeps allows (sync f emit) := by
  refine Fallible.Keeps.atomic fun w c answers hinv _ => hinv.sheds (Harmless.justified ?_) (hsheds _ _)
  rcases heq : (f answers).run c.state with ⟨_ | a, node'⟩
  case error => trivial
  case ok    => exact hemit _ _ _ _ heq

theorem keeps_quietly (hsheds : ∀ answers, Sheds (f answers)) : Keeps allows (quietly f) :=
  keeps_sync hsheds fun _ _ _ _ _ => trivial

theorem keeps_awaited {g : NodeAnswers → Except CanonicalErrorCode α} : Keeps allows (awaited g) :=
  Fallible.Keeps.atomic fun _ _ _ hinv _ => hinv.sheds (Harmless.justified trivial) .refl

theorem triple_sync [hpre : Persistent pre] (hsheds : ∀ answers, Sheds (f answers))
    (h : ∀ c answers a node, PlacementInv c → pre c.history → (f answers).run c.state = (.ok a, node) →
      Justified w c.history node (emit a) ∧ post a (c.advance w node (emit a)).history) :
    Triple allows w pre (sync f emit) post := by
  refine Fallible.Triple.atomic hpre.stable fun c answers r node hinv hknown heq _ => ?_
  obtain ⟨rfl, rfl⟩ := Prod.mk.inj heq
  have hnode := hsheds answers c.state
  rcases hrun : (f answers).run c.state with ⟨_ | a, node'⟩
  case error =>
    rw [hrun] at hnode
    exact ⟨hinv.sheds (Harmless.justified trivial) hnode, trivial⟩
  case ok =>
    rw [hrun] at hnode
    obtain ⟨hjustified, hpost⟩ := h c answers a node' hinv hknown hrun
    exact ⟨hinv.sheds hjustified hnode, hpost⟩

theorem keeps_attempt (hp : Keeps allows p) : Keeps allows (attempt p) := by
  refine Prog.Keeps.bind hp fun result => ?_
  split <;> exact Prog.Keeps.pure

theorem keeps_orElse (hp : Keeps allows p) (hlast : Sheds last) : Keeps allows (orElse p last) := by
  refine Prog.Keeps.bind hp fun result => ?_
  split
  · exact Prog.Keeps.pure
  · exact Prog.Keeps.bind (keeps_quietly fun _ => hlast) fun _ => Prog.Keeps.pure

end Placing

namespace RealtimeService

open InPlace NodeM Placing RealtimeSessionRegistry

theorem keeps_enter : Keeps allows (service.enter call) := by
  refine Fallible.Keeps.atomic fun w c answers hinv _ => ?_
  split
  · exact hinv.sheds (Harmless.justified trivial) .refl
  · exact hinv.sheds (Harmless.justified trivial) .refl

theorem keeps_exit : Keeps allows (service.exit call) :=
  keeps_quietly fun _ _ => RealtimeSessionRegistry.Sheds.refl

theorem keeps_gated {p : Placing α} (hp : Keeps allows p) : Keeps allows (service.gated call p) := by
  refine keeps_enter.bind fun _ => ?_
  refine (Fallible.Keeps.ofProg hp).bind fun result => ?_
  exact keeps_exit.bind fun _ => .ofExcept

theorem triple_gated {p} [Persistent pre] [∀ a, Persistent (post a)]
    (hp : Triple allows w pre p post) : Triple allows w pre (service.gated call p) post := by
  refine keeps_enter.triple.bind fun _ => ?_
  refine (Fallible.Triple.ofProg hp).bind fun result => ?_
  refine keeps_exit.triple.bind fun _ => ?_
  exact .ofExcept fun a h hok hr => by rwa [hok] at hr

theorem keeps_acknowledgeExpiredCallCleanup : Keeps allows (acknowledgeExpiredCallCleanup call) :=
  keeps_quietly fun _ => sheds_modifyRegistry fun _ => sheds_of_entries rfl

theorem keeps_releaseIfInactive :
    Keeps allows (service.releaseSfuCallPlacementForCallIfInactive path call nowUnixMs) := by
  refine (keeps_sync (fun _ => sheds_releaseIfInactive) fun answers node a node' hrun => ?_).bind
    fun released => ?_
  · cases a
    case none => trivial
    case some event =>
      obtain rfl := releaseIfInactive_released hrun
      rfl
  · split
    · exact .pure
    · exact keeps_awaited.bind fun _ => keeps_acknowledgeExpiredCallCleanup

theorem keeps_confirmPendingWebrtcClose : Keeps allows (confirmPendingWebrtcClose session) := by
  refine keeps_awaited.bind fun _ => ?_
  exact keeps_quietly fun _ => sheds_modifyRegistry fun _ => sheds_of_entries rfl

theorem keeps_ensureSfuCallPlacement : Keeps allows service.ensureSfuCallPlacement := by
  simp only [ensureSfuCallPlacement]
  split
  · exact keeps_awaited
  · exact .pure

theorem keeps_freshNow : Keeps allows freshNow := by
  refine keeps_quietly fun answers => ?_
  split
  · exact .pure
  · exact .throw

-- The only step that adds a session, and it leaves an event.
theorem keeps_join : Keeps allows
    (sync (fun answers => tryRegistry (·.join claims nowUnixMs answers.nonce)) fun
      | .ok _    => some (.admitted claims)
      | .error _ => none) := by
  refine Fallible.Keeps.atomic fun w c answers hinv _ => ?_
  have hadded := @mem_claims_join c.state.registry claims nowUnixMs answers.nonce
  refine hinv.step ?_ fun other hmem => ?_
  · change Justified w c.history _ (match (c.state.registry.join claims nowUnixMs answers.nonce).1 with
      | .ok _    => some (.admitted claims)
      | .error _ => none)
    split <;> trivial
  · obtain hold | ⟨rfl, outcome, hok⟩ := hadded hmem
    · exact .inl hold
    · refine .inr ?_
      change (match (c.state.registry.join other nowUnixMs answers.nonce).1 with
        | .ok _    => some (PlacementEvent.admitted other)
        | .error _ => none) = _
      rw [hok]

theorem keeps_joinPlaced : Keeps allows (service.joinPlaced claims nowUnixMs) := by
  refine keeps_ensureSfuCallPlacement.bind fun _ => ?_
  refine keeps_freshNow.bind fun fresh => ?_
  refine (keeps_attempt (keeps_quietly fun _ => sheds_requireLiveCanonicalJoinGrant)).bind
    fun live => ?_
  split
  · exact (keeps_attempt keeps_releaseIfInactive).bind fun _ => .throw
  · exact keeps_join.bind fun _ => .pure

theorem keeps_admit : Keeps allows (service.admitRealtimeSessionWithSfuPlacement claims nowUnixMs) := by
  refine keeps_gated ((keeps_quietly fun _ => sheds_requireLiveCanonicalJoinGrant).bind fun _ => ?_)
  refine (keeps_orElse keeps_joinPlaced sheds_queueCallCleanupCandidate).bind fun joined => ?_
  dsimp only
  split
  · exact .pure
  · exact (keeps_attempt keeps_releaseIfInactive).bind fun _ => .throw

theorem keeps_leave :
    Keeps allows (service.leaveRealtimeSessionWithSfuPlacement claims nowUnixMs expected) := by
  refine (keeps_gated (keeps_quietly fun _ => sheds_retireSession)).bind fun retired => ?_
  refine (keeps_attempt keeps_confirmPendingWebrtcClose).bind fun closed => ?_
  refine (keeps_gated ?_).bind fun _ => .pure
  split
  · exact keeps_attempt keeps_releaseIfInactive
  · exact .pure

theorem keeps_sweepCandidate : Keeps allows (sweepCandidate call nowUnixMs) := by
  refine (keeps_sync (fun _ => sheds_releaseCandidate) fun answers node a node' hrun => ?_).bind
    fun released => ?_
  · cases a
    case none => trivial
    case some event =>
      obtain rfl := releaseCandidate_released hrun
      rfl
  · split
    · exact .pure
    · refine (keeps_attempt keeps_awaited).bind fun result => ?_
      split
      · exact .pure
      · exact keeps_acknowledgeExpiredCallCleanup.bind fun _ => .pure

theorem keeps_sweepCandidates : Keeps allows (service.sweepCandidates nowUnixMs candidates) := by
  induction candidates
  case nil => exact .pure
  case cons call rest ih =>
    exact (keeps_gated keeps_sweepCandidate).bind fun _ => ih.bind fun _ => .pure

theorem keeps_sweep : Keeps allows (service.sweepExpiredSfuPlacementsAt nowUnixMs) := by
  simp only [sweepExpiredSfuPlacementsAt]
  split
  · refine Fallible.Keeps.bind ?_ fun _ => keeps_sweepCandidates
    exact keeps_quietly fun _ => sheds_registry fun _ => sheds_pruned
  · exact .pure

theorem keeps_retryCompleted {session closed} :
    Keeps allows (service.retryCompleted nowUnixMs session closed) := by
  simp only [retryCompleted]
  split
  · exact .throw
  · refine Fallible.Keeps.bind ?_ fun _ => keeps_gated keeps_releaseIfInactive
    exact keeps_quietly fun _ => sheds_modifyRegistry fun _ => sheds_of_entries rfl

theorem keeps_retryRounds :
    Keeps allows (service.retryRounds nowUnixMs rounds waiting inFlight) := by
  induction rounds generalizing waiting inFlight
  case zero => exact .pure
  case succ rounds ih =>
    refine keeps_awaited.bind fun answer => ?_
    dsimp only
    split
    · exact .pure
    · exact (keeps_attempt keeps_retryCompleted).bind fun _ => ih.bind fun _ => .pure

theorem keeps_retry : Keeps allows (service.retryPendingWebrtcCloses nowUnixMs pending) := by
  refine keeps_retryRounds.bind fun result => ?_
  split
  · exact .pure
  · exact .throw

theorem keeps_confirmCloses : Keeps allows (confirmCloses call sessions) := by
  induction sessions
  case nil => exact .pure
  case cons sessionId rest ih =>
    refine (keeps_attempt keeps_confirmPendingWebrtcClose).bind fun _ => ?_
    exact ih.bind fun _ => .pure

theorem keeps_clearCallEphemeralState : Keeps allows (clearCallEphemeralState call) :=
  keeps_quietly fun _ _ => RealtimeSessionRegistry.Sheds.refl

theorem keeps_clearClosedCall : Keeps allows (clearClosedCall call) := by
  refine (keeps_quietly fun _ => sheds_hasPending).bind fun pending => ?_
  split
  · exact .pure
  · exact keeps_clearCallEphemeralState.bind fun _ => .pure

theorem keeps_decideCleanup : Keeps allows (decideCleanup call) :=
  keeps_quietly fun _ => Preserves.get.bind fun _ => .ofExcept

-- What a cleanup learns when it has retired the sessions of some calls.
abbrev KnowsRetired (w : ℕ) (retired : List RetiredCall) (history : History PlacementEvent) : Prop :=
  ∀ r ∈ retired, (w, .retired r.call) ∈ history

instance (retired : List RetiredCall) : Persistent (KnowsRetired w retired) :=
  ⟨fun _ _ hknown r hmem => mem_append_left _ (hknown r hmem)⟩

theorem triple_retireCall {activeClaims} :
    Triple allows w (fun h => (w, .listed activeClaims) ∈ h)
      (service.retireCall nowUnixMs activeClaims call)
      fun retired => (fun h => (w, .listed activeClaims) ∈ h) ⊓ KnowsRetired w [retired] := by
  refine triple_gated (triple_sync (fun answers => ?_)
    fun c answers retired node hinv hlisted hrun => ?_)
  · refine sheds_queueCallCleanupCandidate.bind fun _ => ?_
    exact sheds_retireClosedCallSessions.bind fun _ => .pure
  · obtain ⟨_, node₁, hqueued, h⟩ := run_bind_eq_ok.mp hrun
    obtain ⟨result, node₂, hretired, h⟩ := run_bind_eq_ok.mp h
    cases h
    have hnode : c.state.Sheds node := by
      have hfirst := @sheds_queueCallCleanupCandidate service call c.state
      have hsecond := @sheds_retireClosedCallSessions answers nowUnixMs
        (activeClaims.filter (·.call = call)) node₁
      rw [hqueued] at hfirst
      rw [hretired] at hsecond
      exact hfirst.trans hsecond
    refine ⟨⟨⟨activeClaims, hlisted⟩, fun claims hmem hcall => ?_⟩, ?_, ?_⟩
    · refine (hinv.listed w activeClaims hlisted claims (hnode hmem)).resolve_left fun hknown => ?_
      have hfiltered : claims ∈ activeClaims.filter (·.call = call) :=
        mem_filter.mpr ⟨hknown, decide_eq_true hcall⟩
      exact retireClosedCallSessions_retired hretired claims hfiltered hmem
    · exact mem_append_left _ hlisted
    · exact forall_mem_singleton.mpr (mem_append_right _ (mem_singleton_self _))

theorem triple_retireCalls {activeClaims} :
    Triple allows w (fun h => (w, .listed activeClaims) ∈ h)
      (service.retireCalls nowUnixMs activeClaims calls) (KnowsRetired w) := by
  induction calls
  case nil => exact .pure fun h _ r hmem => absurd hmem not_mem_nil
  case cons call rest ih =>
    refine keeps_decideCleanup.triple.bind fun decision => ?_
    cases decision
    case keep => exact ih
    case cleanup =>
      refine triple_retireCall.bind fun retired => ih.frame.bind fun others => ?_
      refine .pure fun h hknown => ?_
      exact forall_mem_cons.mpr ⟨hknown.2 retired (mem_singleton_self _), hknown.1⟩

theorem triple_releaseClosedCall :
    Triple allows w (fun h => (w, .retired call) ∈ h) (releaseClosedCall call) fun _ => ⊤ := by
  refine Fallible.Triple.bind (Q := fun _ => ⊤) (triple_sync (fun _ => sheds_releaseClosed)
    fun c answers released node hinv hretired hrun => ⟨?_, trivial⟩) fun released => ?_
  · cases released
    case none => trivial
    case some event =>
      obtain rfl := releaseClosed_released hrun
      intro claims hmem
      obtain ⟨hregistered, hcall⟩ := mem_filter.mp hmem
      have hcall := of_decide_eq_true hcall
      exact ⟨rfl, hcall, (hinv.retired w call hretired).2 claims hregistered hcall⟩
  · refine Fallible.Keeps.triple ?_
    split
    · exact .pure
    · refine (keeps_attempt keeps_awaited).bind fun result => ?_
      split
      · exact .pure
      · refine keeps_acknowledgeExpiredCallCleanup.bind fun _ => ?_
        exact keeps_clearCallEphemeralState.bind fun _ => .pure

theorem triple_finishCall {retired} :
    Triple allows w (fun h => (w, .retired retired.call) ∈ h) (service.finishCall retired)
      fun _ => ⊤ := by
  refine keeps_confirmCloses.triple.bind fun closeError => triple_gated ?_
  split
  · exact .pure fun _ _ => trivial
  · split
    · exact triple_releaseClosedCall
    · exact keeps_clearClosedCall.triple.weaken fun _ _ _ => trivial

theorem triple_finishCalls :
    Triple allows w (KnowsRetired w retired) (service.finishCalls retired) fun _ => ⊤ := by
  induction retired
  case nil => exact .pure fun _ _ => trivial
  case cons retired rest ih =>
    have hframed := Fallible.Triple.frame (P := KnowsRetired w rest)
      (@triple_finishCall service w allows retired)
    refine (hframed.strengthen fun h hknown => ?_).bind fun outcome => ?_
    · exact forall_mem_cons.mp hknown
    · refine (ih.strengthen fun h hknown => hknown.2).bind fun later => ?_
      exact .pure fun _ _ => trivial

theorem triple_cleanup :
    Triple allows w ⊤ (service.cleanupClosedConferencesAt nowUnixMs) fun _ => ⊤ := by
  refine Fallible.Triple.bind (Q := fun listing h => (w, .listed listing.1) ∈ h) (triple_sync
    (fun _ => sheds_listCalls) fun c answers listing node hinv _ hrun => ⟨?_, ?_⟩) fun listing => ?_
  · rw [Justified, listCalls_listed hrun]
    exact List.Subset.refl _
  · simp [Shared.advance]
  · refine triple_retireCalls.bind fun retired => ?_
    refine triple_finishCalls.bind fun finished => ?_
    refine (keeps_attempt keeps_retry).triple.bind fun retried => ?_
    split
    · exact .throw
    · exact .pure fun _ _ => trivial

theorem placements_sound : service.placements.Sound PlacementInv where
  program task w := by
    have hends {α : Type} {p : Placing α} (h : Triple service.placements.allows w ⊤ p fun _ => ⊤) :
        Prog.Triple PlacementInv service.placements.allows w (Only w fun _ => False)
          (do let _ ← p.run) fun _ _ => True :=
      Prog.Triple.bind (h.strengthen fun _ _ => trivial) fun _ => .pure fun _ _ => trivial
    cases task
    case admission => exact hends keeps_admit.triple
    case leave   => exact hends keeps_leave.triple
    case sweep   => exact hends keeps_sweep.triple
    case retry   => exact hends keeps_retry.triple
    case cleanup => exact hends triple_cleanup
  env c node hinv henv := by
    have hsheds : c.state.Sheds node := by
      cases henv
      case registry op hop => exact RegistryOp.sheds hop
      all_goals exact sheds_of_entries rfl
    simpa using @PlacementInv.sheds 0 c node none hinv trivial hsheds

end RealtimeService

end Programs

section Releases

instance (service : RealtimeService) (node : RealtimeNode) :
    (event : PlacementEvent) → Decidable (service.placements.allows node event)
  | .entered stripe => inferInstanceAs (Decidable (stripe ∉ node.gates))
  | .admitted _ | .listed _ | .retired _ | .released .. => .isTrue trivial

-- A placement is given back under a session that has not expired.
def UnderSession : PlacementEvent → Prop
  | .released _ _ nowUnixMs registered => ∃ claims ∈ registered, nowUnixMs < claims.expiresAtUnixMs
  | _ => False

instance : (event : PlacementEvent) → Decidable (UnderSession event)
  | .released _ _ nowUnixMs registered =>
    inferInstanceAs (Decidable (∃ claims ∈ registered, nowUnixMs < claims.expiresAtUnixMs))
  | .entered _ | .admitted _ | .listed _ | .retired _ => .isFalse nofun

def PlacementEvent.admits (call : ScopedId) : PlacementEvent → Bool
  | .admitted claims => claims.call = call
  | _ => false

-- Nobody has been let into the call since the cleanup that now gives its placement back has read
-- which sessions there are.
def Undisturbed (w : ℕ) (before : History PlacementEvent) : PlacementEvent → Prop
  | .released .cleanup call _ _ => ∀ x ∈ sinceListed w before, ¬x.2.admits call
  | _ => True

-- The other programs ask under the gate whether there are sessions, a cleanup does not.
theorem placement_released_undisturbed {service : RealtimeService} {node : RealtimeNode}
    {pool : Pool RealtimeNode NodeAnswers PlacementEvent Unit} {before after : History PlacementEvent}
    {w : ℕ} {event : PlacementEvent} (hrun : service.placements.Run (initial node) pool)
    (hevent : pool.history = before ++ (w, event) :: after) (hbefore : Undisturbed w before event) :
    ¬UnderSession event := by
  have hinv := RealtimeService.placements_sound.run placementInv_initial hrun
  cases event
  case released path call nowUnixMs registered =>
    rintro ⟨claims, hmem, -⟩
    obtain ⟨rfl, rfl, w', hadmitted⟩ := hinv.released _ _ _ _ _ _ _ hevent claims hmem
    exact hbefore _ hadmitted (decide_eq_true rfl)
  all_goals exact nofun

namespace Scenario

def oneStripe : RealtimeService := ⟨true, fun _ => 0⟩

def aliceReturns : RealtimeSessionClaims where
  scope := tenant
  callId := directCall.callId
  participant := alice
  deviceId := none
  sessionId := named "alice-returns"
  issuedAtUnixMs := 0
  notBeforeUnixMs := 0
  expiresAtUnixMs := 1000
  usePolicy := .reusable

-- Alice has raised a hand before, and has a grant to come back.
def ringing : RealtimeNode where
  registry := .new 8 8 true
  store := MemoryState.empty.runAll [.persistConversation directChat,
    .createCall ⟨tenant, alice⟩ directCall]
  joinIssuer := ⟨[⟨aliceReturns, false, false⟩]⟩
  conferenceState := ⟨[], [aliceReturns.call], [], [], [], []⟩
  gates := []

def rejected : RealtimeNode :=
  { ringing with store := rejectedCallStore }

def goesWell : NodeAnswers where
  nowUnixMs := 10
  clockAvailable := true
  cancelled := false
  nonce := some aliceReturns.sessionId
  ensured := .ok ()
  released := .ok ()
  closed := .ok ()
  completed := 0
  device := fun _ => some alicePhone
  integration := fun _ => .ok none

def goesOn (w steps : ℕ) : List (Move NodeAnswers RealtimeTask) :=
  List.replicate steps (.run w goesWell)

-- Bob rejects the call while Alice is on the way back. A cleanup lists the sessions before Alice is
-- let in, and gives the placement back afterwards.
def disturbedCleanup : Pool RealtimeNode NodeAnswers PlacementEvent Unit :=
  oneStripe.placements.playAll ⟨⟨rejected, []⟩, [some (oneStripe.program (.admission aliceReturns 5))]⟩
    ([.start (.cleanup 10)] ++ goesOn 1 5 ++ goesOn 0 7 ++ goesOn 1 3)

-- Alice is let in, then Bob rejects the call.
def aliceIn : Pool RealtimeNode NodeAnswers PlacementEvent Unit :=
  oneStripe.placements.playAll (initial ringing) ([.start (.admission aliceReturns 5)] ++ goesOn 0 7)

def aliceLeft : Pool RealtimeNode NodeAnswers PlacementEvent Unit :=
  { aliceIn with state.store := rejectedCallStore }

-- A cleanup lists Alice's session, retires it and gives the placement back.
def undisturbedCleanup : Pool RealtimeNode NodeAnswers PlacementEvent Unit :=
  oneStripe.placements.playAll aliceLeft ([.start (.cleanup 10)] ++ goesOn 1 9)

end Scenario

open Scenario

theorem undisturbed_cleanup_releases :
    oneStripe.placements.Run (initial ringing) undisturbedCleanup ∧
      ∃ before after event, undisturbedCleanup.history = before ++ (1, event) :: after ∧
        event = .released .cleanup aliceReturns.call 10 [] ∧ ¬UnderSession event := by
  have hrejects : oneStripe.placements.env aliceIn.state aliceLeft.state :=
    .store aliceIn.state rejectedCallStore
  have hin : oneStripe.placements.Run (initial ringing) aliceIn := AllowsAll.run (by decide +kernel)
  have hrun : oneStripe.placements.Run (initial ringing) undisturbedCleanup :=
    (hin.tail (.env _ hrejects)).trans (AllowsAll.run (by decide +kernel))
  have hhistory : undisturbedCleanup.history =
      [(0, .entered 0), (0, .admitted aliceReturns), (1, .listed [aliceReturns]), (1, .entered 0),
          (1, .retired aliceReturns.call), (1, .entered 0)] ++
        (1, .released .cleanup aliceReturns.call 10 []) :: [] := by
    decide +kernel
  refine ⟨hrun, _, _, _, hhistory, rfl, placement_released_undisturbed hrun hhistory ?_⟩
  show ∀ x ∈ sinceListed 1 _, ¬x.2.admits _
  decide

theorem disturbed_cleanup_releases :
    oneStripe.placements.Run (initial ringing) disturbedCleanup ∧
      ∃ x ∈ disturbedCleanup.history, UnderSession x.2 := by
  have hrejects : oneStripe.placements.env ringing rejected := .store ringing rejectedCallStore
  refine ⟨?_, by decide +kernel⟩
  refine .trans (.head (.start _ (.admission aliceReturns 5)) (.single (.env _ hrejects))) ?_
  exact AllowsAll.run (by decide +kernel)

end Releases

end Ucr
