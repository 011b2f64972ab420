import Ucr.FirstParty.Theorems.Requests
import Ucr.Lib.Slice

-- At any moment a device has one gate, whatever is dropped from the map of gates. Whoever has
-- locked it is alone with the device.

namespace Ucr

namespace FirstParty

open Interleaving Workload Function

variable {Tag : Type} {mac : ChallengeMacInput → Tag} {s s' : WebState Tag} {w w' : ℕ} {b : Binding}
  {n r : ℕ}

section References

variable {R : ℕ → List (ℕ × Binding × ℕ)}

-- Every reference is counted, so its gate is still in the map.
structure Referred (s : WebState Tag) (R : ℕ → List (ℕ × Binding × ℕ)) : Prop where
  counted  : ∀ w r b n, (r, b, n) ∈ R w → (r, n) ∈ s.references
  listed   : ∀ w r b n, (r, b, n) ∈ R w → s.protectedActions.get b = some n
  fresh    : ∀ x ∈ s.references, x.1 < s.created
  distinct : ∀ w, ((R w).map Prod.fst).Nodup
  owner    : ∀ w w' r x y, (r, x) ∈ R w → (r, y) ∈ R w' → w = w'

namespace Referred

theorem congr (h : Referred s R) (hreferences : s'.references = s.references)
    (hgates : s'.protectedActions = s.protectedActions) (hcreated : s'.created = s.created) :
    Referred s' R where
  counted  := by rw [hreferences]; exact h.counted
  listed   := by rw [hgates]; exact h.listed
  fresh    := by rw [hreferences, hcreated]; exact h.fresh
  distinct := h.distinct
  owner    := h.owner

-- A gate that is taken is the one in the map, if somebody still refers to it.
theorem number_eq (h : Referred s R) (hr : (r, b, n) ∈ R w) : (s.upgradeGate b).1.2 = n := by
  have hkept : (s.protectedActions.retain fun m => s.references.any (·.2 = m)).get b = some n := by
    refine Table.get_retain.mpr ⟨h.listed w r b n hr, List.any_eq_true.mpr ⟨_, h.counted w r b n hr, ?_⟩⟩
    simp
  simp [WebState.upgradeGate, hkept]

theorem take (h : Referred s R) :
    Referred (s.upgradeGate b).2
      (update R w (((s.upgradeGate b).1.1, b, (s.upgradeGate b).1.2) :: R w)) := by
  have hnew : ∀ v x, (s.created, x) ∉ R v := by
    rintro v ⟨b', n'⟩ hx
    exact absurd (h.fresh _ (h.counted v _ _ _ hx)) (lt_irrefl _)
  have hold : ∀ v r' x, (r', x) ∈ update R w
      (((s.upgradeGate b).1.1, b, (s.upgradeGate b).1.2) :: R w) v →
      r' = s.created ∧ x = (b, (s.upgradeGate b).1.2) ∧ v = w ∨ (r', x) ∈ R v := by
    intro v r' x hx
    by_cases hv : v = w
    case pos =>
      subst hv
      rw [update_self] at hx
      obtain heq | hx := List.mem_cons.mp hx
      · obtain ⟨rfl, rfl⟩ := Prod.mk.inj heq
        exact .inl ⟨rfl, rfl, rfl⟩
      · exact .inr hx
    case neg => exact .inr (by simpa [hv] using hx)
  refine ⟨fun v r' b' n' hx => ?_, fun v r' b' n' hx => ?_, fun x hx => ?_, fun v => ?_,
    fun v v' r' x y hx hy => ?_⟩
  · obtain ⟨rfl, heq, rfl⟩ | hx := hold v r' _ hx
    · obtain ⟨rfl, rfl⟩ := Prod.mk.inj heq
      exact List.mem_cons_self
    · exact List.mem_cons_of_mem _ (h.counted v r' b' n' hx)
  · obtain ⟨rfl, heq, rfl⟩ | hbefore := hold v r' _ hx
    · obtain ⟨rfl, rfl⟩ := Prod.mk.inj heq
      exact Table.get_put_self
    · by_cases hb : b' = b
      case pos =>
        subst hb
        rw [← h.number_eq hbefore]
        exact Table.get_put_self
      case neg =>
        refine (Table.get_put_ne hb).trans (Table.get_retain.mpr ⟨h.listed v r' b' n' hbefore, ?_⟩)
        exact List.any_eq_true.mpr ⟨_, h.counted v r' b' n' hbefore, by simp⟩
  · obtain rfl | hx := List.mem_cons.mp hx
    · exact Nat.lt_succ_self _
    · exact (h.fresh x hx).trans (Nat.lt_succ_self _)
  · by_cases hv : v = w
    case pos =>
      subst hv
      rw [update_self, List.map_cons, List.nodup_cons]
      refine ⟨fun hmem => ?_, h.distinct v⟩
      obtain ⟨⟨_, x⟩, hx, rfl⟩ := List.mem_map.mp hmem
      exact hnew v x hx
    case neg => simpa [hv] using h.distinct v
  · obtain ⟨hr, -, hv⟩ | hx := hold v r' x hx <;> obtain ⟨hr', -, hv'⟩ | hy := hold v' r' y hy
    · exact hv.trans hv'.symm
    · exact absurd (hr ▸ hy) (hnew v' y)
    · exact absurd (hr' ▸ hx) (hnew v x)
    · exact h.owner v v' r' x y hx hy

theorem drop (h : Referred s R) (hmine : (r, b, n) ∈ R w) :
    Referred (s.dropGate r) (update R w ((R w).erase (r, b, n))) := by
  have hsub : ∀ v x, x ∈ update R w ((R w).erase (r, b, n)) v → x ∈ R v := by
    intro v x hx
    by_cases hv : v = w
    case pos =>
      subst hv
      rw [update_self] at hx
      exact List.mem_of_mem_erase hx
    case neg => simpa [hv] using hx
  -- The reference that is given up belongs to nobody else, and there is only one of it.
  have hgone : ∀ v x, (r, x) ∉ update R w ((R w).erase (r, b, n)) v := by
    intro v x hx
    obtain rfl := h.owner v w r x (b, n) (hsub v _ hx) hmine
    have heq : (r, x) = (r, b, n) :=
      List.inj_on_of_nodup_map (h.distinct v) (hsub v _ hx) hmine rfl
    rw [update_self, heq] at hx
    exact absurd hx (List.Nodup.of_map _ (h.distinct v)).not_mem_erase
  refine ⟨fun v r' b' n' hx => ?_, fun v r' b' n' hx => h.listed v r' b' n' (hsub v _ hx),
    fun x hx => h.fresh x (List.mem_of_mem_filter hx), fun v => ?_,
    fun v v' r' x y hx hy => h.owner v v' r' x y (hsub v _ hx) (hsub v' _ hy)⟩
  · refine List.mem_filter.mpr ⟨h.counted v r' b' n' (hsub v _ hx), decide_eq_true ?_⟩
    rintro rfl
    exact hgone v _ hx
  · by_cases hv : v = w
    case pos =>
      subst hv
      rw [update_self]
      exact (h.distinct v).sublist (List.erase_sublist.map _)
    case neg => simpa [hv] using h.distinct v

end Referred

end References

-- Locks are taken on gates that are referred to, and an action runs behind its gate.
structure Guard.Sound (g : Guard) : Prop where
  gates  : ∀ b n, .gate b n ∈ g.locks → ∃ r, (r, b, n) ∈ g.references
  acting : ∀ b token, g.admitted = some (b, token) → g.HoldsGate b

structure Guarded (s : WebState Tag) (G : ℕ → Place mac) : Prop where
  mutex    : Mutex s.held fun w => (G w).guard.locks
  referred : Referred s fun w => (G w).guard.references
  sound    : ∀ w, (G w).guard.Sound

namespace Guarded

variable {G : ℕ → Place mac} {k : Place mac}

-- The gate of a device is locked by one request at most.
theorem alone (h : Guarded s G) (hw : (G w).guard.HoldsGate b) (hw' : (G w').guard.HoldsGate b) :
    w = w' := by
  obtain ⟨n, hn⟩ := hw
  obtain ⟨n', hn'⟩ := hw'
  obtain ⟨r, hr⟩ := (h.sound w).gates b n hn
  obtain ⟨r', hr'⟩ := (h.sound w').gates b n' hn'
  have heq : n = n' := Option.some.inj
    ((h.referred.listed w r b n hr).symm.trans (h.referred.listed w' r' b n' hr'))
  exact h.mutex.exclusive w w' _ hn (heq ▸ hn')

theorem start : Guarded WebState.start fun _ => (.start : Place mac) where
  mutex    := by constructor <;> simp [Place.start, Guard.empty]
  referred := by constructor <;> simp [Place.start, Guard.empty, WebState.start]
  sound    := fun _ => by constructor <;> simp [Place.start, Guard.empty]

private theorem sound_update (h : ∀ v, (G v).guard.Sound) (hk : k.guard.Sound) (v : ℕ) :
    (update G w k v).guard.Sound := by
  by_cases hv : v = w
  case pos => subst hv; simpa using hk
  case neg => simpa [hv] using h v

private theorem locks_update : (fun v => (update G w k v).guard.locks) =
    update (fun v => (G v).guard.locks) w k.guard.locks :=
  funext fun v => apply_update (fun _ k => k.guard.locks) G w k v

private theorem references_update : (fun v => (update G w k v).guard.references) =
    update (fun v => (G v).guard.references) w k.guard.references :=
  funext fun v => apply_update (fun _ k => k.guard.references) G w k v

private theorem mutex_update (h : Guarded s G) (hlocks : k.guard.locks = (G w).guard.locks) :
    Mutex s.held fun v => (update G w k v).guard.locks := by
  rw [locks_update, hlocks, update_eq_self]
  exact h.mutex

private theorem referred_update (h : Guarded s G) (hreferences : s'.references = s.references)
    (hgates : s'.protectedActions = s.protectedActions) (hcreated : s'.created = s.created)
    (hreferences' : k.guard.references = (G w).guard.references) :
    Referred s' fun v => (update G w k v).guard.references := by
  rw [references_update, hreferences', update_eq_self]
  exact h.referred.congr hreferences hgates hcreated

-- Steps that touch neither gates nor locks.
theorem of_eq (h : Guarded s G) (hheld : s'.held = s.held) (hreferences : s'.references = s.references)
    (hgates : s'.protectedActions = s.protectedActions) (hcreated : s'.created = s.created)
    (hlocks : k.guard.locks = (G w).guard.locks)
    (hreferences' : k.guard.references = (G w).guard.references) (hsound : k.guard.Sound) :
    Guarded s' (update G w k) where
  mutex    := hheld ▸ h.mutex_update hlocks
  referred := h.referred_update hreferences hgates hcreated hreferences'
  sound := sound_update h.sound hsound

theorem step (h : Guarded s G) (hlegal : Legal (G w) s s' e)
    (hfree : ∀ x, e = some x → LockFree s x) :
    Guarded s' (update G w ((webDiscipline mac).after (G w) e)) := by
  cases hlegal
  case quiet hquiet | refused hquiet =>
    exact h.of_eq hquiet.held hquiet.references hquiet.gates hquiet.created rfl rfl (h.sound w)
  case locked lock below referred =>
    refine ⟨?_, ?_, sound_update h.sound ⟨fun b n hn => ?_, fun b token hadmitted => ?_⟩⟩
    · rw [locks_update]
      exact h.mutex.acquire (hfree _ rfl)
    · exact h.referred_update rfl rfl rfl rfl
    · obtain heq | hn := List.mem_cons.mp hn
      · exact referred b n heq.symm
      · exact (h.sound w).gates b n hn
    · exact ((h.sound w).acting b token hadmitted).imp fun _ => List.mem_cons_of_mem _
  case unlocked lock mine idle =>
    refine ⟨?_, ?_, sound_update h.sound ⟨fun b n hn => ?_, fun b token hadmitted => ?_⟩⟩
    · rw [locks_update]
      exact h.mutex.release mine
    · exact h.referred_update rfl rfl rfl rfl
    · exact (h.sound w).gates b n (List.mem_of_mem_erase hn)
    · obtain ⟨n, hn⟩ := (h.sound w).acting b token hadmitted
      refine ⟨n, (List.mem_erase_of_ne ?_).mpr hn⟩
      -- The gate itself is unlocked only when the action is over.
      rintro heq
      have hidle := idle b n heq.symm
      exact absurd (hadmitted.symm.trans hidle) nofun
  case gateTaken b =>
    refine ⟨?_, ?_, sound_update h.sound ⟨fun b' n hn => ?_, (h.sound w).acting⟩⟩
    · exact h.mutex_update rfl
    · rw [references_update]
      exact h.referred.take
    · exact ((h.sound w).gates b' n hn).imp fun _ => List.mem_cons_of_mem _
  case gateDropped r b n mine free =>
    refine ⟨?_, ?_, sound_update h.sound ⟨fun b' n' hn => ?_, (h.sound w).acting⟩⟩
    · exact h.mutex_update rfl
    · rw [references_update]
      exact h.referred.drop mine
    · obtain ⟨r', hr'⟩ := (h.sound w).gates b' n' hn
      refine ⟨r', (List.mem_erase_of_ne ?_).mpr hr'⟩
      rintro ⟨⟩
      exact free hn
  case admitted b token now clock mine found =>
    refine h.of_eq rfl rfl rfl rfl rfl rfl ⟨(h.sound w).gates, fun b' token' hadmitted => ?_⟩
    obtain ⟨rfl, -⟩ := Prod.mk.inj (Option.some.inj hadmitted)
    exact mine
  case finished => exact h.of_eq rfl rfl rfl rfl rfl rfl ⟨(h.sound w).gates, nofun⟩
  all_goals exact h.of_eq rfl rfl rfl rfl rfl rfl (h.sound w)

end Guarded

section Fences

variable {h : History (WebEvent mac)} {token : String} {but : ℕ → History (WebEvent mac) → Prop}

def actsFor (w : ℕ) (h : History (WebEvent mac)) : Option (Binding × String) :=
  ((webDiscipline mac).place w h).guard.admitted

def locksOf (w : ℕ) (h : History (WebEvent mac)) : List Lock :=
  ((webDiscipline mac).place w h).guard.locks

def AddedIn (b : Binding) (token : String) (h : History (WebEvent mac)) : Prop :=
  ∃ w presented now, (w, .added b token presented now) ∈ h

-- Each revocation of the device has been followed by a session with this token, apart from those
-- that are excused.
def AddedSince (but : ℕ → History (WebEvent mac) → Prop) (b : Binding) (token : String)
    (h : History (WebEvent mac)) : Prop :=
  ∀ before w generation untilInstant after,
    h = before ++ (w, .revoked b generation untilInstant) :: after →
      but w after ∨ AddedIn b token after

theorem AddedIn.concat (hin : AddedIn b token h) : AddedIn b token (h ++ [x]) := by
  obtain ⟨w, presented, now, hin⟩ := hin
  exact ⟨w, presented, now, List.mem_append_left _ hin⟩

theorem AddedSince.concat (hsince : AddedSince but b token h)
    (hbut : ∀ v after, but v after → but v (after ++ [x]))
    (hx : ∀ generation untilInstant, x.2 = .revoked b generation untilInstant → but x.1 []) :
    AddedSince but b token (h ++ [x]) := by
  intro before w generation untilInstant after heq
  obtain ⟨rest, rfl, hrest⟩ | ⟨rfl, rfl, -⟩ := List.split_concat heq
  · obtain hexcused | hin := hsince before w generation untilInstant rest hrest
    · exact .inl (hbut w rest hexcused)
    · exact .inr hin.concat
  · exact .inl (hx generation untilInstant rfl)

theorem AddedSince.added : AddedSince but b token (h ++ [(v, .added b token presented now)]) := by
  intro before w generation untilInstant after heq
  obtain ⟨rest, rfl, -⟩ | ⟨-, hx, -⟩ := List.split_concat heq
  · exact .inr ⟨v, presented, now, by simp⟩
  · cases hx

theorem AddedSince.weaken {but' : ℕ → History (WebEvent mac) → Prop}
    (hsince : AddedSince but b token h) (hbut : ∀ v after, but v after → but' v after) :
    AddedSince but' b token h :=
  fun before w generation untilInstant after heq =>
    (hsince before w generation untilInstant after heq).imp_left (hbut w after)

-- The revocation is the request's own, and its action is not over.
def OwnAction (w v : ℕ) (after : History (WebEvent mac)) : Prop :=
  v = w ∧ (w, .finished) ∉ after

structure Fenced (c : Shared (WebState Tag) (WebEvent mac)) : Prop where
  guarded  : Guarded c.state fun w => (webDiscipline mac).place w c.history
  sessions : ∀ session ∈ c.state.sessions.sessions,
    AddedSince (fun _ _ => False) session.binding session.token c.history
  acting   : ∀ w b token, actsFor w c.history = some (b, token) →
    AddedSince (OwnAction w) b token c.history

theorem actsFor_concat (hadmitted : ∀ b token, x ≠ .admitted b token)
    (h' : actsFor w' (h ++ [(w, x)]) = some (b, token)) :
    actsFor w' h = some (b, token) ∧ (x = .finished → w' ≠ w) := by
  unfold actsFor at h' ⊢
  by_cases hw : w' = w
  case pos =>
    subst hw
    rw [(webDiscipline mac).place_append_self] at h'
    cases x <;> simp_all [webDiscipline, Place.next, Place.lock, Place.unlock, Place.takeGate]
  case neg =>
    rw [(webDiscipline mac).place_append_ne (Ne.symm hw)] at h'
    exact ⟨h', fun _ => hw⟩

namespace Fenced

variable {c : Shared (WebState Tag) (WebEvent mac)}

theorem start : Fenced ⟨(WebState.start : WebState Tag), ([] : History (WebEvent mac))⟩ where
  guarded  := Guarded.start
  sessions := by simp [WebState.start, SessionLedger.empty]
  acting   := by simp [actsFor, Discipline.place, webDiscipline, Place.start, Guard.empty]

theorem sessions_concat (hc : Fenced c) (hsession : session ∈ c.state.sessions.sessions)
    (hx : ∀ generation untilInstant, x ≠ .revoked session.binding generation untilInstant) :
    AddedSince (fun _ _ => False) session.binding session.token (c.history ++ [(w, x)]) :=
  (hc.sessions session hsession).concat (fun _ _ => id) fun generation untilInstant heq =>
    hx generation untilInstant heq

-- Only the request itself can end the sessions of the device it acts for.
theorem acting_concat (hc : Fenced c) (hadmitted : ∀ b token, x ≠ .admitted b token)
    (hmine : ∀ b generation untilInstant, x = .revoked b generation untilInstant →
      ((webDiscipline mac).place w c.history).guard.HoldsGate b)
    (hacts : actsFor w' (c.history ++ [(w, x)]) = some (b, token)) :
    AddedSince (OwnAction w') b token (c.history ++ [(w, x)]) := by
  obtain ⟨hbefore, hfinished⟩ := actsFor_concat hadmitted hacts
  refine (hc.acting w' b token hbefore).concat ?_ fun generation untilInstant heq => ?_
  · rintro v after ⟨rfl, hnot⟩
    refine ⟨rfl, fun hin => ?_⟩
    obtain hin | hin := List.mem_append.mp hin
    · exact hnot hin
    · obtain ⟨rfl, rfl⟩ := Prod.mk.inj (List.mem_singleton.mp hin)
      exact hfinished rfl rfl
  · have hgate := (hc.guarded.sound w').acting b token hbefore
    exact ⟨hc.guarded.alone (hmine b generation untilInstant heq) hgate, by simp⟩

theorem step (hc : Fenced c) {e} (hfree : ∀ x, e = some x → LockFree c.state x)
    (hlegal : Legal ((webDiscipline mac).place w c.history) c.state s' e) :
    Fenced (c.advance w s' e) := by
  have hguarded : Guarded (c.advance w s' e).state fun v =>
      (webDiscipline mac).place v (c.advance w s' e).history := by
    rw [Discipline.place_advance]
    exact hc.guarded.step hlegal hfree
  refine ⟨hguarded, ?_, ?_⟩
  · intro session hsession
    cases hlegal
    case quiet hquiet =>
      rw [Shared.advance_none] at hsession ⊢
      exact hc.sessions session (hquiet.sessions session hsession)
    case refused hquiet => exact hc.sessions_concat (hquiet.sessions session hsession) nofun
    case added b token presented now sessions clock mine fence only =>
      obtain hold | ⟨rfl, rfl⟩ := only session hsession
      · exact hc.sessions_concat hold nofun
      · exact .added
    case revoked b now clock mine =>
      obtain ⟨hold, hne⟩ := List.mem_filter.mp hsession
      refine hc.sessions_concat hold ?_
      rintro generation untilInstant ⟨⟩
      exact of_decide_eq_true hne rfl
    all_goals exact hc.sessions_concat hsession nofun
  · intro v b token hacts
    cases hlegal
    case quiet hquiet =>
      rw [Shared.advance_none] at hacts ⊢
      exact hc.acting v b token hacts
    case admitted b' token' now clock mine found =>
      by_cases hv : v = w
      case pos =>
        subst hv
        obtain ⟨session, hsession, htoken, hbinding⟩ := found
        have hnew : some (b', token') = some (b, token) := by
          rw [← hacts, actsFor, Shared.advance_some, Discipline.place_append_self]
          rfl
        obtain ⟨rfl, rfl⟩ := Prod.mk.inj (Option.some.inj hnew)
        subst htoken hbinding
        have hsince := hc.sessions_concat (w := v)
          (x := .admitted session.binding session.token) hsession nofun
        exact hsince.weaken fun _ _ => False.elim
      case neg =>
        rw [actsFor, Shared.advance_some, Discipline.place_append_ne _ (Ne.symm hv)] at hacts
        refine (hc.acting v b token hacts).concat ?_ fun _ _ heq => by cases heq
        rintro u after ⟨rfl, hnot⟩
        exact ⟨rfl, by simpa using hnot⟩
    case revoked b' now clock mine =>
      refine hc.acting_concat nofun ?_ hacts
      rintro _ _ _ ⟨⟩
      exact mine
    all_goals exact hc.acting_concat nofun nofun hacts

end Fenced

end Fences

section Waiting

variable {α : Type} {c : Pool (WebState Tag) WebAnswers (WebEvent mac) α}

-- The next thing the request does is to take the lock, as soon as it is free.
def Waiting (c : Pool (WebState Tag) WebAnswers (WebEvent mac) α) (w : ℕ) (lock : Lock) : Prop :=
  ∃ act emit next, c.procs[w]? = some (some (.step act emit next)) ∧
    ∀ answers state, emit answers state = some (.locked lock)

def WaitsFor (c : Pool (WebState Tag) WebAnswers (WebEvent mac) α) (w w' : ℕ) : Prop :=
  ∃ lock, Waiting c w lock ∧ lock ∈ locksOf w' c.history

end Waiting

variable [DecidableEq Tag] {registration : Option TenantScope}
  {c : Pool (WebState Tag) WebAnswers (WebEvent mac) (Except StatusCode Unit)}

-- Two requests never act for the same device at once. After a device has been signed out or revoked
-- nobody acts for it any more but for a session that has been added since. And requests do not wait
-- for each other in a circle.
structure ActionsFenced {α : Type} (c : Pool (WebState Tag) WebAnswers (WebEvent mac) α) : Prop where
  apart   : ∀ w w' b token token', actsFor w c.history = some (b, token) →
    actsFor w' c.history = some (b, token') → w = w'
  fenced  : ∀ before w b generation untilInstant after,
    c.history = before ++ (w, .revoked b generation untilInstant) :: after →
      ∀ w' token, actsFor w' c.history = some (b, token) →
        OwnAction w' w after ∨ AddedIn b token after
  acyclic : ∀ w, ¬Relation.TransGen (WaitsFor c) w w

theorem rank_lt_of_waiting (hrun : (webProcess mac registration).Run (initial .start) c)
    (hwaiting : Waiting c w lock) (hheld : lock' ∈ locksOf w c.history) :
    lock'.rank < lock.rank := by
  obtain ⟨act, emit, next, hproc, hemit⟩ := hwaiting
  have hfollows := (disciplined.run hrun).2 w _ hproc
  let answers : WebAnswers := ⟨.error .notFound, 0, .error .notFound, .error .notFound,
    .error .notFound, .error .notFound, .ok (), .ok ()⟩
  have hlegal := (hfollows answers .start fun e he => ?_).1
  case refine_1 =>
    rw [hemit] at he
    obtain rfl := Option.some.inj he
    exact List.not_mem_nil
  rw [hemit] at hlegal
  generalize act answers .start = s' at hlegal
  cases hlegal
  case locked below _ => exact below lock' hheld

theorem protected_actions_fenced
    (hrun : (webProcess mac registration).Run (initial .start) c) : ActionsFenced c := by
  have hfenced : Fenced c.toShared := by
    refine disciplined.invariant Fenced.start ?_ (fun _ _ _ hfalse => hfalse.elim) hrun
    exact fun c w s' e hc hfree hlegal => hc.step hfree hlegal
  have hrank : ∀ w lock lock', Waiting c w lock → lock' ∈ locksOf w c.history →
      lock'.rank < lock.rank :=
    fun w lock lock' => rank_lt_of_waiting hrun
  refine ⟨fun w w' b token token' hw hw' => ?_, ?_, acyclic_of_rank hrank⟩
  · exact hfenced.guarded.alone ((hfenced.guarded.sound w).acting b token hw)
      ((hfenced.guarded.sound w').acting b token' hw')
  · intro before w b generation untilInstant after heq w' token hacts
    exact hfenced.acting w' b token hacts before w generation untilInstant after heq

section Scenario

def person : ScopedPrincipal where
  scope     := ⟨Scenario.named "fp-tenant", none⟩
  principal := ⟨Scenario.named "fp-person", .person⟩

def phone : Binding :=
  ⟨"fp-tenant", none, "fp-person", "phone"⟩

-- Both clocks show the same time, and everything that is asked for is granted.
def answersAt (now : ℕ) : WebAnswers where
  wallMs     := .ok (Fin.ofNat _ now)
  instantMs  := now
  random     := .ok (List.replicate 32 7)
  nonce      := .ok "fp-session"
  subject    := .ok person
  trustedKey := .ok ("fp-key", [])
  verified   := .ok ()
  stored     := .ok ()

-- The first challenge for the device, at time zero.
def phoneInput : ChallengeMacInput where
  core    := ⟨challengeVersion, 90000, List.replicate 16 7⟩
  binding := phone
  context := ⟨.login, none, none, some 0⟩

def phoneChallenge : ChallengeId ChallengeMacInput :=
  ⟨phoneInput.core, phoneInput⟩

abbrev loginProcess : Workload (WebState ChallengeMacInput) WebAnswers (WebEvent id)
    (WebRequest ChallengeMacInput) (Except StatusCode Unit) :=
  webProcess id none

def goOn (turns : List (ℕ × ℕ)) : List (Move WebAnswers (WebRequest ChallengeMacInput)) :=
  turns.map fun turn => .run turn.1 (answersAt turn.2)

-- A login with the challenge, and a logout with the session it gets.
def loginThenLogout :
    Pool (WebState ChallengeMacInput) WebAnswers (WebEvent id) (Except StatusCode Unit) :=
  loginProcess.playAll (initial .start)
    ([.start (.loginChallenge phone), .start (.loginVerify phone (some phoneChallenge)),
      .start (.post "fp-session" (.logout phone))] ++
      goOn (List.replicate 6 (0, 0) ++ List.replicate 26 (1, 0) ++ List.replicate 28 (2, 1)))

end Scenario

theorem fenced_after_logout :
    loginProcess.Run (initial .start) loginThenLogout ∧
      (2, .revoked phone 1 180001) ∈ loginThenLogout.history ∧ ActionsFenced loginThenLogout := by
  have hrun : loginProcess.Run (initial .start) loginThenLogout :=
    AllowsAll.run (by decide +kernel)
  exact ⟨hrun, by decide +kernel, protected_actions_fenced hrun⟩

end FirstParty

end Ucr
