import Ucr.FirstParty.Theorems.Gates

-- A replay list forgets a challenge when its deadline has passed. As long as it remembers the
-- challenge nobody gets past it again.

namespace Ucr

namespace FirstParty

open Interleaving Workload

variable {Tag : Type} {mac : ChallengeMacInput → Tag} {w : ℕ} {pending : Pending mac} {now : ℕ}
  {h : History (WebEvent mac)} {tag : Tag} {x : WebEvent mac}

def WebEvent.spending? : WebEvent mac → Option (Pending mac × ℕ)
  | .spent pending now => some (pending, now)
  | _ => none

-- Whoever looks a challenge up in a replay list tries to get past it.
def WebEvent.spendAttempt? : WebEvent mac → Option (Pending mac × ℕ)
  | .vetted pending now | .refused (.spend pending) now => some (pending, now)
  | _ => none

-- The challenges that requests have got past, each with the time at which it was looked up.
def spendings (h : History (WebEvent mac)) : List (Pending mac × ℕ) :=
  h.filterMap (·.2.spending?)

def NeverSpentTwice (h : History (WebEvent mac)) : Prop :=
  ((spendings h).map (·.1.id)).Nodup

-- Whoever comes to a list with a challenge that has been spent, and gets past it or not, comes
-- before the deadline that was recorded for the challenge.
def SpentInTime (h : History (WebEvent mac)) : Prop :=
  h.Pairwise fun x y => ∀ spending ∈ x.2.spending?, ∀ attempt ∈ y.2.spendAttempt?,
    attempt.1.id = spending.1.id → attempt.2 < spending.1.untilInstant

def WebEvent.macInput? : WebEvent mac → Option ChallengeMacInput
  | .challenged input => some input
  | .vetted pending _ | .spent pending _ | .refused (.spend pending) _ |
    .added _ _ (some pending) _ | .refused (.session _ (some pending)) _ => some pending.macInput
  | _ => none

-- The challenges that the process hands out, and those that requests open and get this far with.
def macInputs (h : History (WebEvent mac)) : Set ChallengeMacInput :=
  { input | ∃ e ∈ h, e.2.macInput? = some input }

theorem macInputs_mono (hsub : h ⊆ h') : macInputs h ⊆ macInputs h' := by
  rintro input ⟨e, he, hinput⟩
  exact ⟨e, hsub he, hinput⟩

theorem spendings_concat : spendings (h ++ [(w, x)]) = spendings h ++ x.spending?.toList := by
  cases hx : x.spending? <;> simp [spendings, hx]

theorem mem_spendings {y : Pending mac × ℕ} : y ∈ spendings h ↔ ∃ w, (w, .spent y.1 y.2) ∈ h := by
  unfold spendings
  rw [List.mem_filterMap]
  constructor
  · rintro ⟨⟨w, e⟩, he, hy⟩
    cases e
    case spent => obtain rfl := Option.some.inj hy; exact ⟨w, he⟩
    all_goals cases hy
  · rintro ⟨w, hw⟩
    exact ⟨_, hw, rfl⟩

-- The tag determines what the challenge was made for.
theorem purpose_eq (hmac : Set.InjOn mac (macInputs h)) {p₁ p₂ : Pending mac}
    (h₁ : p₁.macInput ∈ macInputs h) (h₂ : p₂.macInput ∈ macInputs h)
    (htag : p₁.id.tag = p₂.id.tag) : p₁.context.purpose = p₂.context.purpose := by
  have heq := hmac h₁ h₂ ((p₁.authentic.trans htag).trans p₂.authentic.symm)
  exact congrArg (·.context.purpose) heq

-- Whoever has spent the challenge had done so when it was looked up here, and the deadline that was
-- recorded for it had passed.
def Outlived (w : ℕ) (pending : Pending mac) (now : ℕ) (h : History (WebEvent mac)) : Prop :=
  ∀ v p t, (v, .spent p t) ∈ h → p.id.tag = pending.id.tag →
    p.untilInstant ≤ now ∧ [(v, .spent p t), (w, .vetted pending now)].Sublist h

theorem Outlived.concat (hold : Outlived w pending now h)
    (hx : ∀ p t, x = .spent p t → p.id.tag ≠ pending.id.tag) :
    Outlived w pending now (h ++ [(v, x)]) := by
  intro u p t hin htag
  obtain hin | hin := List.mem_append.mp hin
  · obtain ⟨hlate, hsub⟩ := hold u p t hin htag
    exact ⟨hlate, hsub.trans (List.sublist_append_left ..)⟩
  · obtain ⟨rfl, rfl⟩ := Prod.mk.inj (List.mem_singleton.mp hin)
    exact absurd htag (hx p t rfl)

structure SpentOnce (c : Shared (WebState Tag) (WebEvent mac)) : Prop where
  guarded    : Guarded c.state fun w => (webDiscipline mac).place w c.history
  remembered : ∀ y ∈ spendings c.history, c.state.instantMs < y.1.untilInstant →
    (y.1.id.tag, y.1.untilInstant) ∈ c.state.replay y.1.context.purpose.pool
  vetted     : ∀ w pending now,
    ((webDiscipline mac).place w c.history).vetted = some (pending, now) →
      .replay pending.context.purpose.pool ∈ locksOf w c.history ∧
        (w, .vetted pending now) ∈ c.history ∧ Outlived w pending now c.history
  once : c.history.Pairwise fun x y => ∀ p t q now, x.2 = .spent p t → y.2 = .spent q now →
    p.id.tag = q.id.tag →
      p.untilInstant ≤ now ∧ [x, (y.1, .vetted q now)].Sublist c.history

namespace SpentOnce

variable {c : Shared (WebState Tag) (WebEvent mac)}

theorem start : SpentOnce ⟨(WebState.start : WebState Tag), ([] : History (WebEvent mac))⟩ where
  guarded := Guarded.start
  remembered := by simp [spendings]
  vetted := by simp [Discipline.place, webDiscipline, Place.start]
  once := .nil

-- A list loses nothing before its time.
theorem keeps {s s'} (hlegal : Legal k s s' e) :
    s.instantMs ≤ s'.instantMs ∧
      ∀ pool x, x ∈ s.replay pool → s'.instantMs < x.2 → x ∈ s'.replay pool := by
  cases hlegal
  case quiet hquiet | refused hquiet => exact ⟨hquiet.instant, hquiet.kept⟩
  case vetted pending now clock mine fresh => exact ⟨clock, (Web.quiet_forget clock).kept⟩
  case spent pending now mine vetted =>
    refine ⟨le_rfl, fun pool x hx _ => ?_⟩
    dsimp only [WebState.remember]
    by_cases h : pool = pending.context.purpose.pool
    case pos => subst h; simpa using Or.inl hx
    case neg => simpa [h] using hx
  case fenceRead clock | added clock _ _ _ | revoked clock _ | admitted clock _ _ =>
    exact ⟨clock, fun _ _ hx _ => hx⟩
  all_goals exact ⟨le_rfl, fun _ _ hx _ => hx⟩

-- A challenge that has been looked up stays so until it is spent or the list is unlocked.
theorem vetted_next {k : Place mac} (hx : ∀ p t, x ≠ .vetted p t)
    (h : (k.next x).vetted = some (pending, now)) :
    k.vetted = some (pending, now) ∧ x.spending? = none ∧
      ∀ pool, .replay pool ∈ k.guard.locks → .replay pool ∈ (k.next x).guard.locks := by
  cases x
  case vetted p t => exact absurd rfl (hx p t)
  case spent => simp [Place.next] at h
  case locked lock => exact ⟨h, rfl, fun pool hpool => List.mem_cons_of_mem _ hpool⟩
  case unlocked lock =>
    cases lock
    case replay => simp [Place.next, Place.unlock] at h
    all_goals exact ⟨h, rfl, fun pool hpool => (List.mem_erase_of_ne (by simp)).mpr hpool⟩
  all_goals exact ⟨h, rfl, fun pool hpool => hpool⟩

-- Whoever has looked a challenge up has the list to themselves.
theorem vetted_concat (hmac : Set.InjOn mac (macInputs (c.history ++ [(w, x)]))) (hc : SpentOnce c)
    (hlegal : Legal ((webDiscipline mac).place w c.history) c.state s' (some x))
    (h : ((webDiscipline mac).place v (c.history ++ [(w, x)])).vetted = some (pending, now)) :
    .replay pending.context.purpose.pool ∈ locksOf v (c.history ++ [(w, x)]) ∧
      (v, .vetted pending now) ∈ c.history ++ [(w, x)] ∧
      Outlived v pending now (c.history ++ [(w, x)]) := by
  have hlast : (w, x) ∈ c.history ++ [(w, x)] := by simp
  unfold locksOf
  by_cases hv : v = w
  case neg =>
    rw [Discipline.place_append_ne _ (Ne.symm hv)] at h ⊢
    obtain ⟨hlock, hin, hold⟩ := hc.vetted v pending now h
    refine ⟨hlock, List.mem_append_left _ hin, hold.concat ?_⟩
    rintro p t rfl htag
    cases hlegal
    case spent mine _ =>
      rw [purpose_eq hmac ⟨_, hlast, rfl⟩ ⟨_, List.mem_append_left _ hin, rfl⟩ htag] at mine
      exact hv (hc.guarded.mutex.exclusive v w _ hlock mine)
  case pos =>
    subst hv
    rw [Discipline.place_append_self] at h ⊢
    by_cases hx : ∀ p t, x ≠ .vetted p t
    case pos =>
      obtain ⟨hbefore, hnone, hlocks⟩ := vetted_next hx h
      obtain ⟨hlock, hin, hold⟩ := hc.vetted v pending now hbefore
      refine ⟨hlocks _ hlock, List.mem_append_left _ hin, hold.concat ?_⟩
      rintro p t rfl
      cases hnone
    case neg =>
      push Not at hx
      obtain ⟨p, t, rfl⟩ := hx
      obtain ⟨rfl, rfl⟩ := Prod.mk.inj (Option.some.inj h)
      cases hlegal
      case vetted mine clock fresh =>
        refine ⟨mine, hlast, fun u q t hin htag => ?_⟩
        obtain hin | hin := List.mem_append.mp hin
        case inr => cases List.mem_singleton.mp hin
        refine ⟨?_, (List.singleton_sublist.mpr hin).append (.refl _)⟩
        by_contra hlive
        rw [not_le] at hlive
        have hthere := hc.remembered (q, t) (mem_spendings.mpr ⟨u, hin⟩) (clock.trans_lt hlive)
        rw [purpose_eq hmac ⟨_, List.mem_append_left _ hin, rfl⟩ ⟨_, hlast, rfl⟩ htag] at hthere
        exact fresh _ hthere hlive htag

theorem step (hmac : Set.InjOn mac (macInputs (c.advance w s' e).history)) (hc : SpentOnce c)
    (hfree : ∀ x, e = some x → LockFree c.state x)
    (hlegal : Legal ((webDiscipline mac).place w c.history) c.state s' e) :
    SpentOnce (c.advance w s' e) := by
  have hguarded : Guarded (c.advance w s' e).state fun v =>
      (webDiscipline mac).place v (c.advance w s' e).history := by
    rw [Discipline.place_advance]
    exact hc.guarded.step hlegal hfree
  obtain ⟨hclock, hkeeps⟩ := keeps hlegal
  have hremembered : ∀ y ∈ spendings c.history, s'.instantMs < y.1.untilInstant →
      (y.1.id.tag, y.1.untilInstant) ∈ s'.replay y.1.context.purpose.pool :=
    fun y hy hlive => hkeeps _ _ (hc.remembered y hy (hclock.trans_lt hlive)) hlive
  cases e
  case none =>
    rw [Shared.advance_none] at hguarded ⊢
    exact ⟨hguarded, hremembered, hc.vetted, hc.once⟩
  case some x =>
    rw [Shared.advance_some] at hguarded hmac ⊢
    refine ⟨hguarded, fun y hy hlive => ?_, fun v p t => hc.vetted_concat hmac hlegal, ?_⟩
    · rw [spendings_concat] at hy
      obtain hy | hy := List.mem_append.mp hy
      · exact hremembered y hy hlive
      · cases hlegal
        case spent p t _ _ _ =>
          obtain rfl : y = (p, t) := by simpa [WebEvent.spending?] using hy
          simp [WebState.remember]
        all_goals simp [WebEvent.spending?] at hy
    · have hsub := List.sublist_append_left c.history [(w, x)]
      refine List.pairwise_append.mpr ⟨hc.once.imp ?_, List.pairwise_singleton .., ?_⟩
      · exact fun hpair p t q now hx hy htag =>
          (hpair p t q now hx hy htag).imp_right fun hbefore => hbefore.trans hsub
      · rintro ⟨v, _⟩ hin y hy p t q now rfl hspent htag
        obtain rfl := List.mem_singleton.mp hy
        obtain rfl := hspent
        cases hlegal
        case spent _ vetted =>
          exact ((hc.vetted w q now vetted).2.2 v p t hin htag).imp_right fun hbefore =>
            hbefore.trans hsub

end SpentOnce

variable [DecidableEq Tag] {registration : Option TenantScope}
  {c : Pool (WebState Tag) WebAnswers (WebEvent mac) (Except StatusCode Unit)}

theorem spent_once_when_in_time (hmac : Set.InjOn mac (macInputs c.history))
    (hrun : (webProcess mac registration).Run (initial .start) c)
    (hintime : SpentInTime c.history) : NeverSpentTwice c.history := by
  let inv (c : Shared (WebState Tag) (WebEvent mac)) : Prop :=
    Set.InjOn mac (macInputs c.history) → SpentOnce c
  have hspent : inv c.toShared := by
    refine disciplined.invariant (fun _ => SpentOnce.start) (fun c w s' e hc hfree hlegal hmac => ?_)
      (fun _ _ _ hfalse => hfalse.elim) hrun
    have hgrows : c.history ⊆ (c.advance w s' e).history := List.subset_append_left ..
    exact (hc (hmac.mono (macInputs_mono hgrows))).step hmac hfree hlegal
  unfold NeverSpentTwice spendings
  rw [List.Nodup, List.pairwise_map, List.pairwise_filterMap]
  refine (hspent hmac).once.imp ?_
  rintro ⟨v, e⟩ ⟨w, e'⟩ hpair ⟨p, t⟩ hp ⟨q, now⟩ hq heq
  cases e <;> cases hp
  cases e' <;> cases hq
  obtain ⟨hlate, hbefore⟩ := hpair p t q now rfl rfl (congrArg ChallengeId.tag heq)
  have hearly := List.pairwise_pair.mp (hintime.sublist hbefore) _ rfl _ rfl heq.symm
  exact absurd hearly (not_lt.mpr hlate)

section Scenario

instance : Decidable (NeverSpentTwice h) :=
  inferInstanceAs (Decidable (List.Nodup _))

instance : Decidable (SpentInTime h) :=
  inferInstanceAs (Decidable (List.Pairwise _ _))

-- A challenge is issued to request 0. Two logins present it.
def twoLogins : List (Move WebAnswers (WebRequest ChallengeMacInput)) :=
  [.start (.loginChallenge phone), .start (.loginVerify phone (some phoneChallenge)),
    .start (.loginVerify phone (some phoneChallenge))]

def phonePending : Pending (id : ChallengeMacInput → ChallengeMacInput) :=
  ⟨phoneChallenge, phone, phoneInput.context, 90000, rfl⟩

-- Both logins open the challenge in time. One gets past it at once, the other one takes the steps
-- that are left at the time that is given.
def turnsUntil (last : ℕ) : List (ℕ × ℕ) :=
  List.replicate 6 (0, 0) ++ List.replicate 12 (1, 1000) ++ List.replicate 16 (2, 1000) ++
    List.replicate 3 (1, last)

def twoLoginsUntil (last : ℕ) :
    Pool (WebState ChallengeMacInput) WebAnswers (WebEvent id) (Except StatusCode Unit) :=
  loginProcess.playAll (initial .start) (twoLogins ++ goOn (turnsUntil last))

end Scenario

theorem second_login_refused_in_time :
    loginProcess.Run (initial .start) (twoLoginsUntil 89999) ∧
      (twoLoginsUntil 89999).history.filterMap (·.2.spendAttempt?) =
        [(phonePending, 1000), (phonePending, 89999)] ∧
      NeverSpentTwice (twoLoginsUntil 89999).history := by
  have hrun : loginProcess.Run (initial .start) (twoLoginsUntil 89999) :=
    AllowsAll.run (by decide +kernel)
  refine ⟨hrun, by decide +kernel, ?_⟩
  exact spent_once_when_in_time Function.injective_id.injOn hrun (by decide +kernel)

-- At the deadline the list has forgotten the challenge, while a request that has opened it in time
-- is not asked again how late it is.
theorem spent_again_at_deadline :
    loginProcess.Run (initial .start) (twoLoginsUntil 90000) ∧
      (turnsUntil 90000).Pairwise (fun x y => x.2 ≤ y.2) ∧
      ¬NeverSpentTwice (twoLoginsUntil 90000).history :=
  ⟨AllowsAll.run (by decide +kernel), by decide +kernel, by decide +kernel⟩

end FirstParty

end Ucr
