import Ucr.FirstParty.Web
import Ucr.Lib.Discipline

-- What each step of a request does to the process, and that every request keeps to this.

namespace Ucr

open List

namespace FirstParty

open Interleaving

-- Locks are taken in the order of their ranks: gates by their devices, then the lists and maps of
-- the process, and the store last.
def Lock.rank : Lock → ℕ ×ₗ String
  | .gate binding _ => toLex (0, binding.device)
  | .store => toLex (2, "")
  | _ => toLex (1, "")

def Lock.IsGate : Lock → Prop
  | .gate _ _ => True
  | _ => False

def Purpose.pool : Purpose → ReplayPool
  | .signup => .untrustedConsumed
  | .recover => .recoveryConsumed
  | _ => .consumed

-- What a request holds: references to gates, locks, and the session it acts for.
structure Guard where
  references : List (ℕ × Binding × ℕ)
  locks      : List Lock
  admitted   : Option (Binding × String)

def Guard.empty : Guard :=
  ⟨[], [], none⟩

def Guard.Below (g : Guard) (lock : Lock) : Prop :=
  ∀ l ∈ g.locks, l.rank < lock.rank

def Guard.OnlyGates (g : Guard) : Prop :=
  ∀ l ∈ g.locks, ∃ b n, l = .gate b n

def Guard.HoldsGate (g : Guard) (binding : Binding) : Prop :=
  ∃ number, .gate binding number ∈ g.locks

-- Where a request is. The challenge it has looked up in a replay list is remembered until the list
-- is unlocked, and so are the generations it has read.
structure Place {Tag : Type} (mac : ChallengeMacInput → Tag) where
  guard  : Guard
  vetted : Option (Pending mac × ℕ)
  fences : List U64

namespace Place

variable {Tag : Type} {mac : ChallengeMacInput → Tag}

def start : Place mac :=
  ⟨.empty, none, []⟩

def lock (k : Place mac) (lock : Lock) : Place mac :=
  { k with guard.locks := lock :: k.guard.locks }

def unlock (k : Place mac) (lock : Lock) : Place mac :=
  { k with
    guard.locks := k.guard.locks.erase lock
    vetted      := match lock with
      | .replay _ => none
      | _ => k.vetted }

def takeGate (k : Place mac) (r : ℕ) (binding : Binding) (n : ℕ) : Place mac :=
  { k with guard.references := (r, binding, n) :: k.guard.references }

def letIn (k : Place mac) (binding : Binding) (token : String) : Place mac :=
  { k with guard.admitted := some (binding, token) }

def next (k : Place mac) : WebEvent mac → Place mac
  | .locked lock => k.lock lock
  | .unlocked lock => k.unlock lock
  | .gateTaken r binding n => k.takeGate r binding n
  | .gateDropped r binding n => { k with guard.references := k.guard.references.erase (r, binding, n) }
  | .fenceRead generation => { k with fences := generation :: k.fences }
  | .vetted pending now => { k with vetted := some (pending, now) }
  | .spent _ _ => { k with vetted := none }
  | .admitted binding token => k.letIn binding token
  | .finished => { k with guard.admitted := none }
  | _ => k

end Place

section Steps

variable {Tag : Type} {mac : ChallengeMacInput → Tag}

-- Nothing gets lost but what has expired.
structure Quiet (s s' : WebState Tag) : Prop where
  instant : s.instantMs ≤ s'.instantMs
  kept : ∀ pool e, e ∈ s.replay pool → s'.instantMs < e.2 → e ∈ s'.replay pool
  remembered : ∀ pool e, e ∈ s'.replay pool → e ∈ s.replay pool
  sessions : ∀ session ∈ s'.sessions.sessions, session ∈ s.sessions.sessions
  fences : s'.sessions.loginGenerations = s.sessions.loginGenerations
  next : s'.sessions.nextGeneration = s.sessions.nextGeneration
  global : s'.sessions.globalGeneration = s.sessions.globalGeneration
  gates : s'.protectedActions = s.protectedActions
  references : s'.references = s.references
  created : s'.created = s.created
  held : s'.held = s.held

theorem Quiet.refl : Quiet s s :=
  ⟨le_rfl, fun _ _ h _ => h, fun _ _ h => h, fun _ h => h, rfl, rfl, rfl, rfl, rfl, rfl, rfl⟩

inductive Legal (k : Place mac) (s : WebState Tag) :
    WebState Tag → Option (WebEvent mac) → Prop
  | quiet {s'} (h : Quiet s s') : Legal k s s' none
  | locked (lock) (below : k.guard.Below lock)
      (referred : ∀ b n, lock = .gate b n → ∃ r, (r, b, n) ∈ k.guard.references) :
      Legal k s { s with held := lock :: s.held } (some (.locked lock))
  | unlocked (lock) (mine : lock ∈ k.guard.locks)
      (idle : ∀ b n, lock = .gate b n → k.guard.admitted = none) :
      Legal k s { s with held := s.held.erase lock } (some (.unlocked lock))
  | gateTaken (b) :
      Legal k s (s.upgradeGate b).2
        (some (.gateTaken (s.upgradeGate b).1.1 b (s.upgradeGate b).1.2))
  | gateDropped (r b n) (mine : (r, b, n) ∈ k.guard.references)
      (free : .gate b n ∉ k.guard.locks) :
      Legal k s (s.dropGate r) (some (.gateDropped r b n))
  | fenceRead (b now) (clock : s.instantMs ≤ now) :
      Legal k s { s with instantMs := now } (some (.fenceRead (s.sessions.generation b now)))
  | challenged (input : ChallengeMacInput)
      (login : input.context.purpose = .login →
        ∃ g ∈ k.fences, input.context.loginGeneration = some g) :
      Legal k s s (some (.challenged input))
  | vetted (pending : Pending mac) (now) (clock : s.instantMs ≤ now)
      (mine : .replay pending.context.purpose.pool ∈ k.guard.locks)
      (fresh : ∀ e ∈ s.replay pending.context.purpose.pool, now < e.2 → e.1 ≠ pending.id.tag) :
      Legal k s { s.forget pending.context.purpose.pool now with instantMs := now }
        (some (.vetted pending now))
  | spent (pending : Pending mac) (now)
      (mine : .replay pending.context.purpose.pool ∈ k.guard.locks)
      (vetted : k.vetted = some (pending, now)) :
      Legal k s (s.remember pending.context.purpose.pool pending.id.tag pending.untilInstant)
        (some (.spent pending now))
  | added (b token presented now) {sessions} (clock : s.instantMs ≤ now)
      (mine : k.guard.HoldsGate b)
      (fence : ∀ pending : Pending mac, presented = some pending →
        ∀ g, pending.context.loginGeneration = some g → s.sessions.generation b now = g)
      (only : ∀ session ∈ sessions,
        session ∈ s.sessions.sessions ∨ session.binding = b ∧ session.token = token) :
      Legal k s { s with instantMs := now, sessions.sessions := sessions }
        (some (.added b token presented now))
  | refused (attempt now) {s'} (h : Quiet s s') : Legal k s s' (some (.refused attempt now))
  | revoked (b now) (clock : s.instantMs ≤ now) (mine : k.guard.HoldsGate b) :
      Legal k s { s with instantMs := now, sessions := s.sessions.revokeDevice b now }
        (some (.revoked b (s.sessions.revokeDevice b now).nextGeneration
          (now + challengeTtl + challengeTtl)))
  | admitted (b token now) (clock : s.instantMs ≤ now) (mine : k.guard.HoldsGate b)
      (found : ∃ session ∈ s.sessions.sessions, session.token = token ∧ session.binding = b) :
      Legal k s { s with instantMs := now } (some (.admitted b token))
  | finished : Legal k s s (some .finished)

def webDiscipline (mac : ChallengeMacInput → Tag) :
    Discipline (WebState Tag) (WebEvent mac) (Place mac) where
  start := .start
  next  := Place.next
  legal := Legal

end Steps

namespace Web

variable {Tag α β : Type} {mac : ChallengeMacInput → Tag} {k : Place mac} {g : Guard} {lock : Lock}
  {Q : α → Prop}

abbrev Follows (k : Place mac) (p : Web mac α) (post : Except StatusCode α → Place mac → Prop) :
    Prop :=
  Prog.Follows (webDiscipline mac) LockFree k p.run post

-- The request has the same references and locks afterwards, and acts for the same session.
abbrev Returns (g : Guard) (p : Web mac α) (Q : α → Prop) : Prop :=
  Fallible.Returns (webDiscipline mac) LockFree Place.guard g p Q

variable {post : Except StatusCode Unit → Place mac → Prop}

section Locks

theorem follows_bind {f : α → Web mac β} {post : Except StatusCode β → Place mac → Prop}
    (hp : Follows k p fun r k' => match r with
      | .ok a    => Follows k' (f a) post
      | .error e => post (.error e) k') :
    Follows k (p >>= f) post := by
  refine Prog.Follows.bind hp fun r k' hr => ?_
  cases r
  case ok    => exact hr
  case error => exact hr

theorem follows_ofProg {post : Except StatusCode (Except StatusCode α) → Place mac → Prop}
    (hp : Follows k p fun r k' => post (.ok r) k') :
    Follows k (Fallible.ofProg p.run) post :=
  Prog.Follows.bind hp fun _ _ hr => hr

theorem follows_atomic {f : WebAnswers → WebState Tag → Except StatusCode α × WebState Tag}
    {emit : Except StatusCode α → Option (WebEvent mac)}
    {post : Except StatusCode α → Place mac → Prop}
    (h : ∀ i s r s', f i s = (r, s') →
      Legal k s s' (emit r) ∧ post r ((webDiscipline mac).after k (emit r))) :
    Follows k (Fallible.atomic f emit) post :=
  Prog.Follows.atomic fun i s r s' heq _ => h i s r s' heq

theorem follows_acquire (hbelow : k.guard.Below lock)
    (hreferred : ∀ b n, lock = .gate b n → ∃ r, (r, b, n) ∈ k.guard.references)
    (h : post (.ok ()) (k.lock lock)) : Follows k (acquire lock : Web mac Unit) post := by
  refine follows_atomic fun i s r s' heq => ?_
  obtain ⟨rfl, rfl⟩ := Prod.mk.inj heq
  exact ⟨.locked lock hbelow hreferred, h⟩

theorem follows_release
    (hmine : lock ∈ k.guard.locks) (hidle : ∀ b n, lock = .gate b n → k.guard.admitted = none)
    (h : post (.ok ()) (k.unlock lock)) : Follows k (release lock : Web mac Unit) post := by
  refine follows_atomic fun i s r s' heq => ?_
  obtain ⟨rfl, rfl⟩ := Prod.mk.inj heq
  exact ⟨.unlocked lock hmine hidle, h⟩

theorem follows_withLock {post : Except StatusCode α → Place mac → Prop}
    (hbelow : k.guard.Below lock)
    (hreferred : ∀ b n, lock = .gate b n → ∃ r, (r, b, n) ∈ k.guard.references)
    (hidle : ∀ b n, lock = .gate b n → k.guard.admitted = none)
    (hp : Follows (k.lock lock) p fun r k' =>
      k'.guard = (k.lock lock).guard ∧ post r (k'.unlock lock)) :
    Follows k (withLock lock p) post := by
  refine follows_bind (follows_acquire hbelow hreferred ?_)
  refine follows_bind (follows_ofProg (hp.mono fun r k' hr => ?_))
  obtain ⟨hguard, hpost⟩ := hr
  refine follows_bind (follows_release (by simp [hguard, Place.lock]) (fun b n heq => ?_) ?_)
  · rw [hguard]
    exact hidle b n heq
  · exact Prog.Follows.pure hpost

theorem guard_unlock {k' : Place mac} (h : k'.guard = (k.lock lock).guard) :
    (k'.unlock lock).guard = k.guard := by
  simp [Place.unlock, h, Place.lock]

theorem lock_unlock (h : ∀ pool, lock ≠ .replay pool) : (k.lock lock).unlock lock = k := by
  cases lock <;> simp_all [Place.unlock, Place.lock]

theorem returns_withLock (hbelow : g.Below lock)
    (hreferred : ∀ b n, lock = .gate b n → ∃ r, (r, b, n) ∈ g.references)
    (hidle : ∀ b n, lock = .gate b n → g.admitted = none)
    (hp : Returns { g with locks := lock :: g.locks } p Q) : Returns g (withLock lock p) Q := by
  rintro k rfl
  refine follows_withLock hbelow hreferred hidle ((hp (k.lock lock) rfl).mono fun r k' hr => ?_)
  exact ⟨hr.1, guard_unlock hr.1, hr.2⟩

-- Everything but a gate can be locked while gates are held.
theorem below_of_onlyGates (h : g.OnlyGates) (hlock : ¬lock.IsGate) : g.Below lock := by
  intro l hl
  obtain ⟨b, n, rfl⟩ := h l hl
  cases lock <;> simp_all [Lock.rank, Lock.IsGate, Prod.Lex.toLex_lt_toLex]

theorem returns_inside (honly : g.OnlyGates) (hlock : ¬lock.IsGate)
    (hp : Returns { g with locks := lock :: g.locks } p Q) : Returns g (withLock lock p) Q := by
  refine returns_withLock (below_of_onlyGates honly hlock) ?_ ?_ hp
  · rintro b n rfl
    exact absurd trivial hlock
  · rintro b n rfl
    exact absurd trivial hlock

theorem follows_clocked {f : ℕ → WebState Tag → Except StatusCode α × WebState Tag}
    {emit : α → Option (WebEvent mac)} {post : Except StatusCode α → Place mac → Prop}
    (h : ∀ s now r s', s.instantMs ≤ now → f now { s with instantMs := now } = (r, s') →
      Legal k s s' (r.toOption.bind emit) ∧
        post r ((webDiscipline mac).after k (r.toOption.bind emit))) :
    Follows k (clocked f emit) post :=
  follows_atomic fun i s r s' heq => h s (max s.instantMs i.instantMs) r s' (le_max_left _ _) heq

theorem returns_clocked {f : ℕ → WebState Tag → Except StatusCode α × WebState Tag}
    {emit : α → Option (WebEvent mac)}
    (h : ∀ k : Place mac, k.guard = g → ∀ s now r s', s.instantMs ≤ now →
      f now { s with instantMs := now } = (r, s') →
      Legal k s s' (r.toOption.bind emit) ∧
        ((webDiscipline mac).after k (r.toOption.bind emit)).guard = g ∧ ∀ a, r = .ok a → Q a) :
    Returns g (clocked f emit) Q :=
  fun k hk => follows_clocked (h k hk)

theorem follows_judged {f : ℕ → WebState Tag → Except StatusCode Unit × WebState Tag}
    {attempt : Attempt mac} {passed : ℕ → WebEvent mac}
    {post : Except StatusCode ℕ → Place mac → Prop}
    (hok : ∀ s now s', s.instantMs ≤ now → f now { s with instantMs := now } = (.ok (), s') →
      Legal k s s' (some (passed now)) ∧ post (.ok now) (k.next (passed now)))
    (herror : ∀ s now e s', s.instantMs ≤ now → f now { s with instantMs := now } = (.error e, s') →
      Quiet s s' ∧ post (.error e) k) :
    Follows k (judged f attempt passed) post := by
  refine follows_bind (follows_clocked fun s now r s' hnow heq => ?_)
  obtain ⟨rfl, rfl⟩ := Prod.mk.inj heq
  obtain ⟨verdict, s', hf⟩ : ∃ r s', f now { s with instantMs := now } = (r, s') := ⟨_, _, rfl⟩
  rw [hf]
  cases verdict
  case ok =>
    obtain ⟨hlegal, hpost⟩ := hok s now s' hnow hf
    exact ⟨hlegal, Prog.Follows.pure hpost⟩
  case error e =>
    obtain ⟨hquiet, hpost⟩ := herror s now e s' hnow hf
    exact ⟨.refused attempt now hquiet, Prog.Follows.pure hpost⟩

variable {f : WebAnswers → Except StatusCode α}

theorem follows_demand :
    Follows k (demand f : Web mac α) fun _ k' => k' = k := by
  refine follows_atomic fun i s r s' heq => ?_
  obtain ⟨rfl, rfl⟩ := Prod.mk.inj heq
  exact ⟨.quiet .refl, rfl⟩

theorem returns_of_follows (h : ∀ k : Place mac, k.guard = g → Follows k p fun _ k' => k' = k) :
    Returns g p fun _ => True := by
  intro k hk
  refine (h k hk).mono fun r k' hk' => ?_
  subst hk'
  exact ⟨hk, fun _ _ => trivial⟩

theorem returns_demand :
    Returns g (demand f : Web mac α) fun _ => True :=
  returns_of_follows fun _ _ => follows_demand

theorem returns_instantNow : Returns g (instantNow : Web mac ℕ) fun _ => True := by
  refine returns_clocked fun k hk s now r s' hnow heq => ?_
  obtain ⟨rfl, rfl⟩ := Prod.mk.inj heq
  exact ⟨.quiet { Quiet.refl with instant := hnow }, hk, fun _ _ => trivial⟩

-- The store is asked without leaving a trace.
theorem follows_stored (hbelow : k.guard.Below .store) :
    Follows k (stored f : Web mac α) fun _ k' => k' = k := by
  refine follows_withLock hbelow nofun nofun (follows_demand.mono fun r k' hk' => ?_)
  subst hk'
  exact ⟨rfl, by simp [Place.unlock, Place.lock]⟩

theorem returns_stored (honly : g.OnlyGates) :
    Returns g (stored f : Web mac α) fun _ => True := by
  refine returns_of_follows fun k hk => follows_stored ?_
  rw [hk]
  exact below_of_onlyGates honly not_false

theorem returns_parsed : Returns g (Fallible.ofExcept x : Web mac α) fun _ => True :=
  .ofExcept fun _ _ => trivial

theorem returns_subjectFor (honly : g.OnlyGates) :
    Returns g (subjectFor binding : Web mac ScopedPrincipal) fun _ => True := by
  refine returns_parsed.bind fun _ _ => ?_
  refine returns_parsed.bind fun _ _ => ?_
  exact returns_parsed.bind fun _ _ => returns_stored honly

theorem returns_trustedKey (honly : g.OnlyGates) :
    Returns g (trustedKey binding : Web mac (String × Bytes)) fun _ => True := by
  refine returns_parsed.bind fun _ _ => ?_
  exact returns_parsed.bind fun _ _ => returns_stored honly

theorem returns_ensureBinding :
    Returns g (ensureBinding requested session : Web mac Unit) fun _ =>
      requested = session.binding := by
  unfold ensureBinding
  split
  case isTrue h => exact .pure h
  case isFalse  => exact .throw

end Locks

variable {id : Option (ChallengeId Tag)}

section Challenges

variable {binding : Binding}

theorem follows_loginGeneration (honly : k.guard.OnlyGates) :
    Follows k (loginGeneration purpose binding : Web mac (Option U64)) fun r k' =>
      k'.guard = k.guard ∧
        ∀ a, r = .ok a → purpose = .login → ∃ generation ∈ k'.fences, a = some generation := by
  unfold loginGeneration
  split
  case isFalse h => exact Prog.Follows.pure ⟨rfl, fun _ _ hlogin => absurd hlogin h⟩
  case isTrue h =>
    refine follows_bind (follows_withLock (below_of_onlyGates honly not_false) nofun nofun ?_)
    refine follows_clocked fun s now r s' hnow heq => ?_
    obtain ⟨rfl, rfl⟩ := Prod.mk.inj heq
    refine ⟨.fenceRead binding now hnow, rfl, Prog.Follows.pure ⟨guard_unlock rfl, ?_⟩⟩
    rintro _ ⟨rfl⟩ -
    exact ⟨_, mem_cons_self, rfl⟩

theorem returns_loginGeneration (honly : g.OnlyGates) :
    Returns g (loginGeneration purpose binding : Web mac (Option U64)) fun _ => True := by
  rintro k rfl
  exact (follows_loginGeneration honly).mono fun r k' hr => ⟨hr.1, fun _ _ => trivial⟩

theorem returns_challenge (honly : g.OnlyGates) :
    Returns g (challenge binding purpose keyId publicKey : Web mac (ChallengeId Tag))
      fun _ => True := by
  rintro k rfl
  refine follows_bind ((follows_loginGeneration honly).mono fun r k₁ hr => ?_)
  obtain ⟨hguard, hfence⟩ := hr
  cases r
  case error => exact ⟨hguard, nofun⟩
  case ok generation =>
    refine follows_bind (follows_demand.mono fun r k₂ hk₂ => ?_)
    subst hk₂
    cases r
    case error => exact ⟨hguard, nofun⟩
    case ok now =>
      refine follows_bind (follows_demand.mono fun r k₂ hk₂ => ?_)
      subst hk₂
      cases r
      case error => exact ⟨hguard, nofun⟩
      case ok random =>
        refine follows_bind (follows_atomic fun i s r s' heq => ?_)
        obtain ⟨rfl, rfl⟩ := Prod.mk.inj heq
        refine ⟨.challenged _ fun hlogin => ?_, ⟨hguard, fun _ _ => trivial⟩⟩
        exact hfence generation rfl hlogin

variable [DecidableEq Tag]

theorem returns_consume (honly : g.OnlyGates) :
    Returns g (consume binding id purpose key : Web mac (Pending mac)) fun pending =>
      pending.context.purpose = purpose := by
  refine returns_parsed.bind fun id _ => ?_
  refine .check fun _ => (returns_loginGeneration honly).bind fun generation _ => ?_
  dsimp only
  split
  case isFalse => exact .throw
  case isTrue =>
    refine returns_demand.bind fun now _ => .check fun _ => ?_
    exact returns_instantNow.bind fun instant _ => .pure rfl

section Spending

variable {pending : Pending mac}

omit [DecidableEq Tag] in
theorem quiet_forget (hnow : s.instantMs ≤ now) :
    Quiet s ({ s with instantMs := now }.forget pool now) := by
  refine ⟨hnow, fun pool' e he hlive => ?_, fun pool' e he => ?_, fun _ h => h, rfl, rfl, rfl, rfl,
    rfl, rfl, rfl⟩
  · dsimp only [WebState.forget] at hlive ⊢
    by_cases h : pool' = pool
    case pos => subst h; simpa using ⟨he, hlive⟩
    case neg => simpa [h] using he
  · dsimp only [WebState.forget] at he
    by_cases h : pool' = pool
    case pos => subst h; simp only [Function.update_self, mem_filter] at he; exact he.1
    case neg => simpa [h] using he

theorem follows_vet {post : Except StatusCode ℕ → Place mac → Prop}
    (hpool : pending.context.purpose.pool = pool) (hmine : .replay pool ∈ k.guard.locks)
    (hok : ∀ now, post (.ok now) { k with vetted := some (pending, now) })
    (herror : ∀ e, post (.error e) k) : Follows k (vet pool capacity pending) post := by
  subst hpool
  refine follows_judged (fun s now s' hnow heq => ?_) fun s now e s' hnow heq => ?_
  case refine_2 =>
    obtain ⟨-, rfl⟩ := Prod.mk.inj heq
    exact ⟨quiet_forget hnow, herror e⟩
  obtain ⟨hvet, rfl⟩ := Prod.mk.inj heq
  refine ⟨.vetted pending now hnow hmine fun e he hlive heq => ?_, hok now⟩
  unfold WebState.vet at hvet
  split at hvet
  case isTrue  => cases hvet
  case isFalse hnone =>
    refine hnone (any_eq_true.mpr ⟨e, ?_, by simpa using heq⟩)
    simpa [WebState.forget] using ⟨he, hlive⟩

omit [DecidableEq Tag] in
theorem follows_remember
    (hpool : pending.context.purpose.pool = pool) (hmine : .replay pool ∈ k.guard.locks)
    (hvetted : k.vetted = some (pending, now)) (h : post (.ok ()) { k with vetted := none }) :
    Follows k (remember pool pending now) post := by
  subst hpool
  refine follows_atomic fun i s r s' heq => ?_
  obtain ⟨rfl, rfl⟩ := Prod.mk.inj heq
  exact ⟨.spent pending now hmine hvetted, h⟩

theorem returns_spend (honly : g.OnlyGates) (hpurpose : pending.context.purpose ≠ .recover) :
    Returns g (spend pending : Web mac Unit) fun _ => True := by
  rintro k rfl
  have hspend : ∀ pool capacity, pending.context.purpose.pool = pool →
      Follows k (withLock (.replay pool) do
        let now ← vet pool capacity pending
        remember pool pending now) fun r k' => k'.guard = k.guard ∧ ∀ a, r = .ok a → True := by
    intro pool capacity hpool
    refine follows_withLock (below_of_onlyGates honly not_false) nofun nofun ?_
    refine follows_bind (follows_vet hpool mem_cons_self (fun now => ?_) fun e => ?_)
    · exact follows_remember hpool mem_cons_self rfl ⟨rfl, guard_unlock rfl, fun _ _ => trivial⟩
    · exact ⟨rfl, guard_unlock rfl, nofun⟩
  unfold spend
  split
  case h_1 pool capacity hpair =>
    refine hspend pool capacity ?_
    split at hpair
    case isTrue h =>
      obtain ⟨rfl, -⟩ := Prod.mk.inj hpair
      rw [h]
      rfl
    case isFalse h =>
      obtain ⟨rfl, -⟩ := Prod.mk.inj hpair
      cases hp : pending.context.purpose <;> simp_all [Purpose.pool]

theorem returns_spendVerifiedRecovery (honly : g.OnlyGates) :
    Returns g (spendVerifiedRecovery pending : Web mac Unit) fun _ => True := by
  refine .check fun hpurpose => ?_
  have hpool : pending.context.purpose.pool = .recoveryConsumed := by
    rw [not_not.mp hpurpose]
    rfl
  rintro k rfl
  refine follows_withLock (below_of_onlyGates honly not_false) nofun nofun ?_
  refine follows_bind (follows_vet hpool mem_cons_self (fun now => ?_) fun e => ?_)
  · refine follows_bind ((follows_stored fun l hl => ?_).mono fun r k' hk' => ?_)
    · obtain rfl | hl := mem_cons.mp hl
      · simp [Lock.rank, Prod.Lex.toLex_lt_toLex]
      · exact below_of_onlyGates honly (show ¬Lock.store.IsGate from not_false) l hl
    · subst hk'
      cases r
      case error => exact ⟨rfl, guard_unlock rfl, nofun⟩
      case ok    =>
        exact follows_remember hpool mem_cons_self rfl
          ⟨rfl, guard_unlock rfl, fun _ _ => trivial⟩
  · exact ⟨rfl, guard_unlock rfl, nofun⟩

end Spending

end Challenges

section Gates

variable {binding : Binding} {own : Binding}

theorem takeGate_unlock :
    ((k.lock .protectedActions).takeGate r binding n).unlock .protectedActions =
      k.takeGate r binding n := by
  simp [Place.unlock, Place.lock, Place.takeGate]

theorem admit_unlock :
    ((k.lock .sessions).letIn binding token).unlock .sessions = k.letIn binding token := by
  simp [Place.unlock, Place.lock, Place.letIn]

theorem follows_protectedActionGate {post : Except StatusCode (ℕ × ℕ) → Place mac → Prop}
    (honly : k.guard.OnlyGates) (h : ∀ r n, post (.ok (r, n)) (k.takeGate r binding n)) :
    Follows k (protectedActionGate binding : Web mac (ℕ × ℕ)) post := by
  refine follows_bind (follows_acquire (below_of_onlyGates honly not_false) nofun ?_)
  refine follows_bind (follows_ofProg (follows_atomic fun i s r s' heq => ?_))
  obtain ⟨rfl, rfl⟩ := Prod.mk.inj heq
  refine ⟨.gateTaken binding, follows_bind (follows_release mem_cons_self nofun ?_)⟩
  have hpost := h (s.upgradeGate binding).1.1 (s.upgradeGate binding).1.2
  rw [← takeGate_unlock] at hpost
  exact Prog.Follows.pure hpost

theorem returns_holdGate {p : ℕ → Web mac α} (hunlocked : g.locks = [])
    (hp : ∀ r n, Returns { g with references := (r, binding, n) :: g.references } (p n) Q) :
    Returns g (holdGate binding p) Q := by
  rintro k rfl
  have honly : k.guard.OnlyGates := by simp [Guard.OnlyGates, hunlocked]
  refine follows_bind (follows_protectedActionGate honly fun r n => ?_)
  refine follows_bind (follows_ofProg ((hp r n _ rfl).mono fun result k' hr => ?_))
  obtain ⟨hguard, hresult⟩ := hr
  refine follows_bind (follows_atomic fun i s done s' heq => ?_)
  obtain ⟨rfl, rfl⟩ := Prod.mk.inj heq
  refine ⟨.gateDropped r binding n (by simp [hguard]) (by simp [hguard, hunlocked]), ?_⟩
  refine Prog.Follows.pure ⟨?_, hresult⟩
  simp [Place.next, webDiscipline, hguard]

theorem returns_withGate (hunlocked : g.locks = []) (hidle : g.admitted = none)
    (hp : ∀ g' : Guard, g'.OnlyGates → g'.HoldsGate binding → g'.admitted = none →
      Returns g' p Q) :
    Returns g (withGate binding p) Q := by
  refine returns_holdGate hunlocked fun r n => returns_withLock ?_ ?_ (fun _ _ _ => hidle) ?_
  · simp [Guard.Below, hunlocked]
  · rintro b m ⟨⟩
    exact ⟨r, mem_cons_self⟩
  · exact hp _ (by simp [Guard.OnlyGates, hunlocked]) ⟨n, mem_cons_self⟩ hidle

-- One gate is locked, and the other one has a device that comes later.
theorem returns_inOrder (hlt : b₁.device < b₂.device) (href₁ : ∃ r, (r, b₁, n₁) ∈ g.references)
    (href₂ : ∃ r, (r, b₂, n₂) ∈ g.references) (hunlocked : g.locks = []) (hidle : g.admitted = none)
    (hp : Returns { g with locks := .gate b₂ n₂ :: .gate b₁ n₁ :: g.locks } p Q) :
    Returns g (withLock (.gate b₁ n₁) (withLock (.gate b₂ n₂) p)) Q := by
  refine returns_withLock ?_ ?_ (fun _ _ _ => hidle) ?_
  · simp [Guard.Below, hunlocked]
  · rintro b m ⟨⟩
    exact href₁
  · refine returns_withLock ?_ ?_ (fun _ _ _ => hidle) hp
    · simpa [Guard.Below, hunlocked, Lock.rank, Prod.Lex.toLex_lt_toLex] using hlt
    · rintro b m ⟨⟩
      exact href₂

theorem returns_withGates (htarget : ∀ other, target = some other → other.device ≠ own.device)
    (hunlocked : g.locks = []) (hidle : g.admitted = none)
    (hp : ∀ g' : Guard, g'.OnlyGates → g'.HoldsGate own →
      (∀ other, target = some other → g'.HoldsGate other) → g'.admitted = none → Returns g' p Q) :
    Returns g (withGates own target p) Q := by
  cases target
  case none =>
    exact returns_withGate hunlocked hidle fun g' honly hown hidle' =>
      hp g' honly hown nofun hidle'
  case some other =>
    unfold withGates
    refine returns_holdGate hunlocked fun r₁ n₁ => ?_
    refine returns_holdGate hunlocked fun r₂ n₂ => ?_
    split
    case isTrue hlt =>
      refine returns_inOrder hlt ⟨r₂, by simp⟩ ⟨r₁, by simp⟩ hunlocked hidle
        (hp _ ?_ ⟨n₁, by simp⟩ ?_ hidle)
      · simp [Guard.OnlyGates, hunlocked]
      · rintro _ ⟨rfl⟩
        exact ⟨n₂, by simp⟩
    case isFalse hge =>
      have hlt : own.device < other.device :=
        lt_of_le_of_ne (not_lt.mp hge) (htarget other rfl).symm
      refine returns_inOrder hlt ⟨r₁, by simp⟩ ⟨r₂, by simp⟩ hunlocked hidle
        (hp _ ?_ ⟨n₁, by simp⟩ ?_ hidle)
      · simp [Guard.OnlyGates, hunlocked]
      · rintro _ ⟨rfl⟩
        exact ⟨n₂, by simp⟩

end Gates

section Requests

variable {auth : Session} {binding : Binding}

theorem mem_of_mem_roomFor {ledger : SessionLedger} {now}
    (h : session ∈ ledger.roomFor binding now) : session ∈ ledger.sessions := by
  dsimp only [SessionLedger.roomFor] at h
  split at h
  · exact mem_of_mem_filter (mem_of_mem_eraseP h)
  · exact mem_of_mem_filter h

theorem issue_cases {ledger ledger' : SessionLedger} {now}
    (h : ledger.issue session generation now = (result, ledger')) :
    ∃ sessions, ledger' = { ledger with sessions } ∧
      ((∃ e, result = .error e) ∧ (∀ s ∈ sessions, s ∈ ledger.sessions) ∨
        result = .ok () ∧ (∀ s ∈ sessions, s ∈ ledger.sessions ∨ s = session) ∧
          ∀ g, generation = some g → ledger.generation session.binding now = g) := by
  unfold SessionLedger.issue at h
  split at h
  case isTrue =>
    obtain ⟨rfl, rfl⟩ := Prod.mk.inj h
    exact ⟨_, rfl, .inl ⟨⟨_, rfl⟩, fun s hs => hs⟩⟩
  case isFalse hgeneration =>
    dsimp only at h
    split at h
    case isTrue =>
      obtain ⟨rfl, rfl⟩ := Prod.mk.inj h
      exact ⟨_, rfl, .inl ⟨⟨_, rfl⟩, fun s hs => mem_of_mem_roomFor hs⟩⟩
    case isFalse =>
      obtain ⟨rfl, rfl⟩ := Prod.mk.inj h
      refine ⟨_, rfl, .inr ⟨rfl, fun s hs => ?_, ?_⟩⟩
      · obtain hs | hs := mem_append.mp hs
        · exact .inl (mem_of_mem_roomFor hs)
        · exact .inr (mem_singleton.mp hs)
      · rintro g rfl
        simpa using hgeneration

theorem returns_issueSession (hunlocked : g.locks = []) (hidle : g.admitted = none) :
    Returns g (issueSession binding subject keyId publicKey presented : Web mac Unit)
      fun _ => True := by
  refine returns_withGate hunlocked hidle fun g' honly hgate _ => ?_
  refine returns_demand.bind fun token _ => ?_
  refine .bind (Q := fun _ => True) (returns_inside honly not_false ?_) fun _ _ => .pure trivial
  intro k hk
  refine follows_judged (fun s now s' hnow heq => ?_) fun s now e s' hnow heq => ?_
  all_goals
    dsimp only at heq
    obtain ⟨hissue, rfl⟩ := Prod.mk.inj heq
    obtain ⟨sessions, hledger, hcases⟩ := issue_cases (Prod.ext hissue rfl)
    simp only [hledger]
  case refine_2 =>
    obtain ⟨-, hsub⟩ | ⟨hok, -⟩ := hcases
    · exact ⟨{ Quiet.refl with instant := hnow, sessions := hsub }, hk, nofun⟩
    · cases hok
  case refine_1 =>
    obtain ⟨⟨e, herror⟩, -⟩ | ⟨-, hsub, hfence⟩ := hcases
    · cases herror
    refine ⟨.added binding token presented now hnow ?_ ?_ ?_, hk, fun _ _ => trivial⟩
    · rw [hk]
      obtain ⟨n, hn⟩ := hgate
      exact ⟨n, mem_cons_of_mem _ hn⟩
    · rintro pending rfl generation hgeneration
      exact hfence generation hgeneration
    · intro session hsession
      obtain hold | rfl := hsub session hsession
      · exact .inl hold
      · exact .inr ⟨rfl, rfl⟩

theorem returns_admitSignup (honly : g.OnlyGates) :
    Returns g (admitSignup : Web mac Unit) fun _ => True := by
  refine returns_instantNow.bind fun now _ => returns_inside honly not_false ?_
  refine .atomic fun k i s r s' hk heq _ => ?_
  dsimp only at heq
  split at heq
  all_goals
    obtain ⟨rfl, rfl⟩ := Prod.mk.inj heq
    exact ⟨.quiet { Quiet.refl with }, hk, fun _ _ => trivial⟩

theorem returns_accountSessionAfterCommit (hunlocked : g.locks = []) (hidle : g.admitted = none) :
    Returns g (accountSessionAfterCommit input : Web mac Unit) fun _ => True := by
  have honly : g.OnlyGates := by simp [Guard.OnlyGates, hunlocked]
  have hsession : Returns g (accountSession input : Web mac Unit) fun _ => True :=
    (returns_subjectFor honly).bind fun _ _ => returns_issueSession hunlocked hidle
  exact hsession.ofProg.bind fun _ _ => .pure trivial

variable (honly : g.OnlyGates)
include honly

theorem returns_loginChallenge :
    Returns g (loginChallenge binding : Web mac Unit) fun _ => True := by
  refine returns_parsed.bind fun _ _ => ?_
  refine returns_parsed.bind fun _ _ => ?_
  refine returns_parsed.bind fun _ _ => ?_
  exact (returns_challenge honly).bind fun _ _ => .pure trivial

theorem returns_signupBegin :
    Returns g (signupBegin registration : Web mac Unit) fun _ => True := by
  refine returns_parsed.bind fun _ _ => ?_
  refine returns_demand.bind fun _ _ => returns_demand.bind fun _ _ => ?_
  exact (returns_challenge honly).bind fun _ _ => .pure trivial

theorem returns_recoverBegin :
    Returns g (recoverBegin registration binding : Web mac Unit) fun _ => True := by
  refine returns_parsed.bind fun _ _ => ?_
  refine returns_parsed.bind fun _ _ => ?_
  refine .check fun _ => ?_
  refine returns_parsed.bind fun _ _ => ?_
  refine returns_parsed.bind fun _ _ => ?_
  exact (returns_challenge honly).bind fun _ _ => .pure trivial

theorem returns_authenticated :
    Returns g (authenticated token : Web mac Session) fun _ => True := by
  refine .bind (Q := fun _ => True) (returns_inside honly not_false ?_) fun session _ => ?_
  · refine returns_clocked fun k hk s now r s' hnow heq => ?_
    obtain ⟨rfl, rfl⟩ := Prod.mk.inj heq
    have hquiet : Quiet s { s with instantMs := now, sessions.sessions := s.sessions.live now } :=
      { Quiet.refl with instant := hnow, sessions := fun _ h => mem_of_mem_filter h }
    cases hfind : (s.sessions.live now).find? (·.token = token) <;>
      simpa [hfind] using ⟨.quiet hquiet, hk⟩
  · refine (returns_subjectFor honly).bind fun subject _ => .check fun _ => ?_
    refine (returns_trustedKey honly).bind fun key _ => .check fun _ => ?_
    exact .pure trivial

theorem returns_logout (hgate : g.HoldsGate auth.binding) :
    Returns g (logout auth binding : Web mac Unit) fun _ => True := by
  refine returns_ensureBinding.bind fun _ _ => ?_
  refine .bind (Q := fun _ => True) (returns_inside honly not_false ?_) fun _ _ => .pure trivial
  refine returns_clocked fun k hk s now r s' hnow heq => ?_
  split at heq
  case isTrue =>
    obtain ⟨rfl, rfl⟩ := Prod.mk.inj heq
    refine ⟨.revoked auth.binding now hnow ?_, hk, fun _ _ => trivial⟩
    exact hk ▸ hgate.imp fun _ => mem_cons_of_mem _
  case isFalse =>
    obtain ⟨rfl, rfl⟩ := Prod.mk.inj heq
    exact ⟨.quiet { Quiet.refl with instant := hnow }, hk, fun _ _ => trivial⟩

theorem returns_revokeDevice (hgate : g.HoldsGate { auth.binding with device := deviceId }) :
    Returns g (revokeDevice auth binding deviceId : Web mac Unit) fun _ => True := by
  refine returns_ensureBinding.bind fun _ _ => ?_
  refine returns_parsed.bind fun _ _ => ?_
  refine (returns_stored honly).bind fun _ _ => ?_
  refine .bind (Q := fun _ => True) (returns_inside honly not_false ?_) fun _ _ => .pure trivial
  refine returns_clocked fun k hk s now r s' hnow heq => ?_
  obtain ⟨rfl, rfl⟩ := Prod.mk.inj heq
  refine ⟨.revoked _ now hnow ?_, hk, fun _ _ => trivial⟩
  exact hk ▸ hgate.imp fun _ => mem_cons_of_mem _

theorem returns_deviceChallenge :
    Returns g (deviceChallenge auth binding keyId publicKey : Web mac Unit) fun _ => True := by
  refine returns_ensureBinding.bind fun _ _ => ?_
  refine returns_parsed.bind fun _ _ => ?_
  exact .check fun _ => (returns_challenge honly).bind fun _ _ => .pure trivial

omit honly

theorem follows_revalidate (honly : k.guard.OnlyGates) (hgate : k.guard.HoldsGate auth.binding)
    (hok : post (.ok ()) (k.letIn auth.binding auth.token))
    (herror : ∀ e, post (.error e) k) : Follows k (revalidate auth : Web mac Unit) post := by
  refine follows_bind (follows_acquire (below_of_onlyGates honly not_false) nofun ?_)
  refine follows_bind (follows_ofProg (follows_clocked fun s now r s' hnow heq => ?_))
  split at heq
  case isTrue hfound =>
    obtain ⟨rfl, rfl⟩ := Prod.mk.inj heq
    obtain ⟨session, hsession, hmatch⟩ := any_eq_true.mp hfound
    obtain ⟨htoken, hbinding, -⟩ := of_decide_eq_true hmatch
    refine ⟨.admitted _ _ now hnow ?_ ⟨session, hsession, htoken, hbinding⟩, ?_⟩
    · exact hgate.imp fun _ => mem_cons_of_mem _
    · refine follows_bind (follows_release mem_cons_self nofun (Prog.Follows.pure ?_))
      rw [← admit_unlock] at hok
      exact hok
  case isFalse =>
    obtain ⟨rfl, rfl⟩ := Prod.mk.inj heq
    refine ⟨.quiet { Quiet.refl with instant := hnow }, ?_⟩
    refine follows_bind (follows_release mem_cons_self nofun (Prog.Follows.pure ?_))
    have hback : (k.lock .sessions).unlock .sessions = k := lock_unlock nofun
    exact hback.symm ▸ herror _

variable [DecidableEq Tag]

theorem returns_deviceApprove (honly : g.OnlyGates) :
    Returns g (deviceApprove auth binding keyId publicKey id : Web mac Unit) fun _ => True := by
  refine returns_ensureBinding.bind fun _ _ => .check fun _ => ?_
  refine (returns_consume honly).bind fun pending hpending => ?_
  refine (returns_trustedKey honly).bind fun key _ => .check fun _ => ?_
  exact returns_demand.bind fun _ _ => returns_spend honly (by simp [hpending])

theorem returns_protectedAction (honly : g.OnlyGates) (hown : g.HoldsGate auth.binding)
    (htarget : ∀ binding deviceId, request = .revoke binding deviceId →
      g.HoldsGate { auth.binding with device := deviceId }) :
    Returns g (protectedAction auth request : Web mac Unit) fun _ => True := by
  cases request
  case logout => exact returns_logout honly hown
  case revoke binding device => exact returns_revokeDevice honly (htarget binding device rfl)
  case challenge => exact returns_deviceChallenge honly
  case approve => exact returns_deviceApprove honly
  case other => exact returns_ensureBinding.bind fun _ _ => returns_stored honly

theorem returns_checkedAction (honly : g.OnlyGates) (hown : g.HoldsGate auth.binding)
    (htarget : ∀ binding deviceId, request = .revoke binding deviceId →
      g.HoldsGate { auth.binding with device := deviceId }) :
    Returns g (checkedAction auth request : Web mac Unit) fun _ => True := by
  refine (returns_subjectFor honly).bind fun subject _ => .check fun _ => ?_
  refine (returns_trustedKey honly).bind fun key _ => .check fun _ => ?_
  exact returns_protectedAction honly hown htarget

omit [DecidableEq Tag] in
theorem returns_revocationTarget :
    Returns g (revocationTarget auth request : Web mac (Option Binding)) fun target =>
      (∀ other, target = some other → ∃ deviceId, other = { auth.binding with device := deviceId }) ∧
      ∀ binding deviceId, request = .revoke binding deviceId →
        target = some { auth.binding with device := deviceId } := by
  cases request
  case revoke binding deviceId =>
    refine returns_ensureBinding.bind fun _ _ => ?_
    refine returns_parsed.bind fun _ _ => ?_
    refine .pure ⟨?_, ?_⟩
    · rintro _ ⟨rfl⟩
      exact ⟨deviceId, rfl⟩
    · rintro _ _ ⟨⟩
      rfl
  all_goals exact .pure ⟨nofun, nofun⟩

-- The action runs while the gates are locked.
theorem returns_dispatchPost (hunlocked : g.locks = []) (hidle : g.admitted = none) :
    Returns g (dispatchPost auth request : Web mac Unit) fun _ => True := by
  refine returns_revocationTarget.bind fun target htarget => ?_
  refine returns_withGates (fun other hother => ?_) hunlocked hidle ?_
  · obtain ⟨hsome, hne⟩ := Option.filter_eq_some_iff.mp hother
    obtain ⟨deviceId, rfl⟩ := htarget.1 other hsome
    rintro rfl
    exact absurd rfl (of_decide_eq_true hne)
  · rintro g' honly hown hother hidle' k rfl
    have htarget' : ∀ binding deviceId, request = .revoke binding deviceId →
        k.guard.HoldsGate { auth.binding with device := deviceId } := by
      intro binding deviceId hrequest
      by_cases hsame : { auth.binding with device := deviceId } = auth.binding
      · exact hsame ▸ hown
      · exact hother _ (Option.filter_eq_some_iff.mpr
          ⟨htarget.2 binding deviceId hrequest, by simpa using hsame⟩)
    refine follows_bind (follows_revalidate honly hown ?_ fun e => ⟨rfl, nofun⟩)
    have haction : Returns (k.letIn auth.binding auth.token).guard
        (checkedAction auth request : Web mac Unit) fun _ => True :=
      returns_checkedAction honly hown htarget'
    refine follows_bind (follows_ofProg ((haction _ rfl).mono fun r k' hr => ?_))
    refine follows_bind (follows_atomic fun i s done s' heq => ?_)
    obtain ⟨rfl, rfl⟩ := Prod.mk.inj heq
    refine ⟨.finished, Prog.Follows.pure ⟨?_, fun _ _ => trivial⟩⟩
    change { k'.guard with admitted := none } = k.guard
    rw [hr.1, ← hidle']
    rfl

theorem returns_loginVerify (hunlocked : g.locks = []) (hidle : g.admitted = none) :
    Returns g (loginVerify binding id : Web mac Unit) fun _ => True := by
  have honly : g.OnlyGates := by simp [Guard.OnlyGates, hunlocked]
  refine (returns_consume honly).bind fun pending hpending => ?_
  refine (returns_subjectFor honly).bind fun subject _ => ?_
  refine (returns_trustedKey honly).bind fun key _ => returns_demand.bind fun _ _ => ?_
  refine (returns_spend honly (by simp [hpending])).bind fun _ _ => ?_
  exact returns_issueSession hunlocked hidle

theorem returns_accountFinish (hunlocked : g.locks = []) (hidle : g.admitted = none) :
    Returns g (accountFinish registration signup input id : Web mac Unit) fun _ => True := by
  have honly : g.OnlyGates := by simp [Guard.OnlyGates, hunlocked]
  refine returns_parsed.bind fun _ _ => ?_
  refine returns_parsed.bind fun _ _ => ?_
  refine .check fun _ => (returns_consume honly).bind fun pending hpending => ?_
  refine returns_parsed.bind fun _ _ => ?_
  refine .check fun _ => returns_demand.bind fun _ _ => ?_
  refine returns_parsed.bind fun _ _ => ?_
  refine returns_parsed.bind fun _ _ => ?_
  refine returns_demand.bind fun _ _ => ?_
  have hrest : Returns g (accountSessionAfterCommit input : Web mac Unit) fun _ => True :=
    returns_accountSessionAfterCommit hunlocked hidle
  dsimp only
  split
  case isTrue hsignup =>
    have hpurpose : pending.context.purpose ≠ .recover := by simp [hpending, hsignup]
    refine .bind (Q := fun _ => True) (.check fun _ => ?_) fun _ _ => hrest
    refine (returns_spend honly hpurpose).bind fun _ _ => ?_
    exact (returns_admitSignup honly).bind fun _ _ => returns_stored honly
  case isFalse =>
    refine .bind (Q := fun _ => True) (.check fun _ => ?_) fun _ _ => hrest
    exact returns_spendVerifiedRecovery honly

end Requests

end Web

open Web in
theorem disciplined {Tag : Type} [DecidableEq Tag] {mac : ChallengeMacInput → Tag} :
    (webProcess mac registration).Disciplined (webDiscipline mac) := by
  intro request
  have hfollows : Returns .empty (dispatch mac registration request) fun _ => True := by
    have honly : Guard.empty.OnlyGates := by simp [Guard.OnlyGates, Guard.empty]
    cases request
    case loginChallenge => exact returns_loginChallenge honly
    case loginVerify => exact returns_loginVerify rfl rfl
    case signupBegin => exact returns_signupBegin honly
    case recoverBegin => exact returns_recoverBegin honly
    case accountFinish => exact returns_accountFinish rfl rfl
    case post =>
      exact (returns_authenticated honly).bind fun _ _ => returns_dispatchPost rfl rfl
  exact (hfollows _ rfl).mono fun _ _ _ => trivial

end FirstParty

end Ucr
