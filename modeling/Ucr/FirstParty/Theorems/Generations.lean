import Ucr.FirstParty.Theorems.Spending

-- A revocation gives the device a new generation, and a login with a challenge of an older one does
-- not get a session as long as this is remembered.

namespace Ucr

namespace FirstParty

open Interleaving

variable {Tag : Type} {mac : ChallengeMacInput → Tag} {w : ℕ} {h : History (WebEvent mac)}
  {x : WebEvent mac} {ledger : SessionLedger} {b : Binding} {now untilInstant : ℕ} {g : U64}

namespace SessionLedger

-- Until the given instant the device has at least this generation.
def Fences (ledger : SessionLedger) (b : Binding) (g : U64) (untilInstant : ℕ) : Prop :=
  (∃ fence, ledger.loginGenerations.get b = some fence ∧ g ≤ fence.1 ∧ untilInstant ≤ fence.2) ∨
    g ≤ ledger.globalGeneration

-- No generation is given out twice.
structure Bounded (ledger : SessionLedger) : Prop where
  fences : ∀ b fence, ledger.loginGenerations.get b = some fence → fence.1 ≤ ledger.nextGeneration
  global : ledger.globalGeneration ≤ ledger.nextGeneration

theorem le_generation (hfences : ledger.Fences b g untilInstant) (hnow : now < untilInstant) :
    g ≤ ledger.generation b now := by
  unfold generation
  obtain ⟨fence, hget, hg, huntil⟩ | hg := hfences
  · have hlive : now < fence.2 := hnow.trans_le huntil
    simpa [hget, Option.filter, hlive] using Or.inl hg
  · cases (ledger.loginGenerations.get b).filter fun fence => now < fence.2
    case none   => exact hg
    case some f => exact hg.trans (le_max_right _ _)

theorem generation_le (hbounded : ledger.Bounded) :
    ledger.generation b now ≤ ledger.nextGeneration := by
  unfold generation
  cases hfilter : (ledger.loginGenerations.get b).filter fun fence => now < fence.2
  case none => exact hbounded.global
  case some fence =>
    have hget := (Option.filter_eq_some_iff.mp hfilter).1
    exact max_le (hbounded.fences b fence hget) hbounded.global

theorem le_saturatingSucc : g ≤ g.saturatingSucc := by
  unfold U64.saturatingSucc U64.checkedSucc
  split
  · exact Fin.le_def.mpr (Nat.le_succ _)
  · exact le_rfl

theorem lt_saturatingSucc (hg : g.val + 1 < 2 ^ 64) : g < g.saturatingSucc := by
  rw [U64.saturatingSucc, U64.checkedSucc, dif_pos hg]
  exact Fin.lt_def.mpr (Nat.lt_succ_self _)

theorem saturatingSucc_le : g.saturatingSucc.val ≤ g.val + 1 := by
  unfold U64.saturatingSucc U64.checkedSucc
  split
  · exact le_rfl
  · exact Nat.le_succ _

theorem fences_revokeDevice_self :
    (ledger.revokeDevice b now).Fences b (ledger.revokeDevice b now).nextGeneration
      (now + challengeTtl + challengeTtl) :=
  .inl ⟨_, Table.get_put_self, le_rfl, le_rfl⟩

-- A fence that is live is replaced by a newer one of the same device or of all devices.
theorem Fences.revokeDevice (hfences : ledger.Fences b g untilInstant) (hbounded : ledger.Bounded)
    (hlive : now < untilInstant) (hterm : untilInstant ≤ now + challengeTtl + challengeTtl) :
    (ledger.revokeDevice b' now).Fences b g untilInstant := by
  have hnext : g ≤ ledger.nextGeneration := by
    obtain ⟨fence, hget, hg, -⟩ | hg := hfences
    · exact hg.trans (hbounded.fences b fence hget)
    · exact hg.trans hbounded.global
  have hsucc : g ≤ ledger.nextGeneration.saturatingSucc := hnext.trans le_saturatingSucc
  by_cases hb : b = b'
  case pos =>
    subst hb
    exact .inl ⟨_, Table.get_put_self, hsucc, hterm⟩
  case neg =>
    dsimp only [Fences, SessionLedger.revokeDevice]
    split
    case isTrue  => exact .inr hsucc
    case isFalse =>
      refine hfences.imp_left fun hfence => ?_
      obtain ⟨fence, hget, hg, huntil⟩ := hfence
      refine ⟨fence, (Table.get_put_ne hb).trans (Table.get_retain.mpr ⟨hget, ?_⟩), hg, huntil⟩
      exact decide_eq_true (hlive.trans_le huntil)

theorem Bounded.revokeDevice (hbounded : ledger.Bounded) : (ledger.revokeDevice b now).Bounded := by
  refine ⟨fun b' fence hget => ?_, ?_⟩
  · dsimp only [SessionLedger.revokeDevice] at hget ⊢
    rw [Table.get_put] at hget
    split at hget
    case isTrue =>
      obtain rfl := Option.some.inj hget
      exact le_rfl
    case isFalse =>
      split at hget
      case isTrue  => simp at hget
      case isFalse =>
        exact (hbounded.fences b' fence (Table.get_retain.mp hget).1).trans le_saturatingSucc
  · dsimp only [SessionLedger.revokeDevice]
    split
    case isTrue  => exact le_rfl
    case isFalse => exact hbounded.global.trans le_saturatingSucc

end SessionLedger

def WebEvent.isRevocation : WebEvent mac → Bool
  | .revoked _ _ _ => true
  | _ => false

def revocations (h : History (WebEvent mac)) : ℕ :=
  h.countP (·.2.isRevocation)

theorem revocations_concat :
    revocations (h ++ [(w, x)]) = revocations h + if x.isRevocation then 1 else 0 := by
  cases hx : x.isRevocation <;> simp [revocations, hx]

-- A login challenge has a generation that is not newer than this one.
def IssuedBy (input : ChallengeMacInput) (g : U64) : Prop :=
  ∃ g₀, input.context.loginGeneration = some g₀ ∧ g₀ ≤ g

structure Generations (c : Shared (WebState Tag) (WebEvent mac)) : Prop where
  bounded : c.state.sessions.Bounded
  counted : c.state.sessions.nextGeneration.val ≤ revocations c.history
  read    : ∀ w, ∀ g ∈ ((webDiscipline mac).place w c.history).fences,
    g ≤ c.state.sessions.nextGeneration
  issued  : ∀ w input, (w, .challenged input) ∈ c.history → input.context.purpose = .login →
    IssuedBy input c.state.sessions.nextGeneration
  term    : ∀ w b g u, (w, .revoked b g u) ∈ c.history →
    u ≤ c.state.instantMs + challengeTtl + challengeTtl
  fenced  : ∀ w b g u, (w, .revoked b g u) ∈ c.history → c.state.instantMs < u →
    c.state.sessions.Fences b g u
  older   : revocations c.history < 2 ^ 64 → c.history.Pairwise fun x y => ∀ input b g u,
    x.2 = .challenged input → input.context.purpose = .login → y.2 = .revoked b g u →
      ∃ g₀, input.context.loginGeneration = some g₀ ∧ g₀ < g
  refused : c.history.Pairwise fun x y => ∀ b g u token pending now g₀,
    x.2 = .revoked b g u → y.2 = .added b token (some pending) now →
      pending.context.loginGeneration = some g₀ → now < u → g ≤ g₀

namespace Generations

variable {c : Shared (WebState Tag) (WebEvent mac)} {s : WebState Tag}

theorem start : Generations ⟨(WebState.start : WebState Tag), ([] : History (WebEvent mac))⟩ where
  bounded := ⟨by simp [WebState.start, SessionLedger.empty], le_rfl⟩
  counted := Nat.zero_le _
  read    := by simp [Discipline.place, webDiscipline, Place.start]
  issued  := by simp
  term    := by simp
  fenced  := by simp
  older   := fun _ => .nil
  refused := .nil

-- Only a revocation changes what is known about generations.
theorem same_fences (hlegal : Legal k s s' e) (he : ∀ b g u, e ≠ some (.revoked b g u)) :
    s'.sessions.loginGenerations = s.sessions.loginGenerations ∧
      s'.sessions.nextGeneration = s.sessions.nextGeneration ∧
      s'.sessions.globalGeneration = s.sessions.globalGeneration := by
  cases hlegal
  case quiet hquiet | refused hquiet => exact ⟨hquiet.fences, hquiet.next, hquiet.global⟩
  case revoked b now clock mine => exact absurd rfl (he _ _ _)
  all_goals exact ⟨rfl, rfl, rfl⟩

theorem fences_next {k : Place mac} (hx : ∀ g, x ≠ .fenceRead g) : (k.next x).fences = k.fences := by
  cases x
  case fenceRead g => exact absurd rfl (hx g)
  all_goals rfl

theorem next_mono (hlegal : Legal k s s' e) :
    s.sessions.nextGeneration ≤ s'.sessions.nextGeneration := by
  by_cases he : ∃ b g u, e = some (.revoked b g u)
  case pos =>
    obtain ⟨b, g, u, rfl⟩ := he
    cases hlegal
    exact SessionLedger.le_saturatingSucc
  case neg =>
    push Not at he
    exact (same_fences hlegal he).2.1.ge

theorem bounded_step (hbounded : s.sessions.Bounded) (hlegal : Legal k s s' e) :
    s'.sessions.Bounded := by
  by_cases he : ∃ b g u, e = some (.revoked b g u)
  case pos =>
    obtain ⟨b, g, u, rfl⟩ := he
    cases hlegal
    exact hbounded.revokeDevice
  case neg =>
    push Not at he
    obtain ⟨hfences, hnext, hglobal⟩ := same_fences hlegal he
    refine ⟨?_, ?_⟩
    · rw [hfences, hnext]
      exact hbounded.fences
    · rw [hglobal, hnext]
      exact hbounded.global

theorem fences_step (hbounded : s.sessions.Bounded) (hlegal : Legal k s s' e)
    (hfences : s.sessions.Fences b g untilInstant) (hlive : s'.instantMs < untilInstant)
    (hterm : untilInstant ≤ s'.instantMs + challengeTtl + challengeTtl) :
    s'.sessions.Fences b g untilInstant := by
  by_cases he : ∃ b g u, e = some (.revoked b g u)
  case pos =>
    obtain ⟨b', g', u', rfl⟩ := he
    cases hlegal
    exact hfences.revokeDevice hbounded hlive hterm
  case neg =>
    push Not at he
    obtain ⟨hsame, -, hglobal⟩ := same_fences hlegal he
    unfold SessionLedger.Fences
    rw [hsame, hglobal]
    exact hfences

theorem read_step (hc : Generations c)
    (hlegal : Legal ((webDiscipline mac).place w c.history) c.state s' (some x)) (v : ℕ) :
    ∀ g ∈ ((webDiscipline mac).place v (c.history ++ [(w, x)])).fences,
      g ≤ s'.sessions.nextGeneration := by
  intro g hg
  by_cases hv : v = w
  case neg =>
    rw [Discipline.place_append_ne _ (Ne.symm hv)] at hg
    exact (hc.read v g hg).trans (next_mono hlegal)
  case pos =>
    subst hv
    rw [Discipline.place_append_self] at hg
    by_cases hx : ∃ g, x = .fenceRead g
    case pos =>
      obtain ⟨g', rfl⟩ := hx
      obtain rfl | hg := List.mem_cons.mp hg
      · cases hlegal
        exact SessionLedger.generation_le hc.bounded
      · exact (hc.read v g hg).trans (next_mono hlegal)
    case neg =>
      push Not at hx
      have hsame : g ∈ ((webDiscipline mac).place v c.history).fences := fences_next hx ▸ hg
      exact (hc.read v g hsame).trans (next_mono hlegal)

theorem counted_step (hc : Generations c) (hlegal : Legal k c.state s' (some x)) :
    s'.sessions.nextGeneration.val ≤ revocations (c.history ++ [(w, x)]) := by
  have hcounted := hc.counted
  rw [revocations_concat]
  by_cases hx : ∃ b g u, x = .revoked b g u
  case pos =>
    obtain ⟨b, g, u, rfl⟩ := hx
    cases hlegal
    exact SessionLedger.saturatingSucc_le.trans (Nat.add_le_add_right hcounted 1)
  case neg =>
    push Not at hx
    obtain ⟨-, hnext, -⟩ := same_fences hlegal fun b g u heq => hx b g u (Option.some.inj heq)
    rw [hnext]
    exact hcounted.trans (Nat.le_add_right _ _)

theorem step (hc : Generations c)
    (hlegal : Legal ((webDiscipline mac).place w c.history) c.state s' e) :
    Generations (c.advance w s' e) := by
  have hmono := next_mono hlegal
  have hclock := (SpentOnce.keeps hlegal).1
  have hbounded := bounded_step hc.bounded hlegal
  have hterm : ∀ v b g u, (v, .revoked b g u) ∈ c.history →
      u ≤ s'.instantMs + challengeTtl + challengeTtl := by
    intro v b g u hin
    have := hc.term v b g u hin
    omega
  have hfenced : ∀ v b g u, (v, .revoked b g u) ∈ c.history → s'.instantMs < u →
      s'.sessions.Fences b g u :=
    fun v b g u hin hlive => fences_step hc.bounded hlegal
      (hc.fenced v b g u hin (hclock.trans_lt hlive)) hlive (hterm v b g u hin)
  have hissued : ∀ v input, (v, .challenged input) ∈ c.history → input.context.purpose = .login →
      IssuedBy input s'.sessions.nextGeneration := by
    intro v input hin hlogin
    obtain ⟨g₀, hg₀, hle⟩ := hc.issued v input hin hlogin
    exact ⟨g₀, hg₀, hle.trans hmono⟩
  cases e
  case none =>
    obtain ⟨-, hnext, -⟩ := same_fences hlegal nofun
    rw [Shared.advance_none]
    refine ⟨hbounded, ?_, ?_, hissued, hterm, hfenced, hc.older, hc.refused⟩
    · exact hnext ▸ hc.counted
    · exact hnext ▸ hc.read
  case some x =>
    rw [Shared.advance_some]
    constructor
    case bounded => exact hbounded
    case read    => exact hc.read_step hlegal
    case counted => exact hc.counted_step hlegal
    case issued =>
      intro v input hin hlogin
      obtain hin | hin := List.mem_append.mp hin
      · exact hissued v input hin hlogin
      · obtain ⟨rfl, rfl⟩ := Prod.mk.inj (List.mem_singleton.mp hin)
        cases hlegal
        case challenged login =>
          obtain ⟨g₀, hread, hg₀⟩ := login hlogin
          exact ⟨g₀, hg₀, hc.read v g₀ hread⟩
    case term =>
      intro v b g u hin
      obtain hin | hin := List.mem_append.mp hin
      · exact hterm v b g u hin
      · obtain ⟨rfl, rfl⟩ := Prod.mk.inj (List.mem_singleton.mp hin)
        cases hlegal
        exact le_rfl
    case fenced =>
      intro v b g u hin hlive
      obtain hin | hin := List.mem_append.mp hin
      · exact hfenced v b g u hin hlive
      · obtain ⟨rfl, rfl⟩ := Prod.mk.inj (List.mem_singleton.mp hin)
        cases hlegal
        exact SessionLedger.fences_revokeDevice_self
    case older =>
      intro hfew
      rw [revocations_concat] at hfew
      refine List.pairwise_append.mpr
        ⟨hc.older (by omega), List.pairwise_singleton _ _, ?_⟩
      rintro ⟨v, z⟩ hz y hy input b g u rfl hlogin hrevoked
      obtain rfl := List.mem_singleton.mp hy
      obtain rfl := hrevoked
      obtain ⟨g₀, hg₀, hle⟩ := hc.issued v input hz hlogin
      refine ⟨g₀, hg₀, hle.trans_lt ?_⟩
      cases hlegal
      refine SessionLedger.lt_saturatingSucc ?_
      have := hc.counted
      simp only [WebEvent.isRevocation, if_true] at hfew
      omega
    case refused =>
      refine List.pairwise_append.mpr ⟨hc.refused, List.pairwise_singleton _ _, ?_⟩
      rintro ⟨v, z⟩ hz y hy b g u token pending now g₀ rfl hadded hg₀ hlive
      obtain rfl := List.mem_singleton.mp hy
      obtain rfl := hadded
      cases hlegal
      case added mine only clock fence =>
        have hfences := hc.fenced v b g u hz (clock.trans_lt hlive)
        rw [← fence pending rfl g₀ hg₀]
        exact SessionLedger.le_generation hfences hlive

end Generations

-- A login that presents a challenge for the device from before a revocation gets a session after
-- it.
def LateLogin (h : History (WebEvent mac)) (b : Binding) (untilInstant now : ℕ) : Prop :=
  ∃ w₁ w₂ w₃ input g token pending,
    List.Sublist [(w₁, .challenged input), (w₂, .revoked b g untilInstant),
      (w₃, .added b token (some pending) now)] h ∧
    input.context.purpose = .login ∧ input.binding = b ∧ pending.id = ⟨input.core, mac input⟩

-- Only a login comes to the ledger with a challenge.
def WebEvent.loginAttempt? : WebEvent mac → Option (Binding × Pending mac × ℕ)
  | .added b _ (some pending) now | .refused (.session b (some pending)) now => some (b, pending, now)
  | _ => none

-- A login that presents a challenge for the device from before a revocation comes to the ledger
-- after it, and gets a session there or not.
def LateAttempt (h : History (WebEvent mac)) (b : Binding) (untilInstant now : ℕ) : Prop :=
  ∃ w₁ w₂ w₃ input g x pending,
    List.Sublist [(w₁, .challenged input), (w₂, .revoked b g untilInstant), (w₃, x)] h ∧
    input.context.purpose = .login ∧ input.binding = b ∧ pending.id = ⟨input.core, mac input⟩ ∧
    x.loginAttempt? = some (b, pending, now)

variable [DecidableEq Tag] {registration : Option TenantScope}
  {c : Pool (WebState Tag) WebAnswers (WebEvent mac) (Except StatusCode Unit)}

section Scenario

def WebEvent.fence? : WebEvent mac → Option (Binding × ℕ)
  | .revoked b _ untilInstant => some (b, untilInstant)
  | _ => none

-- Another challenge for the device, a moment after the first one.
def laterInput : ChallengeMacInput :=
  { phoneInput with core.expiry := 90001 }

def laterChallenge : ChallengeId ChallengeMacInput :=
  ⟨laterInput.core, laterInput⟩

def laterPending : Pending (id : ChallengeMacInput → ChallengeMacInput) :=
  ⟨laterChallenge, phone, laterInput.context, 90001, rfl⟩

-- The device has a session. A second login has spent its challenge when the device is signed out,
-- and goes on at the time that is given.
def logoutBetween (last : ℕ) :
    Pool (WebState ChallengeMacInput) WebAnswers (WebEvent id) (Except StatusCode Unit) :=
  loginProcess.playAll (Workload.initial .start)
    ([.start (.loginChallenge phone), .start (.loginVerify phone (some phoneChallenge)),
      .start (.loginChallenge phone), .start (.loginVerify phone (some laterChallenge)),
      .start (.post "fp-session" (.logout phone))] ++
      goOn (List.replicate 6 (0, 0) ++ List.replicate 26 (1, 0) ++ List.replicate 6 (2, 1) ++
        List.replicate 16 (3, 1) ++ List.replicate 28 (4, 2) ++ List.replicate 7 (3, last)))

end Scenario

end FirstParty

end Ucr
