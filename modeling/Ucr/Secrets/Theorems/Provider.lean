import Ucr.Secrets.Provider

-- A version that has been replaced never becomes current again, as long as no rotation presents one
-- that is no longer remembered.

namespace Ucr.InMemorySecretProvider

open Scenario

variable {ops : List SecretOp} {i j k : ℕ} {handle : SecretHandle} {version : SecretVersion}

def current (state : InMemorySecretProvider) (handle : SecretHandle) : Option SecretVersion :=
  (state handle).map (·.current)

def previous (state : InMemorySecretProvider) (handle : SecretHandle) : Option SecretVersion :=
  (state handle).bind (·.previous)

-- What a call can do to a handle: nothing, or make a version current that is neither of the two
-- known.
theorem run_cases (state : InMemorySecretProvider) (op : SecretOp) (handle : SecretHandle) :
    (state.run op).2 handle = state handle ∨
    ∃ version, current (state.run op).2 handle = some version ∧
      previous (state.run op).2 handle = state.current handle ∧
      state.current handle ≠ some version ∧ state.previous handle ≠ some version ∧
      (state.current handle = none ∨ op = .rotate handle version) := by
  cases op
  case provision handle' version =>
    by_cases h : handle = handle'
    · subst h
      simp only [run, provision]
      split
      case h_1 => split <;> exact .inl rfl
      case h_2 h => simp [current, previous, h]
    · simp only [run, provision]
      (repeat' split) <;> simp [Function.update_of_ne h]
  case rotate handle' version =>
    by_cases h : handle = handle'
    · subst h
      simp only [run, rotate]
      (repeat' split) <;> simp_all [current, previous]
    · simp only [run, rotate]
      (repeat' split) <;> simp [Function.update_of_ne h]

-- No rotation presents a version that has been current before and is not remembered any more.
def Remembered (ops : List SecretOp) : Prop :=
  ∀ n handle version, ops[n]? = some (.rotate handle version) →
    (∃ i ≤ n, current (stage ops i) handle = some version) →
    current (stage ops n) handle = some version ∨ previous (stage ops n) handle = some version

theorem current_stays (hij : i ≤ j) (h : current (stage ops i) handle ≠ none) :
    current (stage ops j) handle ≠ none := by
  refine Stages.stage_keeps (P := (current · handle ≠ none)) hij h fun n op _ _ ih => ?_
  obtain hsame | ⟨version, hnext, -⟩ := run_cases (stage ops n) op handle
  · rwa [current, hsame]
  · simp [hnext]

theorem stopped_stays (hops : Remembered ops) (hij : i ≤ j) (hjk : j ≤ k)
    (hi : current (stage ops i) handle = some version)
    (hj : current (stage ops j) handle ≠ some version) :
    current (stage ops k) handle ≠ some version := by
  refine Stages.stage_keeps (P := (current · handle ≠ some version)) hjk hj fun n op hjn hop ih => ?_
  obtain hsame | ⟨version', hnext, -, -, hprevious, hnone | rfl⟩ := run_cases (stage ops n) op handle
  · rwa [current, hsame]
  · exact absurd hnone (current_stays (hij.trans hjn) (by simp [hi]))
  · rw [hnext]
    rintro ⟨⟩
    exact (hops n handle version hop ⟨i, hij.trans hjn, hi⟩).elim ih hprevious

theorem rotate_known {state : InMemorySecretProvider} {set : ActiveSecretSet}
    (h : state handle = some set)
    (hknown : set.current = version ∨
      set.current.versionId ≠ version.versionId ∧ set.previous = some version) :
    state.rotate handle version = (.ok set, state) := by
  simp only [rotate, h]
  grind

theorem rotate_twice {state state' later : InMemorySecretProvider} {set}
    (h : state.rotate handle version = (.ok set, state')) (hlater : later handle = state' handle) :
    later.rotate handle version = (.ok set, later) := by
  unfold rotate at h
  (repeat' split at h) <;> simp only [Prod.mk.injEq, Except.ok.injEq, reduceCtorEq, false_and] at h <;>
    obtain ⟨rfl, rfl⟩ := h <;> refine rotate_known (hlater.trans ?_) ?_ <;> simp_all

-- A version that is replaced stays replaced, the previous version is the one before the last
-- change, and a rotation that is tried again changes nothing.
theorem rotation_never_rolls_back (ops : List SecretOp) (hops : Remembered ops) (handle : SecretHandle) :
    (∀ i j k version, i ≤ j → j ≤ k → current (stage ops i) handle = some version →
      current (stage ops j) handle ≠ some version → current (stage ops k) handle ≠ some version) ∧
    (∀ i k, i < k → stage ops (i + 1) handle ≠ stage ops i handle →
      (∀ j, i < j → j ≤ k → stage ops j handle = stage ops (i + 1) handle) →
      previous (stage ops k) handle = current (stage ops i) handle) ∧
    ∀ n version set state', (stage ops n).rotate handle version = (.ok set, state') →
      ∀ later : InMemorySecretProvider, later handle = state' handle →
        later.rotate handle version = (.ok set, later) := by
  refine ⟨fun i j k version hij hjk => stopped_stays hops hij hjk, fun i k hik hchanged hlast => ?_,
    fun _ _ _ _ h _ => rotate_twice h⟩
  rw [previous, hlast k hik le_rfl]
  obtain heq | ⟨op, -, heq : stage ops (i + 1) = _⟩ : stage ops (i + 1) = stage ops i ∨ _ :=
    Stages.stage_succ
  · exact absurd (congrFun heq handle) hchanged
  · rw [heq] at hchanged ⊢
    obtain hsame | ⟨_, -, hprevious, -⟩ := run_cases (stage ops i) op handle
    · exact absurd hsame hchanged
    · exact hprevious

def token : SecretHandle := ⟨named "token", .webhookSigning⟩

def wood (id : OpaqueId) : SecretVersion := ⟨id, [0], by simp, by decide⟩
def oak : SecretVersion := wood (named "oak")
def elm : SecretVersion := wood (named "elm")
def ash : SecretVersion := wood (named "ash")
def yew : SecretVersion := wood (named "yew")

def early : List SecretOp := [.provision token oak, .rotate token elm, .rotate token oak]

theorem oak_stays_replaced : current (stage early 3) token ≠ some oak := by
  refine (rotation_never_rolls_back early ?_ token).1 1 2 3 oak (by decide) (by decide) rfl (by decide)
  rintro (_ | _ | _ | n) handle version hop ⟨i, hi, hcurrent⟩ <;> simp [early] at hop
  case succ.zero =>
    obtain ⟨rfl, rfl⟩ := hop
    obtain rfl | rfl : i = 0 ∨ i = 1 := by omega
    all_goals exact absurd hcurrent (by decide)
  case succ.succ.zero =>
    obtain ⟨rfl, rfl⟩ := hop
    exact .inr rfl

-- The rotation to `elm` is tried again late.
theorem elm_comes_back :
    let ops := [.provision token oak, .rotate token elm, .rotate token ash, .rotate token yew,
      .rotate token elm]
    current (stage ops 2) token = some elm ∧ current (stage ops 3) token = some ash ∧
      current (stage ops 5) token = some elm := by
  decide

end Ucr.InMemorySecretProvider
