import Mathlib.Logic.Basic

-- Fallible computations written as a sequence of guards: a guard either stops the computation with
-- its error or lets it go on. The lemmas below take such a sequence apart, so that proofs about a
-- fallible function never have to unfold the monad.

variable {ε : Type} {α β : Type} {c : Prop} [Decidable c] {e : ε} {a : α}

namespace Except

open Except

def rejectIf (c : Prop) [Decidable c] (e : ε) : Except ε Unit :=
  if c then .error e else .ok ()

@[simp]
theorem rejectIf_eq_ok : rejectIf c e = .ok u ↔ ¬c := by
  unfold rejectIf
  split <;> simp_all

@[simp]
theorem rejectIf_eq_error : rejectIf c e = .error e' ↔ c ∧ e = e' := by
  unfold rejectIf
  split <;> simp_all

variable {x : Except ε α} {f : α → Except ε β}

@[simp]
theorem bind_eq_ok : (x >>= f) = .ok b ↔ ∃ a, x = .ok a ∧ f a = .ok b := by
  cases x <;> simp [bind, Except.bind]

@[simp]
theorem bind_eq_error :
    (x >>= f) = .error e ↔ x = .error e ∨ ∃ a, x = .ok a ∧ f a = .error e := by
  cases x <;> simp [bind, Except.bind]

@[simp]
theorem map_eq_ok {f : α → β} : f <$> x = .ok b ↔ ∃ a, x = .ok a ∧ f a = b := by
  cases x <;> simp [Functor.map, Except.map]

@[simp]
theorem map_eq_error {f : α → β} : f <$> x = .error e ↔ x = .error e := by
  cases x <;> simp [Functor.map, Except.map]

@[simp]
theorem pure_eq_ok : (pure a : Except ε α) = .ok b ↔ a = b := by
  simp [pure, Except.pure]

theorem return_eq_ok : (pure (a, b) : Except ε (α × β)) = .ok (a', b') ↔ a = a' ∧ b = b' := by
  simp

-- Only the state of the result is of interest.
theorem state_eq (h : (pure (a, b) : Except ε (α × β)) = .ok (a', b')) : b = b' :=
  (return_eq_ok.mp h).2

theorem state_after_eq {γ : Type} {x : Except ε γ}
    (h : (x >>= fun _ => pure (a, b)) = .ok (a', b')) :
    b = b' := by
  obtain ⟨_, -, h⟩ := bind_eq_ok.mp h
  exact state_eq h

@[simp]
theorem pure_ne_error : (pure a : Except ε α) ≠ .error e := by
  simp [pure, Except.pure]

@[simp]
theorem throw_ne_ok : (throw e : Except ε α) ≠ .ok a := by
  simp [throw, throwThe, MonadExceptOf.throw]

@[simp]
theorem throw_eq_error : (throw e : Except ε α) = .error e' ↔ e = e' := by
  simp [throw, throwThe, MonadExceptOf.throw]

variable {ε' : Type}

@[simp]
theorem mapError_ok {f : ε → ε'} :
    (.ok a : Except ε α).mapError f = .ok a :=
  rfl

@[simp]
theorem mapError_error {f : ε → ε'} {e} : (.error e : Except ε α).mapError f = .error (f e) :=
  rfl

@[simp]
theorem mapError_eq_ok {f : ε → ε'} :
    x.mapError f = .ok a ↔ x = .ok a := by
  cases x <;> simp

@[simp]
theorem mapError_eq_error {f : ε → ε'} {e'} :
    x.mapError f = .error e' ↔ ∃ e, x = .error e ∧ f e = e' := by
  cases x <;> simp

def failed : Except ε α → Option ε
  | .ok _    => none
  | .error e => some e

-- A loop that only checks succeeds if every element passes.
@[simp]
theorem forM_eq_ok {l : List α} {f : α → Except ε Unit} :
    forM l f = .ok u ↔ ∀ a ∈ l, f a = .ok () := by
  induction l
  case nil => simp
  case cons hd tl ih =>
    simp only [List.forM_cons, bind_eq_ok, ih, List.forall_mem_cons]
    exact ⟨fun ⟨_, h⟩ => h, fun h => ⟨(), h⟩⟩

-- Which errors a computation can end in.
def FailsOnlyWith (P : ε → Prop) (x : Except ε α) : Prop :=
  ∀ e, x = .error e → P e

section FailsOnlyWith

variable {P : ε → Prop}

@[simp]
theorem failsOnlyWith_pure : FailsOnlyWith P (pure a : Except ε α) :=
  fun _ h => absurd h pure_ne_error

@[simp]
theorem failsOnlyWith_ok : FailsOnlyWith P (.ok a : Except ε α) := by
  simp [FailsOnlyWith]

@[simp]
theorem failsOnlyWith_throw : FailsOnlyWith P (throw e : Except ε α) ↔ P e := by
  simp [FailsOnlyWith]

@[simp]
theorem failsOnlyWith_rejectIf : FailsOnlyWith P (rejectIf c e) ↔ (c → P e) := by
  simp [FailsOnlyWith]

@[simp]
theorem failsOnlyWith_map {f : α → β} :
    FailsOnlyWith P (f <$> x) ↔ FailsOnlyWith P x := by
  cases x <;> simp [FailsOnlyWith, Functor.map, Except.map]

@[simp]
theorem failsOnlyWith_bind :
    FailsOnlyWith P (x >>= f) ↔
      FailsOnlyWith P x ∧ ∀ a, x = .ok a → FailsOnlyWith P (f a) := by
  simp only [FailsOnlyWith, bind_eq_error]
  grind

end FailsOnlyWith

end Except

namespace Option

def okOr (o : Option α) (e : ε) : Except ε α :=
  match o with
  | some a => .ok a
  | none   => .error e

@[simp]
theorem okOr_eq_ok : o.okOr e = .ok a ↔ o = some a := by
  cases o <;> simp [okOr]

@[simp]
theorem okOr_eq_error : o.okOr e = .error e' ↔ o = none ∧ e = e' := by
  cases o <;> simp [okOr]

@[simp]
theorem failsOnlyWith_okOr {P : ε → Prop} :
    Except.FailsOnlyWith P (o.okOr e) ↔ (o = none → P e) := by
  simp [Except.FailsOnlyWith]

end Option

-- The rules that take a successful computation apart, in one.
theorem Except.ok_iff :
    (∀ {ε α β : Type} {x : Except ε α} {f : α → Except ε β} {b : β},
      (x >>= f) = .ok b ↔ ∃ a, x = .ok a ∧ f a = .ok b) ∧
    (∀ {ε α β : Type} {a a' : α} {b b' : β},
      (pure (a, b) : Except ε (α × β)) = .ok (a', b') ↔ a = a' ∧ b = b') ∧
    (∀ {ε α : Type} {a b : α}, (pure a : Except ε α) = .ok b ↔ a = b) ∧
    (∀ {ε : Type} {c : Prop} [Decidable c] {e : ε} {u : Unit}, rejectIf c e = .ok u ↔ ¬c) ∧
    (∀ {ε ε' α : Type} {x : Except ε α} {f : ε → ε'} {a : α}, x.mapError f = .ok a ↔ x = .ok a) ∧
    ∀ {ε α : Type} {o : Option α} {e : ε} {a : α}, o.okOr e = .ok a ↔ o = some a :=
  ⟨bind_eq_ok, return_eq_ok, pure_eq_ok, rejectIf_eq_ok, mapError_eq_ok,
    Option.okOr_eq_ok⟩

@[simp]
theorem guard_option_eq_some {c : Prop} [Decidable c] : (guard c : Option Unit) = some u ↔ c := by
  change (if c then some () else none) = some u ↔ c
  simp
