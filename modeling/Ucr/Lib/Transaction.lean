import Ucr.Lib.Except
import Mathlib.Order.Defs.Unbundled

-- Fallible updates of a state, run in place.

variable {σ ε α : Type} {s s' : σ} {r : Except ε (α × σ)} {a : α}

-- An update that computes its whole result before it writes: failing, it leaves the state alone.
def Except.commit (r : Except ε (α × σ)) (s : σ) : Except ε α × σ :=
  match r with
  | .ok (a, s') => (.ok a, s')
  | .error e    => (.error e, s)

namespace Except

theorem commit_eq_ok : r.commit s = (.ok a, s') ↔ r = .ok (a, s') := by
  rcases r with e | ⟨a', t⟩ <;> simp [commit]

theorem commit_fst_eq_error : (r.commit s).1 = .error e ↔ r = .error e := by
  rcases r with e' | ⟨a', t⟩ <;> simp [commit]

-- What is left behind is the old state or the result of a success.
theorem commit_snd_cases {motive : σ → Prop} (unchanged : motive s)
    (success : ∀ a s', r = .ok (a, s') → motive s') : motive (r.commit s).2 := by
  rcases r with e | ⟨a', t⟩
  case error => exact unchanged
  case ok    => exact success a' t rfl

end Except

-- A sequence of updates in place: when one fails, what was written before stays written.
def InPlace (σ ε α : Type) :=
  σ → Except ε α × σ

namespace InPlace

variable {β : Type} {m : InPlace σ ε α} {f : α → InPlace σ ε β} {b : β}

def run (m : InPlace σ ε α) (s : σ) : Except ε α × σ :=
  m s

instance : Monad (InPlace σ ε) where
  pure a   := fun s => (.ok a, s)
  bind m f := fun s =>
    match m.run s with
    | (.ok a, s)    => (f a).run s
    | (.error e, s) => (.error e, s)

instance : MonadStateOf σ (InPlace σ ε) where
  get := fun s => (.ok s, s)
  set s := fun _ => (.ok (), s)
  modifyGet f := fun s => (.ok (f s).1, (f s).2)

instance : MonadExceptOf ε (InPlace σ ε) where
  throw e := fun s => (.error e, s)
  tryCatch m rec := fun s =>
    match m.run s with
    | (.ok a, s)    => (.ok a, s)
    | (.error e, s) => (rec e).run s

def ofExcept (x : Except ε α) : InPlace σ ε α :=
  fun s => (x, s)

instance : MonadLift (Except ε) (InPlace σ ε) where
  monadLift := ofExcept

theorem run_bind_eq_ok :
    (m >>= f).run s = (.ok b, s') ↔ ∃ a t, m.run s = (.ok a, t) ∧ (f a).run t = (.ok b, s') := by
  change (match m.run s with
    | (.ok a, s)    => (f a).run s
    | (.error e, s) => (.error e, s)) = (.ok b, s') ↔ _
  rcases m.run s with ⟨_ | a, t⟩
  case error => simp
  case ok =>
    refine ⟨fun h => ⟨a, t, rfl, h⟩, ?_⟩
    rintro ⟨_, _, heq, h⟩
    cases heq
    exact h

theorem run_bind_pure_snd : ((m >>= fun _ => pure b).run s).2 = (m.run s).2 := by
  change (match m.run s with
    | (.ok _, s)    => ((pure b : InPlace σ ε β)).run s
    | (.error e, s) => (.error e, s)).2 = _
  rcases m.run s with ⟨_ | _, _⟩ <;> rfl

-- The steps of a sequence are taken in states that are related to the first one.
def Preserves (R : σ → σ → Prop) (m : InPlace σ ε α) : Prop :=
  ∀ s, R s (m.run s).2

variable {x : Except ε α}

namespace Preserves

variable {R : σ → σ → Prop}

theorem pure [Std.Refl R] : Preserves R (Pure.pure a : InPlace σ ε α) :=
  fun s => Std.Refl.refl s

theorem throw [Std.Refl R] : Preserves R (throw e : InPlace σ ε α) :=
  fun s => Std.Refl.refl s

theorem ofExcept [Std.Refl R] : Preserves R (InPlace.ofExcept x : InPlace σ ε α) :=
  fun s => Std.Refl.refl s

theorem get [Std.Refl R] : Preserves R (MonadState.get : InPlace σ ε σ) :=
  fun s => Std.Refl.refl s

theorem bind [IsTrans σ R] (hm : Preserves R m) (hf : ∀ a, Preserves R (f a)) :
    Preserves R (m >>= f) := by
  intro s
  have hfirst := hm s
  change R s (match m.run s with
    | (.ok a, s)    => (f a).run s
    | (.error e, s) => (.error e, s)).2
  rcases h : m.run s with ⟨_ | a, t⟩
  case error => rwa [h] at hfirst
  case ok =>
    rw [h] at hfirst
    exact IsTrans.trans _ _ _ hfirst (hf a t)

end Preserves

-- What a sequence begun in a state may end in: with a result, or stopped by an error.
structure Ends (m : InPlace σ ε α) (s : σ) (Q : α → σ → Prop) (E : σ → Prop) : Prop where
  ok    : ∀ a s', m.run s = (.ok a, s') → Q a s'
  error : ∀ e s', m.run s = (.error e, s') → E s'

namespace Ends

variable {P : α → σ → Prop} {Q : β → σ → Prop} {E E' : σ → Prop}

theorem pure (h : P a s) : Ends (Pure.pure a : InPlace σ ε α) s P E where
  ok    := by
    rintro a s' heq
    cases heq
    exact h
  error := by
    rintro e s' heq
    cases heq

theorem ofExcept (hok : ∀ a, x = .ok a → P a s) (herror : ∀ e, x = .error e → E s) :
    Ends (InPlace.ofExcept x : InPlace σ ε α) s P E where
  ok    := by
    rintro a s' heq
    exact (Prod.mk.inj heq).2 ▸ hok a (Prod.mk.inj heq).1
  error := by
    rintro e s' heq
    exact (Prod.mk.inj heq).2 ▸ herror e (Prod.mk.inj heq).1

theorem get {P : σ → σ → Prop} (h : P s s) : Ends (MonadState.get : InPlace σ ε σ) s P E where
  ok    := by
    rintro a s' heq
    cases heq
    exact h
  error := by
    rintro e s' heq
    cases heq

theorem modify {P : PUnit → σ → Prop} {f : σ → σ} (h : P ⟨⟩ (f s)) :
    Ends (modifyGet fun s => (⟨⟩, f s) : InPlace σ ε PUnit) s P E where
  ok    := by
    rintro a s' heq
    cases heq
    exact h
  error := by
    rintro e s' heq
    cases heq

theorem bind (hm : m.Ends s P E) (hf : ∀ a t, P a t → (f a).Ends t Q E) : (m >>= f).Ends s Q E where
  ok    := by
    intro b s' heq
    obtain ⟨a, t, hfirst, hrest⟩ := run_bind_eq_ok.mp heq
    exact (hf a t (hm.ok a t hfirst)).ok b s' hrest
  error := by
    intro e s' heq
    change (match m.run s with
      | (.ok a, s)    => (f a).run s
      | (.error e, s) => (.error e, s)) = _ at heq
    rcases hfirst : m.run s with ⟨e' | a, t⟩
    case error =>
      rw [hfirst] at heq
      exact (Prod.mk.inj heq).2 ▸ hm.error e' t hfirst
    case ok =>
      rw [hfirst] at heq
      exact (hf a t (hm.ok a t hfirst)).error e s' heq

-- A check reads nothing and writes nothing.
theorem check (hf : ∀ a, x = .ok a → (f a).Ends s Q E) (hstop : E s) :
    ((liftM x : InPlace σ ε α) >>= f).Ends s Q E := by
  refine bind (P := fun a t => x = .ok a ∧ t = s) ?_ ?_
  · exact ofExcept (fun a ha => ⟨ha, rfl⟩) fun _ _ => hstop
  · rintro a t ⟨ha, rfl⟩
    exact hf a ha

-- A check that is known to pass.
theorem passes (hx : x = .ok a) (h : (f a).Ends s Q E) :
    ((liftM x : InPlace σ ε α) >>= f).Ends s Q E := by
  refine bind (P := fun b t => b = a ∧ t = s) (ofExcept ?_ ?_) ?_
  · intro b hb
    exact ⟨Except.ok.inj (hb.symm.trans hx), rfl⟩
  · intro e he
    cases he.symm.trans hx
  · rintro _ _ ⟨rfl, rfl⟩
    exact h

theorem read {f : σ → InPlace σ ε β} (h : (f s).Ends s Q E) :
    ((MonadState.get : InPlace σ ε σ) >>= f).Ends s Q E := by
  refine bind (P := fun a t => a = s ∧ t = s) (get ⟨rfl, rfl⟩) ?_
  rintro a t ⟨rfl, rfl⟩
  exact h

theorem weaken {Q : α → σ → Prop} (h : m.Ends s P E) (hok : ∀ a s', P a s' → Q a s')
    (herror : ∀ s', E s' → E' s') : m.Ends s Q E' :=
  ⟨fun a s' heq => hok a s' (h.ok a s' heq), fun e s' heq => herror s' (h.error e s' heq)⟩

end Ends

end InPlace
