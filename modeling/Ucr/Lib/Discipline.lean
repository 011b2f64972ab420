import Ucr.Lib.Prog
import Mathlib.Data.List.Induction

-- What a program may do next can depend on what it has done itself before: which locks it has
-- taken, what it has been promised. A discipline follows every program through its own events and
-- says which of its steps are legal at the place it has reached. That a program keeps to it is read
-- off the program alone, whatever the others do, and an invariant of a whole run then has to be
-- checked for legal steps only.

namespace Interleaving

open Function List

structure Discipline (σ ε κ : Type) where
  start : κ
  next  : κ → ε → κ
  legal : κ → σ → σ → Option ε → Prop

variable {σ ι ε κ α β τ : Type} {s : σ}

namespace Discipline

variable (D : Discipline σ ε κ) {k : κ} {w : ℕ} {h : History ε} {e : ε}

def after (k : κ) (e : Option ε) : κ :=
  e.elim k (D.next k)

@[simp]
theorem after_none : D.after k none = k :=
  rfl

@[simp]
theorem after_some : D.after k (some e) = D.next k e :=
  rfl

-- The place that the program with number `w` has reached.
def place (w : ℕ) (h : History ε) : κ :=
  h.foldl (fun k x => if x.1 = w then D.next k x.2 else k) D.start

theorem place_append_self : D.place w (h ++ [(w, e)]) = D.next (D.place w h) e := by
  simp [place]

theorem place_append_ne (hne : w' ≠ w) : D.place w (h ++ [(w', e)]) = D.place w h := by
  simp [place, hne]

variable {c : Shared σ ε} {e : Option ε}

theorem place_advance_self :
    D.place w (c.advance w s e).history = D.after (D.place w c.history) e := by
  cases e
  case none   => simp
  case some e => simp [place_append_self]

theorem place_advance_ne (hne : w' ≠ w) :
    D.place w (c.advance w' s e).history = D.place w c.history := by
  cases e
  case none   => simp
  case some e => simp [place_append_ne D hne]

theorem place_advance :
    (fun v => D.place v (c.advance w s e).history) =
      Function.update (fun v => D.place v c.history) w (D.after (D.place w c.history) e) := by
  funext v
  by_cases heq : v = w
  case pos => subst heq; simp [place_advance_self]
  case neg => simp [heq, place_advance_ne D (Ne.symm heq)]

theorem place_eq_start (hnone : ∀ x ∈ h, x.1 ≠ w) : D.place w h = D.start := by
  induction h using reverseRecOn
  case nil => rfl
  case append_singleton rest x ih =>
    rw [show x = (x.1, x.2) from rfl, place_append_ne D (hnone x (by simp))]
    exact ih fun y hy => hnone y (mem_append_left _ hy)

end Discipline

namespace Prog

variable {D : Discipline σ ε κ} {allows : σ → ε → Prop} {k : κ} {post : α → κ → Prop}

-- Every step from the place `k` on is legal, and the program ends at a place that fits its result.
def Follows (D : Discipline σ ε κ) (allows : σ → ε → Prop) :
    κ → Prog σ ι ε α → (α → κ → Prop) → Prop
  | k, done a, post => post a k
  | k, step act emit next, post =>
    ∀ i s, (∀ e, emit i s = some e → allows s e) →
      D.legal k s (act i s) (emit i s) ∧
      Follows D allows (D.after k (emit i s)) (next i s) post

theorem Follows.mono {p : Prog σ ι ε α} {post' : α → κ → Prop}
    (hpost : ∀ a k, post a k → post' a k) (h : p.Follows D allows k post) :
    p.Follows D allows k post' := by
  induction p generalizing k
  case done a => exact hpost a k h
  case step act emit next ih =>
    intro i s hallowed
    obtain ⟨hlegal, hnext⟩ := h i s hallowed
    exact ⟨hlegal, ih i s hnext⟩

theorem Follows.pure (h : post a k) : (Pure.pure a : Prog σ ι ε α).Follows D allows k post :=
  h

theorem Follows.bind {f : α → Prog σ ι ε β} {Q : α → κ → Prop} {post : β → κ → Prop}
    (hp : p.Follows D allows k Q) (hf : ∀ a k, Q a k → (f a).Follows D allows k post) :
    (p >>= f).Follows D allows k post := by
  induction p generalizing k
  case done a => exact hf a k hp
  case step act emit next ih =>
    intro i s hallowed
    obtain ⟨hlegal, hnext⟩ := hp i s hallowed
    exact ⟨hlegal, ih i s hnext⟩

theorem Follows.atomic {f : ι → σ → α × σ} {emit : α → Option ε}
    (h : ∀ i s a s', f i s = (a, s') → (∀ e, emit a = some e → allows s e) →
      D.legal k s s' (emit a) ∧ post a (D.after k (emit a))) :
    (Prog.atomic f emit).Follows D allows k post :=
  fun i s hallowed => h i s _ _ rfl hallowed

end Prog

namespace Fallible

variable {err υ : Type} {D : Discipline σ ε κ} {allows : σ → ε → Prop} {view : κ → υ} {v : υ}
  {Q : α → Prop}

-- The program keeps to the discipline and comes back to a place like the one where it has begun,
-- also when it fails.
def Returns (D : Discipline σ ε κ) (allows : σ → ε → Prop) (view : κ → υ) (v : υ)
    (p : Fallible σ ι ε err α) (Q : α → Prop) : Prop :=
  ∀ k, view k = v → Prog.Follows D allows k p.run fun r k' => view k' = v ∧ ∀ a, r = .ok a → Q a

theorem Returns.pure (h : Q a) :
    Returns D allows view v (Pure.pure a : Fallible σ ι ε err α) Q := by
  intro k hk
  refine Prog.Follows.pure ⟨hk, fun a' ha' => ?_⟩
  obtain rfl := Except.ok.inj ha'
  exact h

theorem Returns.throw {e} : Returns D allows view v (throw e : Fallible σ ι ε err α) Q :=
  fun _ hk => Prog.Follows.pure ⟨hk, nofun⟩

theorem Returns.ofExcept (h : ∀ a, x = .ok a → Q a) :
    Returns D allows view v (Fallible.ofExcept x : Fallible σ ι ε err α) Q :=
  fun _ hk => Prog.Follows.pure ⟨hk, h⟩

theorem Returns.bind {f : α → Fallible σ ι ε err β} {R : β → Prop}
    (hp : Returns D allows view v p Q) (hf : ∀ a, Q a → Returns D allows view v (f a) R) :
    Returns D allows view v (p >>= f) R := by
  intro k hk
  refine Prog.Follows.bind (hp k hk) fun r k' hr => ?_
  cases r
  case ok a    => exact hf a (hr.2 a rfl) k' hr.1
  case error e => exact Prog.Follows.pure ⟨hr.1, nofun⟩

-- A check in front of the rest of the program.
theorem Returns.check {c : Prop} [Decidable c] {e} {rest : Fallible σ ι ε err α}
    (h : ¬c → Returns D allows view v rest Q) :
    Returns D allows view v
      (if c then MonadExcept.throw e >>= fun _ : PUnit => rest else rest) Q := by
  split
  case isTrue     => exact (Returns.throw (Q := fun _ => False)).bind fun _ hfalse => hfalse.elim
  case isFalse hc => exact h hc

-- The result is looked at later, whatever it is.
theorem Returns.ofProg (hp : Returns D allows view v p Q) :
    Returns D allows view v (Fallible.ofProg p.run : Fallible σ ι ε err (Except err α)) fun r =>
      ∀ a, r = .ok a → Q a := by
  intro k hk
  refine Prog.Follows.bind (hp k hk) fun r k' hr => Prog.Follows.pure ⟨hr.1, fun r' hr' => ?_⟩
  obtain rfl := Except.ok.inj hr'
  exact hr.2

theorem Returns.atomic {f : ι → σ → Except err α × σ} {emit : Except err α → Option ε}
    (h : ∀ k i s r s', view k = v → f i s = (r, s') → (∀ e, emit r = some e → allows s e) →
      D.legal k s s' (emit r) ∧ view (D.after k (emit r)) = v ∧ ∀ a, r = .ok a → Q a) :
    Returns D allows view v (Fallible.atomic f emit) Q :=
  fun k hk => Prog.Follows.atomic fun i s r s' heq hallowed => h k i s r s' hk heq hallowed

end Fallible

namespace Workload

variable {S : Workload σ ι ε τ α} {D : Discipline σ ε κ} {c : Pool σ ι ε α}

def Disciplined (S : Workload σ ι ε τ α) (D : Discipline σ ε κ) : Prop :=
  ∀ t, (S.program t).Follows D S.allows D.start fun _ _ => True

-- Each program is where its own events have brought it, and keeps to the discipline from there on.
def InPlace (S : Workload σ ι ε τ α) (D : Discipline σ ε κ) (c : Pool σ ι ε α) : Prop :=
  ∀ w (p : Prog σ ι ε α), c.procs[w]? = some (some p) →
    p.Follows D S.allows (D.place w c.history) fun _ _ => True

theorem Disciplined.step (hS : S.Disciplined D) (h : S.Step c c') (hnumbered : Numbered c)
    (hplace : S.InPlace D c) : S.InPlace D c' := by
  intro w' p hw'
  cases h
  case start t =>
    obtain hw' | ⟨rfl, rfl⟩ := proc_append hw'
    · exact hplace w' p hw'
    · rw [D.place_eq_start fun x hx => (hnumbered x hx).ne]
      exact hS t
  case run w i act emit next hproc hallowed =>
    obtain ⟨rfl, hp⟩ | ⟨hne, hw'⟩ := proc_set hw'
    · rw [D.place_advance_self, ← Option.some.inj hp]
      exact (hplace w _ hproc i c.state hallowed).2
    · rw [D.place_advance_ne hne]
      exact hplace w' p hw'
  case crash w =>
    obtain ⟨-, ⟨⟩⟩ | ⟨-, hw'⟩ := proc_set hw'
    exact hplace w' p hw'
  case env => exact hplace w' p hw'

theorem Disciplined.run (hS : S.Disciplined D) (h : S.Run (initial s) c) :
    Numbered c ∧ S.InPlace D c := by
  induction h
  case refl => exact ⟨by simp [Numbered, initial], by simp [InPlace, initial]⟩
  case tail _ hstep ih => exact ⟨hstep.numbered ih.1, hS.step hstep ih.1 ih.2⟩

-- The rule for runs: what legal steps keep is kept.
theorem Disciplined.invariant (hS : S.Disciplined D) {inv : Shared σ ε → Prop} (hs : inv ⟨s, []⟩)
    (hstep : ∀ c w s' e, inv c → (∀ x, e = some x → S.allows c.state x) →
      D.legal (D.place w c.history) c.state s' e → inv (c.advance w s' e))
    (henv : ∀ c s', inv c → S.env c.state s' → inv ⟨s', c.history⟩)
    (h : S.Run (initial s) c) : inv c.toShared := by
  induction h
  case refl => exact hs
  case tail c₁ c₂ hrun hlast ih =>
    have hplace := (hS.run hrun).2
    cases hlast
    case start => exact ih
    case crash => exact ih
    case env henv' => exact henv _ _ ih henv'
    case run w i act emit next hproc hallowed =>
      exact hstep _ w _ _ ih hallowed (hplace w _ hproc i _ hallowed).1

end Workload

section Locks

variable {ω Λ ρ : Type} {held : List Λ} {L : ω → List Λ} {w : ω} {l : Λ}

-- Which locks are taken, and who has taken them.
structure Mutex (held : List Λ) (L : ω → List Λ) : Prop where
  held      : ∀ w, ∀ l ∈ L w, l ∈ held
  nodup     : ∀ w, (L w).Nodup
  exclusive : ∀ w w' l, l ∈ L w → l ∈ L w' → w = w'

variable [DecidableEq ω]

theorem Mutex.acquire (h : Mutex held L) (hfree : l ∉ held) :
    Mutex (l :: held) (Function.update L w (l :: L w)) := by
  have hnobody : ∀ v, l ∉ L v := fun v hv => hfree (h.held v l hv)
  refine ⟨fun v l' hl' => ?_, fun v => ?_, fun v v' l' hl' hl'' => ?_⟩
  · by_cases hv : v = w
    case pos =>
      subst hv
      rw [update_self] at hl'
      exact mem_cons.mpr ((mem_cons.mp hl').imp id (h.held v l'))
    case neg =>
      rw [update_of_ne hv] at hl'
      exact mem_cons_of_mem _ (h.held v l' hl')
  · by_cases hv : v = w
    case pos => subst hv; simpa using ⟨hnobody v, h.nodup v⟩
    case neg => simpa [hv] using h.nodup v
  · -- Nobody else has the new lock, and nothing is new about the others.
    have hold : ∀ u, l' ∈ Function.update L w (l :: L w) u → l' = l ∧ u = w ∨ l' ∈ L u := by
      intro u hu
      by_cases huw : u = w
      case pos =>
        subst huw
        rw [update_self] at hu
        exact (mem_cons.mp hu).imp (fun heq => ⟨heq, rfl⟩) id
      case neg => exact .inr (by simpa [huw] using hu)
    obtain ⟨hl, hv⟩ | hv := hold v hl' <;> obtain ⟨hl₂, hv'⟩ | hv' := hold v' hl''
    · exact hv.trans hv'.symm
    · exact absurd (hl ▸ hv') (hnobody v')
    · exact absurd (hl₂ ▸ hv) (hnobody v)
    · exact h.exclusive v v' l' hv hv'

theorem Mutex.release [DecidableEq Λ] (h : Mutex held L) (hmine : l ∈ L w) :
    Mutex (held.erase l) (Function.update L w ((L w).erase l)) := by
  have hsub : ∀ u l', l' ∈ Function.update L w ((L w).erase l) u → l' ∈ L u := by
    intro u l' hl'
    by_cases huw : u = w
    case pos =>
      subst huw
      rw [update_self] at hl'
      exact mem_of_mem_erase hl'
    case neg => simpa [huw] using hl'
  refine ⟨fun v l' hl' => ?_, fun v => ?_, fun v v' l' hl' hl'' => ?_⟩
  · refine (mem_erase_of_ne ?_).mpr (h.held v l' (hsub v l' hl'))
    rintro rfl
    obtain rfl := h.exclusive v w l' (hsub v l' hl') hmine
    rw [update_self] at hl'
    exact absurd hl' (h.nodup v).not_mem_erase
  · by_cases hv : v = w
    case pos => subst hv; simpa using (h.nodup v).erase l
    case neg => simpa [hv] using h.nodup v
  · exact h.exclusive v v' l' (hsub v l' hl') (hsub v' l' hl'')

-- Whoever waits for a lock has only taken locks of a lower rank: then nobody waits for themselves.
omit [DecidableEq ω] in
theorem acyclic_of_rank [Preorder ρ] {waits holds : ω → Λ → Prop} {rank : Λ → ρ}
    (h : ∀ w l l', waits w l → holds w l' → rank l' < rank l) (w : ω) :
    ¬Relation.TransGen (fun w w' => ∃ l, waits w l ∧ holds w' l) w w := by
  have hchain : ∀ w', Relation.TransGen (fun w w' => ∃ l, waits w l ∧ holds w' l) w w' →
      ∃ l l', waits w l ∧ holds w' l' ∧ rank l ≤ rank l' := by
    intro w' hw'
    induction hw'
    case single w₁ hfirst =>
      obtain ⟨l, hwaits, hholds⟩ := hfirst
      exact ⟨l, l, hwaits, hholds, le_rfl⟩
    case tail w₁ w₂ _ hlast ih =>
      obtain ⟨l, l₁, hwaits, hholds, hle⟩ := ih
      obtain ⟨l₂, hwaits₂, hholds₂⟩ := hlast
      exact ⟨l, l₂, hwaits, hholds₂, hle.trans (h w₁ l₂ l₁ hwaits₂ hholds).le⟩
  intro hcycle
  obtain ⟨l, l', hwaits, hholds, hle⟩ := hchain w hcycle
  exact absurd hle (h w l l' hwaits hholds).not_ge

end Locks

end Interleaving
