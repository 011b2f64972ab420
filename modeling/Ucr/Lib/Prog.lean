import Mathlib.Data.List.Basic
import Mathlib.Order.ConditionallyCompleteLattice.Basic

-- Programs that work on one shared state, step by step and interleaved with each other. A step
-- reads an answer of the outside world, updates the state and may leave an event in a common
-- history, where it is marked with the program it comes from. What a program knows for certain is
-- what it has read off the history: others can add to it, but not in its name. The rules for pre-
-- and postconditions below are about such knowledge, and an invariant ties it to the state.

namespace Interleaving

open List

inductive Prog (σ ι ε α : Type)
  | done (a : α)
  | step (act : ι → σ → σ) (emit : ι → σ → Option ε) (next : ι → σ → Prog σ ι ε α)

variable {σ ι ε α β : Type}

namespace Prog

def bind (p : Prog σ ι ε α) (f : α → Prog σ ι ε β) : Prog σ ι ε β :=
  match p with
  | done a => f a
  | step act emit next => step act emit fun i s => (next i s).bind f

instance : Monad (Prog σ ι ε) where
  pure := done
  bind := bind

-- A single step with a result, which also decides about the event.
def atomic (f : ι → σ → α × σ) (emit : α → Option ε) : Prog σ ι ε α :=
  step (fun i s => (f i s).2) (fun i s => emit (f i s).1) fun i s => done (f i s).1

-- A question to the outside world.
def ask (f : ι → α) : Prog σ ι ε α :=
  atomic (fun i s => (f i, s)) fun _ => none

end Prog

abbrev History (ε : Type) := List (ℕ × ε)

structure Shared (σ ε : Type) where
  state   : σ
  history : History ε

def Shared.advance (c : Shared σ ε) (w : ℕ) (s : σ) (e : Option ε) : Shared σ ε :=
  ⟨s, c.history ++ e.toList.map (Prod.mk w)⟩

variable {c : Shared σ ε} {w : ℕ}

@[simp]
theorem Shared.advance_none : c.advance w s none = ⟨s, c.history⟩ := by
  simp [Shared.advance]

@[simp]
theorem Shared.advance_some : c.advance w s (some e) = ⟨s, c.history ++ [(w, e)]⟩ :=
  rfl

-- The programs of a pool are numbered in the order in which they are started. A crashed program
-- leaves its place empty.
structure Pool (σ ι ε α : Type) extends Shared σ ε where
  procs : List (Option (Prog σ ι ε α))

-- Which programs can be started, what else can happen to the state, and which events are allowed to
-- happen in which state.
structure Workload (σ ι ε τ α : Type) where
  program : τ → Prog σ ι ε α
  env     : σ → σ → Prop
  allows  : σ → ε → Prop

namespace Workload

variable {τ : Type} (S : Workload σ ι ε τ α)

inductive Step : Pool σ ι ε α → Pool σ ι ε α → Prop
  | start (c : Pool σ ι ε α) (t : τ) : Step c ⟨c.toShared, c.procs ++ [some (S.program t)]⟩
  | run (c : Pool σ ι ε α) (w : ℕ) (i : ι) {act : ι → σ → σ} {emit : ι → σ → Option ε}
      {next : ι → σ → Prog σ ι ε α} (proc : c.procs[w]? = some (some (.step act emit next)))
      (allowed : ∀ e, emit i c.state = some e → S.allows c.state e) :
      Step c ⟨c.toShared.advance w (act i c.state) (emit i c.state),
        c.procs.set w (some (next i c.state))⟩
  | crash (c : Pool σ ι ε α) (w : ℕ) : Step c ⟨c.toShared, c.procs.set w none⟩
  | env (c : Pool σ ι ε α) {s : σ} (h : S.env c.state s) : Step c ⟨⟨s, c.history⟩, c.procs⟩

abbrev Run := Relation.ReflTransGen S.Step

def initial (s : σ) : Pool σ ι ε α :=
  ⟨⟨s, []⟩, []⟩

end Workload

-- What can have happened between two steps of a program.
structure Elapsed (inv : Shared σ ε → Prop) (w : ℕ) (c c' : Shared σ ε) : Prop where
  grows : ∃ others, c'.history = c.history ++ others ∧ ∀ x ∈ others, x.1 ≠ w
  inv   : inv c'

theorem Elapsed.refl {inv : Shared σ ε → Prop} (h : inv c) :
    Elapsed inv w c c :=
  ⟨⟨[], by simp⟩, h⟩

theorem Elapsed.trans {inv : Shared σ ε → Prop} (h₁ : Elapsed inv w c₁ c₂)
    (h₂ : Elapsed inv w c₂ c₃) : Elapsed inv w c₁ c₃ := by
  obtain ⟨⟨others₁, heq₁, hothers₁⟩, -⟩ := h₁
  obtain ⟨⟨others₂, heq₂, hothers₂⟩, hinv⟩ := h₂
  refine ⟨⟨others₁ ++ others₂, by rw [heq₂, heq₁, append_assoc], fun x hx => ?_⟩, hinv⟩
  exact (mem_append.mp hx).elim (hothers₁ x) (hothers₂ x)

-- Knowledge of the program with number `w` that the others cannot take away.
def Stable (w : ℕ) (P : History ε → Prop) : Prop :=
  ∀ h others, (∀ x ∈ others, x.1 ≠ w) → P h → P (h ++ others)

-- Knowledge that nobody can take away.
class Persistent (P : History ε → Prop) : Prop where
  append : ∀ h more, P h → P (h ++ more)

-- All events of the program so far are of one kind.
def Only (w : ℕ) (kind : ε → Prop) (h : History ε) : Prop :=
  ∀ e, (w, e) ∈ h → kind e

def Seen (e : ε) (h : History ε) : Prop :=
  ∃ w, (w, e) ∈ h

section Knowledge

variable {w : ℕ} {P Q : History ε → Prop} {kind : ε → Prop} {h : History ε} {e : ε}

theorem Stable.and (hP : Stable w P) (hQ : Stable w Q) : Stable w (P ⊓ Q) :=
  fun h others hothers hPQ => ⟨hP h others hothers hPQ.1, hQ h others hothers hPQ.2⟩

theorem Persistent.stable [Persistent P] : Stable w P :=
  fun h others _ => Persistent.append h others

theorem stable_only : Stable w (Only w kind) := by
  intro h others hothers honly e he
  obtain he | he := mem_append.mp he
  · exact honly e he
  · exact absurd rfl (hothers _ he)

instance [Persistent P] [Persistent Q] : Persistent (P ⊓ Q) :=
  ⟨fun h more hPQ => ⟨Persistent.append h more hPQ.1, Persistent.append h more hPQ.2⟩⟩

instance : Persistent (⊤ : History ε → Prop) :=
  ⟨fun _ _ h => h⟩

instance (x : ℕ × ε) : Persistent fun h : History ε => x ∈ h :=
  ⟨fun _ _ h => mem_append_left _ h⟩

instance (e : ε) : Persistent (Seen e) :=
  ⟨fun _ _ ⟨w, h⟩ => ⟨w, mem_append_left _ h⟩⟩

theorem Only.append (honly : Only w kind h) (he : kind e) : Only w kind (h ++ [(w, e)]) := by
  intro e' he'
  obtain he' | he' := mem_append.mp he'
  · exact honly e' he'
  · obtain rfl : e' = e := by simpa using he'
    exact he

end Knowledge

variable {p : Prog σ ι ε α} {post' : α → History ε → Prop} {Q : α → History ε → Prop}
  {pre' : History ε → Prop} {P : History ε → Prop} {a : α}

namespace Prog

variable {inv : Shared σ ε → Prop} {allows : σ → ε → Prop} {w : ℕ} {c c' : Shared σ ε}
  {post : α → History ε → Prop}

-- From `c` on, every step of the program keeps the invariant whatever the others do in between, and
-- when the program ends its result and the history at that moment meet the postcondition.
def Meets (inv : Shared σ ε → Prop) (allows : σ → ε → Prop) (w : ℕ) :
    Prog σ ι ε α → (α → History ε → Prop) → Shared σ ε → Prop
  | done a, post, c => post a c.history
  | step act emit next, post, c =>
    ∀ c', Elapsed inv w c c' → ∀ i, (∀ e, emit i c'.state = some e → allows c'.state e) →
      inv (c'.advance w (act i c'.state) (emit i c'.state)) ∧
      Meets inv allows w (next i c'.state) post
        (c'.advance w (act i c'.state) (emit i c'.state))

theorem Meets.mono (hpost : ∀ a h, post a h → post' a h) (h : Meets inv allows w p post c) :
    Meets inv allows w p post' c := by
  induction p generalizing c
  case done a => exact hpost a _ h
  case step act emit next ih =>
    intro c' helapsed i hallowed
    obtain ⟨hinv, hnext⟩ := h c' helapsed i hallowed
    exact ⟨hinv, ih i c'.state hnext⟩

variable {f : α → Prog σ ι ε β}

theorem Meets.bind {post : β → History ε → Prop} (h : Meets inv allows w p Q c) (hc : inv c)
    (hf : ∀ a c, inv c → Q a c.history → Meets inv allows w (f a) post c) :
    Meets inv allows w (p >>= f) post c := by
  induction p generalizing c
  case done a => exact hf a c hc h
  case step act emit next ih =>
    intro c' helapsed i hallowed
    obtain ⟨hinv, hnext⟩ := h c' helapsed i hallowed
    exact ⟨hinv, ih i c'.state hnext hinv⟩

-- What nobody can take away is still known at the end.
theorem Meets.frame [hP : Persistent P] (h : Meets inv allows w p post c) (hc : P c.history) :
    Meets inv allows w p (fun a => post a ⊓ P) c := by
  induction p generalizing c
  case done a => exact ⟨h, hc⟩
  case step act emit next ih =>
    intro c' helapsed i hallowed
    obtain ⟨hinv, hnext⟩ := h c' helapsed i hallowed
    obtain ⟨⟨others, heq, -⟩, -⟩ := helapsed
    have hknown : P c'.history := heq ▸ hP.append _ _ hc
    exact ⟨hinv, ih i c'.state hnext (hP.append _ _ hknown)⟩

-- Others cannot spoil a program that is on its way.
theorem Meets.elapsed (h : Meets inv allows w p (fun _ _ => True) c)
    (helapsed : Elapsed inv w c c') : Meets inv allows w p (fun _ _ => True) c' := by
  cases p
  case done => trivial
  case step act emit next => exact fun c'' h' => h c'' (helapsed.trans h')

-- The program turns one kind of knowledge into another.
def Triple (inv : Shared σ ε → Prop) (allows : σ → ε → Prop) (w : ℕ) (pre : History ε → Prop)
    (p : Prog σ ι ε α) (post : α → History ε → Prop) : Prop :=
  ∀ c, inv c → pre c.history → Meets inv allows w p post c

variable {pre : History ε → Prop}

theorem Triple.pure (h : ∀ h, pre h → post a h) :
    Triple inv allows w pre (Pure.pure a : Prog σ ι ε α) post :=
  fun c _ hpre => h c.history hpre

theorem Triple.bind {post : β → History ε → Prop} (hp : Triple inv allows w pre p Q)
    (hf : ∀ a, Triple inv allows w (Q a) (f a) post) :
    Triple inv allows w pre (p >>= f) post :=
  fun c hc hpre => (hp c hc hpre).bind hc fun a c hc hmid => hf a c hc hmid

theorem Triple.consequence (h : Triple inv allows w pre p post)
    (hpre : ∀ h, pre' h → pre h) (hpost : ∀ a h, post a h → post' a h) :
    Triple inv allows w pre' p post' :=
  fun c hc hc' => (h c hc (hpre _ hc')).mono hpost

theorem Triple.frame [Persistent P] (h : Triple inv allows w pre p post) :
    Triple inv allows w (pre ⊓ P) p fun a => post a ⊓ P :=
  fun c hc hpre => (h c hc hpre.1).frame hpre.2

variable {emit : α → Option ε}

-- The rule for a single step: it has to be right in every state the invariant allows.
theorem Triple.atomic {f : ι → σ → α × σ} (hpre : Stable w pre)
    (h : ∀ c i a s, inv c → pre c.history → f i c.state = (a, s) →
      (∀ e, emit a = some e → allows c.state e) →
      inv (c.advance w s (emit a)) ∧ post a (c.advance w s (emit a)).history) :
    Triple inv allows w pre (Prog.atomic f emit) post := by
  intro c hc hpre' c' helapsed i hallowed
  obtain ⟨⟨others, heq, hothers⟩, hinv⟩ := helapsed
  have hknown : pre c'.history := heq ▸ hpre _ _ hothers hpre'
  exact h c' i _ _ hinv hknown rfl hallowed

theorem Triple.ask {f : ι → α} (hpre : Stable w pre) :
    Triple inv allows w pre (Prog.ask f) fun _ => pre := by
  refine .atomic hpre fun c i a s hinv hpre' heq _ => ?_
  obtain ⟨-, rfl⟩ := Prod.mk.inj heq
  simpa [Shared.advance] using ⟨hinv, hpre'⟩

-- The program keeps the invariant, and lets everybody know what they knew.
def Keeps (inv : Shared σ ε → Prop) (allows : σ → ε → Prop) (p : Prog σ ι ε α) : Prop :=
  ∀ w (P : History ε → Prop), Persistent P → Triple inv allows w P p fun _ => P

theorem Keeps.pure : Keeps inv allows (Pure.pure a : Prog σ ι ε α) :=
  fun _ _ _ => .pure fun _ h => h

theorem Keeps.bind (hp : Keeps inv allows p)
    (hf : ∀ a, Keeps inv allows (f a)) : Keeps inv allows (p >>= f) :=
  fun w P hP => (hp w P hP).bind fun a => hf a w P hP

theorem Keeps.atomic {f : ι → σ → α × σ}
    (h : ∀ w c i, inv c → (∀ e, emit (f i c.state).1 = some e → allows c.state e) →
      inv (c.advance w (f i c.state).2 (emit (f i c.state).1))) :
    Keeps inv allows (Prog.atomic f emit) := by
  intro w P hP
  refine .atomic hP.stable fun c i a s hinv hpre heq hallowed => ?_
  obtain ⟨rfl, rfl⟩ := Prod.mk.inj heq
  exact ⟨h w c i hinv hallowed, hP.append _ _ hpre⟩

end Prog

-- Programs that can fail. Nothing is promised about a failure.
abbrev Fallible (σ ι ε err α : Type) := ExceptT err (Prog σ ι ε) α

namespace Fallible

variable {err : Type} {inv : Shared σ ε → Prop} {allows : σ → ε → Prop} {w : ℕ}
  {pre : History ε → Prop} {post : α → History ε → Prop}

def atomic (f : ι → σ → Except err α × σ) (emit : Except err α → Option ε) :
    Fallible σ ι ε err α :=
  .mk (Prog.atomic f emit)

def ask (f : ι → α) : Fallible σ ι ε err α :=
  .mk (Prog.ask fun i => .ok (f i))

def ofExcept (x : Except err α) : Fallible σ ι ε err α :=
  .mk (pure x)

def ofProg (p : Prog σ ι ε α) : Fallible σ ι ε err α :=
  .mk (p >>= fun a => pure (.ok a))

def Succeeds (post : α → History ε → Prop) : Except err α → History ε → Prop
  | .ok a, h    => post a h
  | .error _, _ => True

instance [hpost : ∀ a, Persistent (post a)] (r : Except err α) : Persistent (Succeeds post r) where
  append h more hr := by
    cases r
    case ok a  => exact (hpost a).append h more hr
    case error => trivial

def Triple (inv : Shared σ ε → Prop) (allows : σ → ε → Prop) (w : ℕ) (pre : History ε → Prop)
    (p : Fallible σ ι ε err α) (post : α → History ε → Prop) : Prop :=
  Prog.Triple inv allows w pre p.run (Succeeds post)

theorem Triple.pure (h : ∀ h, pre h → post a h) :
    Triple inv allows w pre (Pure.pure a : Fallible σ ι ε err α) post :=
  Prog.Triple.pure h

theorem Triple.throw {e} : Triple inv allows w pre (throw e : Fallible σ ι ε err α) post :=
  Prog.Triple.pure fun _ _ => trivial

theorem Triple.ofExcept (h : ∀ a h, x = .ok a → pre h → post a h) :
    Triple inv allows w pre (Fallible.ofExcept x : Fallible σ ι ε err α) post := by
  refine Prog.Triple.pure fun history hpre => ?_
  cases x
  case ok a => exact h a history rfl hpre
  case error => trivial

theorem Triple.bind {f : α → Fallible σ ι ε err β} {post : β → History ε → Prop}
    (hp : Triple inv allows w pre q Q)
    (hf : ∀ a, Triple inv allows w (Q a) (f a) post) :
    Triple inv allows w pre (q >>= f) post := by
  refine Prog.Triple.bind hp fun r => ?_
  cases r
  case ok a => exact hf a
  case error => exact Prog.Triple.pure fun _ _ => trivial

theorem Triple.consequence (h : Triple inv allows w pre q post)
    (hpre : ∀ h, pre' h → pre h) (hpost : ∀ a h, post a h → post' a h) :
    Triple inv allows w pre' q post' := by
  refine Prog.Triple.consequence h hpre fun r history hr => ?_
  cases r
  case ok a => exact hpost a history hr
  case error => trivial

theorem Triple.weaken
    (h : Triple inv allows w pre q post) (hpost : ∀ a h, post a h → post' a h) :
    Triple inv allows w pre q post' :=
  h.consequence (fun _ h => h) hpost

theorem Triple.strengthen
    (h : Triple inv allows w pre q post) (hpre : ∀ h, pre' h → pre h) :
    Triple inv allows w pre' q post :=
  h.consequence hpre fun _ _ h => h

theorem Triple.frame [Persistent P]
    (h : Triple inv allows w pre q post) :
    Triple inv allows w (pre ⊓ P) q fun a => post a ⊓ P := by
  refine (Prog.Triple.frame h).consequence (fun _ h => h) fun r history hr => ?_
  cases r
  case ok    => exact hr
  case error => trivial

-- A part of the precondition that is not about the history.
theorem Triple.given {P : Prop}
    (h : P → Triple inv allows w pre q post) : Triple inv allows w (fun h => P ∧ pre h) q post :=
  fun c hc hpre => h hpre.1 c hc hpre.2

theorem Triple.atomic {f : ι → σ → Except err α × σ} {emit : Except err α → Option ε}
    (hpre : Stable w pre)
    (h : ∀ c i r s, inv c → pre c.history → f i c.state = (r, s) →
      (∀ e, emit r = some e → allows c.state e) →
      inv (c.advance w s (emit r)) ∧ Succeeds post r (c.advance w s (emit r)).history) :
    Triple inv allows w pre (Fallible.atomic f emit) post :=
  Prog.Triple.atomic hpre h

theorem Triple.ask {f : ι → α} (hpre : Stable w pre) :
    Triple inv allows w pre (Fallible.ask f : Fallible σ ι ε err α) fun _ => pre :=
  Prog.Triple.ask hpre

theorem Triple.ofProg (h : Prog.Triple inv allows w pre p post) :
    Triple inv allows w pre (Fallible.ofProg p : Fallible σ ι ε err α) post :=
  Prog.Triple.bind h fun _ => Prog.Triple.pure fun _ h => h

def Keeps (inv : Shared σ ε → Prop) (allows : σ → ε → Prop) (p : Fallible σ ι ε err α) : Prop :=
  Prog.Keeps inv allows p.run

theorem Keeps.pure : Keeps inv allows (Pure.pure a : Fallible σ ι ε err α) :=
  Prog.Keeps.pure

theorem Keeps.throw {e} : Keeps inv allows (throw e : Fallible σ ι ε err α) :=
  Prog.Keeps.pure

theorem Keeps.bind {f : α → Fallible σ ι ε err β}
    (hp : Keeps inv allows q) (hf : ∀ a, Keeps inv allows (f a)) : Keeps inv allows (q >>= f) := by
  refine Prog.Keeps.bind hp fun r => ?_
  cases r
  case ok a    => exact hf a
  case error   => exact Prog.Keeps.pure

theorem Keeps.atomic {f : ι → σ → Except err α × σ} {emit : Except err α → Option ε}
    (h : ∀ w c i, inv c → (∀ e, emit (f i c.state).1 = some e → allows c.state e) →
      inv (c.advance w (f i c.state).2 (emit (f i c.state).1))) :
    Keeps inv allows (Fallible.atomic f emit) :=
  Prog.Keeps.atomic h

theorem Keeps.ofProg (h : Prog.Keeps inv allows p) :
    Keeps inv allows (Fallible.ofProg p : Fallible σ ι ε err α) :=
  Prog.Keeps.bind h fun _ => Prog.Keeps.pure

theorem Keeps.ofExcept : Keeps inv allows (Fallible.ofExcept x : Fallible σ ι ε err α) :=
  Prog.Keeps.pure

-- In the middle of a program that knows more.
theorem Keeps.triple [hpre : Persistent pre] (h : Keeps inv allows q) :
    Triple inv allows w pre q fun _ => pre := by
  refine (h w pre hpre).consequence (fun _ h => h) fun r history hr => ?_
  cases r
  case ok    => exact hr
  case error => trivial

end Fallible

namespace Workload

variable {τ : Type} {S : Workload σ ι ε τ α} {inv : Shared σ ε → Prop} {c c' : Pool σ ι ε α}

-- No program has left an event yet that has not been started.
def Numbered (c : Pool σ ι ε α) : Prop :=
  ∀ x ∈ c.history, x.1 < c.procs.length

def OnTrack (S : Workload σ ι ε τ α) (inv : Shared σ ε → Prop) (c : Pool σ ι ε α) : Prop :=
  ∀ w (p : Prog σ ι ε α), c.procs[w]? = some (some p) →
    p.Meets inv S.allows w (fun _ _ => True) c.toShared

-- What has to be shown once: programs start knowing only that they have done nothing.
structure Sound (S : Workload σ ι ε τ α) (inv : Shared σ ε → Prop) : Prop where
  program : ∀ t w, Prog.Triple inv S.allows w (Only w fun _ => False) (S.program t) fun _ _ => True
  env     : ∀ c s, inv c → S.env c.state s → inv ⟨s, c.history⟩

section Procs

variable {procs : List (Option (Prog σ ι ε α))} {w : ℕ}

theorem proc_append {q} (h : (procs ++ [some q])[w]? = some (some p)) :
    procs[w]? = some (some p) ∨ w = procs.length ∧ q = p := by
  grind

theorem proc_set {q} (h : (procs.set w q)[w']? = some (some p)) :
    w = w' ∧ q = some p ∨ w ≠ w' ∧ procs[w']? = some (some p) := by
  grind

end Procs

theorem Step.numbered (h : S.Step c c') (hnumbered : Numbered c) : Numbered c' := by
  intro x hx
  cases h
  case start t => simpa using Nat.lt_succ_of_lt (hnumbered x hx)
  case run w i act emit next hproc hallowed =>
    rw [length_set]
    obtain hx | hx := mem_append.mp hx
    · exact hnumbered x hx
    · obtain ⟨e, -, rfl⟩ := mem_map.mp hx
      exact (List.getElem?_eq_some_iff.mp hproc).1
  case crash w => simpa using hnumbered x hx
  case env => exact hnumbered x hx

theorem Sound.step (hS : S.Sound inv) (h : S.Step c c') (hinv : inv c.toShared)
    (hnumbered : Numbered c) (hprocs : S.OnTrack inv c) : inv c'.toShared ∧ S.OnTrack inv c' := by
  cases h
  case start t =>
    refine ⟨hinv, fun w p hw => ?_⟩
    obtain hw | ⟨rfl, rfl⟩ := proc_append hw
    · exact hprocs w p hw
    · refine hS.program t _ c.toShared hinv fun e he => ?_
      exact absurd (hnumbered _ he) (lt_irrefl _)
  case run w i act emit next hproc hallowed =>
    obtain ⟨hinv', hnext⟩ := hprocs w _ hproc c.toShared (.refl hinv) i hallowed
    refine ⟨hinv', fun w' p hw' => ?_⟩
    obtain ⟨rfl, hp⟩ | ⟨hne, hw'⟩ := proc_set hw'
    · exact Option.some.inj hp ▸ hnext
    · refine (hprocs w' p hw').elapsed ⟨⟨_, rfl, fun x hx => ?_⟩, hinv'⟩
      obtain ⟨e, -, rfl⟩ := mem_map.mp hx
      exact hne
  case crash w =>
    refine ⟨hinv, fun w' p hw' => ?_⟩
    obtain ⟨-, ⟨⟩⟩ | ⟨-, hw'⟩ := proc_set hw'
    exact hprocs w' p hw'
  case env s henv =>
    have hinv' := hS.env _ s hinv henv
    exact ⟨hinv', fun w p hw => (hprocs w p hw).elapsed ⟨⟨[], by simp⟩, hinv'⟩⟩

theorem Sound.run (hS : S.Sound inv) (hs : inv ⟨s, []⟩) (h : S.Run (initial s) c) :
    inv c.toShared := by
  suffices inv c.toShared ∧ Numbered c ∧ S.OnTrack inv c from this.1
  induction h
  case refl => exact ⟨hs, by simp [Numbered, initial], by simp [OnTrack, initial]⟩
  case tail _ hstep ih =>
    obtain ⟨hinv, hprocs⟩ := hS.step hstep ih.1 ih.2.1 ih.2.2
    exact ⟨hinv, hstep.numbered ih.2.1, hprocs⟩

section Schedules

-- Runs that are computed from a schedule.
inductive Move (ι τ : Type)
  | start (t : τ)
  | run (w : ℕ) (i : ι)
  | crash (w : ℕ)

variable (S)

def play (c : Pool σ ι ε α) : Move ι τ → Pool σ ι ε α
  | .start t => ⟨c.toShared, c.procs ++ [some (S.program t)]⟩
  | .run w i =>
    match c.procs[w]? with
    | some (some (.step act emit next)) =>
      ⟨c.toShared.advance w (act i c.state) (emit i c.state), c.procs.set w (some (next i c.state))⟩
    | _ => c
  | .crash w => ⟨c.toShared, c.procs.set w none⟩

def playAll (c : Pool σ ι ε α) (moves : List (Move ι τ)) : Pool σ ι ε α :=
  moves.foldl S.play c

def emitted? (c : Pool σ ι ε α) : Move ι τ → Option ε
  | .run w i =>
    match c.procs[w]? with
    | some (some (.step _ emit _)) => emit i c.state
    | _ => none
  | _ => none

def AllowsAll : Pool σ ι ε α → List (Move ι τ) → Prop
  | _, [] => True
  | c, move :: moves =>
    (∀ e ∈ emitted? c move, S.allows c.state e) ∧ AllowsAll (S.play c move) moves

instance decidableAllowsAll [∀ s e, Decidable (S.allows s e)] :
    (c : Pool σ ι ε α) → (moves : List (Move ι τ)) → Decidable (S.AllowsAll c moves)
  | _, [] => .isTrue trivial
  | c, move :: moves =>
    have := decidableAllowsAll (S.play c move) moves
    inferInstanceAs (Decidable (_ ∧ _))

variable {S}

theorem run_play (h : ∀ e ∈ emitted? c move, S.allows c.state e) : S.Run c (S.play c move) := by
  cases move
  case start t => exact .single (.start c t)
  case crash w => exact .single (.crash c w)
  case run w i =>
    dsimp only [emitted?] at h
    dsimp only [play]
    split
    case h_1 act emit next hproc =>
      rw [hproc] at h
      exact .single (.run c w i hproc h)
    case h_2 => exact .refl

theorem AllowsAll.of_forall (h : ∀ s e, S.allows s e) : S.AllowsAll c moves := by
  induction moves generalizing c
  case nil => trivial
  case cons move moves ih => exact ⟨fun e _ => h _ e, ih⟩

theorem AllowsAll.run (h : S.AllowsAll c moves) : S.Run c (S.playAll c moves) := by
  induction moves generalizing c
  case nil => exact .refl
  case cons move moves ih => exact (run_play h.1).trans (ih h.2)

end Schedules

end Workload

end Interleaving
