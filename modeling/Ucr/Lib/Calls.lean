import Ucr.Lib.Prog

-- Programs that call the outside world, as trees: a node is a call, and it has a branch for every
-- answer. What is called stays visible, so that a run leaves a record of who was asked what and
-- what was answered. Such a tree is also a program that takes one step for each call, interleaved
-- with others.

namespace Calling

open Interleaving

inductive Calls (Call : Type) (Answer : Call → Type) (α : Type)
  | done (a : α)
  | call (c : Call) (next : Answer c → Calls Call Answer α)

structure Exchange {Call : Type} (Answer : Call → Type) where
  call   : Call
  answer : Answer call

-- The outside world remembers everything that was said to it, and need not say the same thing
-- twice.
abbrev World {Call : Type} (Answer : Call → Type) :=
  List (Exchange Answer) → (c : Call) → Answer c

variable {Call : Type} {Answer : Call → Type} {α β σ ι ε : Type}

namespace Calls

def bind (p : Calls Call Answer α) (f : α → Calls Call Answer β) : Calls Call Answer β :=
  match p with
  | done a      => f a
  | call c next => call c fun answer => (next answer).bind f

instance : Monad (Calls Call Answer) where
  pure := done
  bind := bind

def ask (c : Call) : Calls Call Answer (Answer c) :=
  call c done

def run (world : World Answer) (past : List (Exchange Answer)) :
    Calls Call Answer α → List (Exchange Answer) × α
  | done a      => ([], a)
  | call c next =>
    let said := ⟨c, world past c⟩
    let rest := run world (past ++ [said]) (next (world past c))
    (said :: rest.1, rest.2)

-- Some calls leave an event.
def perform (answer : ι → (c : Call) → Answer c) (emit : Call → Option ε) :
    Calls Call Answer α → Prog σ ι ε α
  | done a      => .done a
  | call c next =>
    (Prog.atomic (fun i s => (answer i c, s)) fun _ => emit c).bind fun said =>
      (next said).perform answer emit

end Calls

-- The records that are possible at all, whatever is answered.
inductive Records : Calls Call Answer α → List (Exchange Answer) → α → Prop
  | done (a : α) : Records (.done a) [] a
  | call {c} {next : Answer c → Calls Call Answer α} {answer record a}
      (h : Records (next answer) record a) :
      Records (.call c next) (⟨c, answer⟩ :: record) a

namespace Records

theorem run (world : World Answer) (past : List (Exchange Answer)) (p : Calls Call Answer α) :
    Records p (p.run world past).1 (p.run world past).2 := by
  induction p generalizing past
  case done a => exact .done a
  case call c next ih => exact .call (ih _ _)

@[simp]
theorem pure_iff : Records (pure a : Calls Call Answer α) record b ↔ record = [] ∧ b = a := by
  constructor
  · rintro ⟨⟩
    exact ⟨rfl, rfl⟩
  · rintro ⟨rfl, rfl⟩
    exact .done b

theorem ask_bind_iff {f : Answer c → Calls Call Answer α} :
    Records (Calls.ask c >>= f) record a ↔
      ∃ answer after, Records (f answer) after a ∧ record = ⟨c, answer⟩ :: after := by
  constructor
  · rintro (_ | h)
    exact ⟨_, _, h, rfl⟩
  · rintro ⟨answer, after, h, rfl⟩
    exact .call h

@[simp]
theorem bind_iff {f : α → Calls Call Answer β} {b} :
    Records (p >>= f) record b ↔
      ∃ a before after, Records p before a ∧ Records (f a) after b ∧ record = before ++ after := by
  constructor
  · intro h
    induction p generalizing record
    case done a => exact ⟨a, [], record, .done a, h, rfl⟩
    case call c next ih =>
      cases h
      case call answer record h =>
        obtain ⟨a, before, after, hbefore, hafter, rfl⟩ := ih _ h
        exact ⟨a, _ :: before, after, .call hbefore, hafter, rfl⟩
  · rintro ⟨a, before, after, hbefore, hafter, rfl⟩
    induction hbefore
    case done      => exact hafter
    case call h ih => exact .call (ih hafter)

end Records

-- The rule for calls with a budget of events. Each event spends one, and it is enough to know what
-- the budget left allows.
theorem Calls.perform_triple {inv : Shared σ ε → Prop} {allows : σ → ε → Prop} {w budget : ℕ}
    {P : ℕ → History ε → Prop} {answer : ι → (c : Call) → Answer c} {emit : Call → Option ε}
    {p : Calls Call Answer α} (hstable : ∀ n, Stable w (P n)) (hleft : ∀ n h, P n h → P 0 h)
    (hspend : ∀ n < budget, ∀ c e s h, emit c = some e → inv ⟨s, h⟩ → P (n + 1) h →
      inv ⟨s, h ++ [(w, e)]⟩ ∧ P n (h ++ [(w, e)]))
    (hp : ∀ record a, Records p record a → (record.filterMap (emit ·.call)).length ≤ budget) :
    Prog.Triple inv allows w (P budget) (p.perform answer emit) fun _ => P 0 := by
  induction p generalizing budget
  case done a => exact .pure (hleft budget)
  case call c next ih =>
    cases hemit : emit c
    case none =>
      refine .bind (Q := fun _ => P budget) (.atomic (hstable _) fun ⟨s, h⟩ i a s' hinv hP heq _ => ?_)
        fun said => ih said hspend fun record a h => by simpa [hemit] using hp _ _ (.call h)
      obtain ⟨-, rfl⟩ := Prod.mk.inj heq
      simpa [hemit] using ⟨hinv, hP⟩
    case some e =>
      refine .bind (Q := fun _ => P (budget - 1))
        (.atomic (hstable _) fun ⟨s, h⟩ i a s' hinv hP heq _ => ?_) fun said =>
        ih said (fun n hn => hspend n (by omega)) fun record a h => ?_
      · obtain ⟨-, rfl⟩ := Prod.mk.inj heq
        -- There is a record with this event in it, so something is left to spend.
        have hsome := hp _ _ (Records.run (fun _ => answer i) [] _)
        simp only [Calls.run, List.filterMap_cons, hemit, List.length_cons] at hsome
        obtain ⟨n, rfl⟩ : ∃ n, budget = n + 1 := ⟨budget - 1, by omega⟩
        simpa [hemit] using hspend n (by omega) c e s h hemit hinv hP
      · have := hp _ _ (.call h)
        simp only [List.filterMap_cons, hemit, List.length_cons] at this
        omega

end Calling
