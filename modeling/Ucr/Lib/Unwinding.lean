import Ucr.Lib.Transaction
import Mathlib.Data.List.Basic

-- Machines with several users. What a user gets to see does not depend on the others when it can be
-- unwound: two states that look the same to the user still do after a step of someone else, and
-- after the same step of the user.

namespace Unwinding

variable {σ ι ο : Type} {step : σ → ι → ο × σ} {mine : ι → Bool} {allowed : ι → Prop}
  {alike : σ → σ → Prop} {s t : σ} {inputs : List ι}

def outputs (step : σ → ι → ο × σ) (mine : ι → Bool) : σ → List ι → List ο
  | _, [] => []
  | s, input :: inputs =>
    let next := step s input
    if mine input then next.1 :: outputs step mine next.2 inputs
    else outputs step mine next.2 inputs

structure Unwinds (step : σ → ι → ο × σ) (mine : ι → Bool) (allowed : ι → Prop)
    (alike : σ → σ → Prop) : Prop where
  others : ∀ {s t input}, alike s t → allowed input → mine input = false → alike (step s input).2 t
  own    : ∀ {s t input}, alike s t → allowed input → mine input →
    (step s input).1 = (step t input).1 ∧ alike (step s input).2 (step t input).2

-- The user sees what they would see alone.
theorem Unwinds.outputs_filter (h : Unwinds step mine allowed alike) (hs : alike s t)
    (hinputs : ∀ input ∈ inputs, allowed input) :
    outputs step mine s inputs = outputs step mine t (inputs.filter mine) := by
  induction inputs generalizing s t
  case nil => rfl
  case cons input inputs ih =>
    simp only [List.forall_mem_cons] at hinputs
    by_cases hmine : mine input
    case pos =>
      obtain ⟨hsame, hnext⟩ := h.own hs hinputs.1 hmine
      rw [List.filter_cons_of_pos hmine]
      simp [outputs, hmine, hsame, ih hnext hinputs.2]
    case neg =>
      rw [List.filter_cons_of_neg hmine]
      simp only [Bool.not_eq_true] at hmine
      simp [outputs, hmine, ih (h.others hs hinputs.1 hmine) hinputs.2]

theorem Unwinds.outputs_eq (h : Unwinds step mine allowed alike) (hs : alike s s)
    (hinputs : ∀ input ∈ inputs, allowed input) (hinputs' : ∀ input ∈ inputs', allowed input)
    (hsame : inputs.filter mine = inputs'.filter mine) :
    outputs step mine s inputs = outputs step mine s inputs' := by
  rw [h.outputs_filter hs hinputs, h.outputs_filter hs hinputs', hsame]

-- Two updates that fail alike, or have the same result and leave states that are alike.
inductive Paired {ε α : Type} (alike : σ → σ → Prop) :
    Except ε (α × σ) → Except ε (α × σ) → Prop
  | error (e : ε) : Paired alike (.error e) (.error e)
  | ok (a : α) {s t : σ} (h : alike s t) : Paired alike (.ok (a, s)) (.ok (a, t))

namespace Paired

variable {ε α β : Type} {f g : β → Except ε (α × σ)}

-- What both updates ask first gets the same answer.
theorem bind (h : ∀ b, m = .ok b → Paired alike (f b) (g b)) :
    Paired alike (m >>= f) (m >>= g) := by
  cases m
  case error e => exact .error e
  case ok b    => exact h b rfl

theorem commit (h : Paired alike x y) (hs : alike s t) :
    (x.commit s).1 = (y.commit t).1 ∧ alike (x.commit s).2 (y.commit t).2 := by
  cases h
  case error e => exact ⟨rfl, hs⟩
  case ok a h  => exact ⟨rfl, h⟩

end Paired

end Unwinding
