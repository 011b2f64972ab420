import Mathlib.Data.List.Basic
import Mathlib.Data.Nat.Init

-- The states of a run by their number.

namespace Stages

variable {σ ι : Type} (step : σ → ι → σ) (init : σ) (ops : List ι)

def stage (n : ℕ) : σ :=
  (ops.take n).foldl step init

variable {step init ops}

theorem stage_succ : stage step init ops (n + 1) = stage step init ops n ∨
    ∃ op, ops[n]? = some op ∧ stage step init ops (n + 1) = step (stage step init ops n) op := by
  simp only [stage, List.take_add_one]
  cases ops[n]?
  case none => exact .inl (by simp)
  case some op => exact .inr ⟨op, rfl, by simp⟩

theorem stage_keeps {P : σ → Prop} (hij : i ≤ j) (h : P (stage step init ops i))
    (hstep : ∀ n op, i ≤ n → ops[n]? = some op → P (stage step init ops n) →
      P (step (stage step init ops n) op)) :
    P (stage step init ops j) := by
  induction j, hij using Nat.le_induction
  case base => exact h
  case succ n hin ih =>
    obtain heq | ⟨op, hop, heq⟩ := stage_succ
    case inl => rwa [heq]
    case inr => exact heq ▸ hstep n op hin hop ih

end Stages
