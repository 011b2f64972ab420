import Mathlib.Order.Lattice
import Mathlib.Data.List.Pairwise
import Mathlib.Algebra.Group.Nat.Defs

-- A meter remembers how much was used in one window of time. When it is asked about a later window
-- it starts over, and it may also forget its window altogether.

namespace Metering

open List

variable {ω : Type} [LinearOrder ω]

structure Reading (ω : Type) where
  window : ω
  used   : ℕ

-- What was used in a window, of everything that was ever admitted.
def total (w : ω) : List (ω × ℕ) → ℕ
  | [] => 0
  | (v, n) :: h => (if v = w then n else 0) + total w h

-- A meter with this limit can have admitted these charges and show this reading. It may have been
-- in use before, and after it has forgotten its window it is only asked about later ones.
inductive Run (limit : ℕ) : List (ω × ℕ) → Option (Reading ω) → Prop
  | nil {reading} : Run limit [] reading
  | first {h w n} : Run limit h none → (∀ c ∈ h, c.1 < w) → n ≤ limit →
      Run limit (h ++ [(w, n)]) (some ⟨w, n⟩)
  | later {h r w n} : Run limit h (some r) → r.window < w → n ≤ limit →
      Run limit (h ++ [(w, n)]) (some ⟨w, n⟩)
  | same {h r n} : Run limit h (some r) → r.used + n ≤ limit →
      Run limit (h ++ [(r.window, n)]) (some ⟨r.window, r.used + n⟩)
  | forget {h r} : Run limit h (some r) → Run limit h none

variable {limit : ℕ} {h : List (ω × ℕ)} {w : ω}

theorem total_append : total w (h ++ h') = total w h + total w h' := by
  induction h
  case nil => simp [total]
  case cons hd tl ih => simp [total, ih, Nat.add_assoc]

theorem total_eq_zero (hne : ∀ c ∈ h, c.1 ≠ w) : total w h = 0 := by
  induction h
  case nil => rfl
  case cons hd tl ih =>
    rw [total, if_neg (hne hd (mem_cons_self ..)),
      ih fun c hc => hne c (mem_cons_of_mem _ hc)]

theorem total_concat : total w (h ++ [(v, n)]) = total w h + if v = w then n else 0 := by
  simp [total_append, total]

namespace Run

-- A window that is later than everything so far starts at nothing.
theorem fresh_within (hw : ∀ c ∈ h, c.1 < w) (hn : n ≤ limit) (ih : ∀ v, total v h ≤ limit) (v : ω) :
    total v (h ++ [(w, n)]) ≤ limit := by
  rw [total_concat]
  split
  case isTrue heq =>
    subst heq
    rw [total_eq_zero fun c hc => (hw c hc).ne, Nat.zero_add]
    exact hn
  case isFalse => exact ih v

theorem latest (run : Run limit h (some r)) : ∀ c ∈ h, c.1 ≤ r.window := by
  generalize hr : some r = reading at run
  induction run generalizing r
  case nil => exact fun _ hc => absurd hc not_mem_nil
  case forget => cases hr
  case first hlt _ _ =>
    cases hr
    exact forall_mem_append.mpr ⟨fun c hc => (hlt c hc).le, by simp⟩
  case later hlt _ ih =>
    cases hr
    exact forall_mem_append.mpr ⟨fun c hc => (ih rfl c hc).trans hlt.le, by simp⟩
  case same ih =>
    cases hr
    exact forall_mem_append.mpr ⟨fun c hc => ih rfl c hc, by simp⟩

theorem total_latest (run : Run limit h (some r)) : total r.window h ≤ r.used := by
  generalize hr : some r = reading at run
  induction run generalizing r
  case nil => exact Nat.zero_le _
  case forget => cases hr
  case first hlt _ _ =>
    cases hr
    refine Nat.le_of_eq ?_
    rw [total_concat, if_pos rfl, total_eq_zero fun c hc => (hlt c hc).ne, Nat.zero_add]
  case later run hlt _ _ =>
    cases hr
    refine Nat.le_of_eq ?_
    rw [total_concat, if_pos rfl,
      total_eq_zero fun c hc => ((run.latest c hc).trans_lt hlt).ne, Nat.zero_add]
  case same ih =>
    cases hr
    rw [total_concat, if_pos rfl]
    exact Nat.add_le_add_right (ih rfl) _

theorem within (run : Run limit h reading) (w : ω) : total w h ≤ limit := by
  induction run generalizing w
  case nil => exact Nat.zero_le _
  case forget ih => exact ih w
  case first hlt hn ih => exact fresh_within hlt hn ih w
  case later run hlt hn ih =>
    exact fresh_within (fun c hc => (run.latest c hc).trans_lt hlt) hn ih w
  case same run hn ih =>
    rw [total_concat]
    split
    case isTrue heq =>
      subst heq
      exact Nat.le_trans (Nat.add_le_add_right run.total_latest _) hn
    case isFalse => exact ih w

theorem ordered (run : Run limit h reading) : h.Pairwise (·.1 ≤ ·.1) := by
  induction run
  case nil => exact .nil
  case forget ih => exact ih
  all_goals
    refine pairwise_append.mpr ⟨by assumption, pairwise_singleton .., fun c hc d hd => ?_⟩
    cases mem_singleton.mp hd
  case first hlt _ _     => exact (hlt c hc).le
  case later run hlt _ _ => exact ((run.latest c hc).trans_lt hlt).le
  case same run _ _      => exact run.latest c hc

end Run

end Metering
