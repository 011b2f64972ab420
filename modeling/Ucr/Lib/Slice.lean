import Mathlib.Data.List.Basic

-- Segments of a growing list, given by the positions they lie between.

namespace List

variable {α : Type} {l : List α} {a b c : ℕ}

def between (l : List α) (a b : ℕ) : List α :=
  (l.take b).drop a

@[simp]
theorem between_self : l.between a a = [] := by
  simp [between]

theorem between_eq_take_drop : l.between a b = (l.drop a).take (b - a) :=
  drop_take

theorem between_trans (hab : a ≤ b) (hbc : b ≤ c) :
    l.between a b ++ l.between b c = l.between a c := by
  have hsum : c - a = (b - a) + (c - b) := by omega
  have hstart : a + (b - a) = b := by omega
  rw [between_eq_take_drop, between_eq_take_drop, between_eq_take_drop, hsum, take_add, drop_drop,
    hstart]

theorem between_of_prefix (h : l <+: l') (hb : b ≤ l.length) : l'.between a b = l.between a b := by
  obtain ⟨tail, rfl⟩ := h
  rw [between, take_append_of_le_length hb, between]

theorem between_length : l.between a l.length = l.drop a := by
  simp [between]

-- The first part of what lies behind a position.
theorem between_of_drop (h : l.drop a = left ++ right) : l.between a (a + left.length) = left := by
  rw [between_eq_take_drop, h]
  simp

theorem between_of_between (h : l.between a b = left ++ right) :
    l.between a (a + left.length) = left := by
  rw [between_eq_take_drop] at h
  have hdrop : l.drop a = left ++ (right ++ (l.drop a).drop (b - a)) := by
    rw [← append_assoc, ← h, take_append_drop]
  exact between_of_drop hdrop

theorem between_append (before middle after : List α) :
    (before ++ middle ++ after).between before.length (before.length + middle.length) = middle := by
  have h : (before ++ middle ++ after).drop before.length = middle ++ after := by simp
  exact between_of_drop h

-- What stands before and after an element, when another one has been added.
theorem split_concat {before after x y} (heq : l ++ [x] = before ++ y :: after) :
    (∃ rest, after = rest ++ [x] ∧ l = before ++ y :: rest) ∨ after = [] ∧ x = y ∧ l = before := by
  obtain rfl | ⟨rest, z, rfl⟩ := eq_nil_or_concat' after
  · obtain ⟨rfl, hxy⟩ := append_inj' heq rfl
    exact .inr ⟨rfl, head_eq_of_cons_eq hxy, rfl⟩
  · rw [← cons_append, ← append_assoc] at heq
    obtain ⟨rfl, hxz⟩ := append_inj' heq rfl
    obtain rfl := head_eq_of_cons_eq hxz
    exact .inl ⟨rest, rfl, rfl⟩

end List
