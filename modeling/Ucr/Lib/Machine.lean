import Mathlib.Algebra.Group.Int.Defs
import Mathlib.Algebra.GroupWithZero.Nat
import Mathlib.Order.Fin.Basic

-- Unsigned machine integers. Arithmetic that the programs check for overflow is partial. Signed
-- ones are integers with a bound.

abbrev U64 := Fin (2 ^ 64)
abbrev U32 := Fin (2 ^ 32)
abbrev U16 := Fin (2 ^ 16)

instance U64.neZero : NeZero (2 ^ 64 : ℕ) := ⟨by decide⟩
instance U32.neZero : NeZero (2 ^ 32 : ℕ) := ⟨by decide⟩
instance U16.neZero : NeZero (2 ^ 16 : ℕ) := ⟨by decide⟩

def maxI64 : ℤ := 2 ^ 63 - 1

-- Where the bound matters it is part of the type.
abbrev I64 := { n : ℤ // -2 ^ 63 ≤ n ∧ n ≤ maxI64 }

def I64.saturatingSub (n m : ℤ) : ℤ :=
  max (-2 ^ 63) (min maxI64 (n - m))

namespace U64

variable {n m : U64}

def checkedSucc (n : U64) : Option U64 :=
  if h : n.val + 1 < 2 ^ 64 then some ⟨n.val + 1, h⟩ else none

def saturatingSucc (n : U64) : U64 :=
  n.checkedSucc.getD n

def checkedAdd (n m : U64) : Option U64 :=
  if h : n.val + m.val < 2 ^ 64 then some ⟨n.val + m.val, h⟩ else none

def saturatingAdd (n m : U64) : U64 :=
  (n.checkedAdd m).getD (Fin.last _)

theorem checkedSucc_eq_some : n.checkedSucc = some m ↔ m.val = n.val + 1 := by
  unfold checkedSucc
  split
  case isTrue h  => simp [Fin.ext_iff, eq_comm]
  case isFalse h => simp; omega

theorem checkedAdd_eq_some : n.checkedAdd m = some k ↔ k.val = n.val + m.val := by
  unfold checkedAdd
  split
  case isTrue h  => simp [Fin.ext_iff, eq_comm]
  case isFalse h => simp; omega

theorem exists_checkedSucc : (∃ m, n.checkedSucc = some m) ↔ n < Fin.last _ := by
  unfold checkedSucc
  split
  case isTrue h  => simpa [Fin.lt_def] using by omega
  case isFalse h => simpa [Fin.le_def] using by omega

theorem lt_of_checkedSucc (h : n.checkedSucc = some m) : n < m := by
  rw [checkedSucc_eq_some] at h
  exact Fin.lt_def.mpr (by omega)

theorem checkedSucc_ne_zero (h : n.checkedSucc = some m) : m ≠ 0 := by
  rw [checkedSucc_eq_some] at h
  rintro rfl
  simp at h

end U64

namespace U32

variable {n m : U32}

def checkedSucc (n : U32) : Option U32 :=
  if h : n.val + 1 < 2 ^ 32 then some ⟨n.val + 1, h⟩ else none

theorem checkedSucc_eq_some : n.checkedSucc = some m ↔ m.val = n.val + 1 := by
  unfold checkedSucc
  split
  case isTrue h  => simp [Fin.ext_iff, eq_comm]
  case isFalse h => simp; omega

end U32

namespace U16

variable {n : U16}

def saturatingSucc (n : U16) : U16 :=
  if h : n.val + 1 < 2 ^ 16 then ⟨n.val + 1, h⟩ else n

theorem val_saturatingSucc (h : n.val + 1 < 2 ^ 16) : n.saturatingSucc.val = n.val + 1 := by
  rw [saturatingSucc, dif_pos h]

end U16
