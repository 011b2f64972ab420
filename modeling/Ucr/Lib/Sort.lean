import Mathlib.Data.List.Sort

-- Lists in a canonical order: stable sorting by a key, and the adjacent-pair test that finds two
-- entries of the same identity once the list is sorted.

namespace List

variable {α β κ : Type} [LinearOrder κ] {key : α → κ} {l l₁ l₂ : List α}

def sortOn (key : α → κ) (l : List α) : List α :=
  l.insertionSort (key · ≤ key ·)

-- Puts an entry in its place in a sorted list that is not to get longer than the limit: if it is as
-- long already, the last entry makes room. The place is where searching the list by halves ends.
def insertLowest (key : α → κ) (limit : ℕ) (l : List α) (a : α) : List α :=
  let position := l.findIdx (key a ≤ key ·)
  if position < limit then
    (if l.length = limit then l.dropLast else l).insertIdx position a
  else l

-- Whether some two neighbours of the list are related.
def anyAdjacent (r : α → α → Bool) : List α → Bool
  | a :: b :: tl => r a b || anyAdjacent r (b :: tl)
  | _ => false

def SortedOn (key : α → κ) (l : List α) : Prop :=
  l.Pairwise (key · ≤ key ·)

theorem sortOn_perm : (l.sortOn key).Perm l :=
  perm_insertionSort _ l

@[simp]
theorem mem_sortOn : a ∈ l.sortOn key ↔ a ∈ l :=
  sortOn_perm.mem_iff

@[simp]
theorem length_sortOn : (l.sortOn key).length = l.length :=
  sortOn_perm.length_eq

theorem nodup_map_sortOn (key : α → κ) {f : α → β} :
    ((l.sortOn key).map f).Nodup ↔ (l.map f).Nodup :=
  (sortOn_perm.map f).nodup_iff

private instance keyTotal : Std.Total (fun a b : α => key a ≤ key b) :=
  ⟨fun a b => le_total (key a) (key b)⟩

private instance keyTrans : IsTrans α (fun a b => key a ≤ key b) :=
  ⟨fun _ _ _ => le_trans⟩

theorem sortedOn_sortOn : (l.sortOn key).SortedOn key :=
  pairwise_insertionSort _ l

theorem sortOn_map {f : β → α} {l : List β} :
    (l.map f).sortOn key = (l.sortOn (key <| f ·)).map f := by
  unfold sortOn
  exact (map_insertionSort _ _ f _ fun _ _ _ _ => Iff.rfl).symm

theorem sortOn_of_sortedOn (h : l.SortedOn key) : l.sortOn key = l :=
  h.insertionSort_eq

@[simp]
theorem sortOn_sortOn : (l.sortOn key).sortOn key = l.sortOn key :=
  sortOn_of_sortedOn sortedOn_sortOn

theorem SortedOn.filter {p : α → Bool} (h : l.SortedOn key) : (l.filter p).SortedOn key :=
  Pairwise.filter p h

theorem SortedOn.map {f : α → α} (h : l.SortedOn key) (hf : ∀ a, key (f a) = key a) :
    (l.map f).SortedOn key := by
  simpa [SortedOn, pairwise_map, hf] using h

-- A list with pairwise distinct keys is determined by its entries once it is sorted.
theorem eq_of_sortedOn_of_perm (h₁ : l₁.SortedOn key) (h₂ : l₂.SortedOn key)
    (hn : (l₁.map key).Nodup) (hp : l₁.Perm l₂) : l₁ = l₂ := by
  refine hp.eq_of_pairwise (fun a b ha hb hab hba => ?_) h₁ h₂
  exact inj_on_of_nodup_map hn ha (hp.mem_iff.mpr hb) (le_antisymm hab hba)

theorem insertLowest_eq (h : l.length ≤ limit + 1) : l.insertLowest key (limit + 1) a =
    (l.orderedInsert (key · ≤ key ·) a).take (limit + 1) := by
  have hroom : (if l.length = limit + 1 then l.dropLast else l) = l.take limit := by
    split
    case isTrue hfull => simp [dropLast_eq_take, hfull]
    case isFalse hne  => exact (take_of_length_le (by omega)).symm
  rw [insertLowest, hroom]
  clear hroom
  induction l generalizing limit
  case nil => simp
  case cons b l ih =>
    by_cases hle : key a ≤ key b
    case pos => simp [findIdx_cons, hle]
    case neg =>
      cases limit
      case zero =>
        obtain rfl : l = [] := by simpa using h
        simp [findIdx_cons, hle]
      case succ limit =>
        have hrest := @ih limit (by simpa using h)
        simp [findIdx_cons, hle, ← hrest]
        split <;> rfl

theorem take_orderedInsert_take : ((l.take limit).orderedInsert (key · ≤ key ·) a).take limit =
    (l.orderedInsert (key · ≤ key ·) a).take limit := by
  induction l generalizing limit <;> cases limit <;> grind

-- Entry by entry, in whatever order they come, the lowest ones stay.
theorem foldl_insertLowest : l.foldl (insertLowest key (limit + 1)) [] =
    (l.reverse.sortOn key).take (limit + 1) := by
  rw [foldl_eq_foldr_reverse]
  induction l.reverse
  case nil => rfl
  case cons a l ih =>
    rw [foldr_cons, ih, insertLowest_eq (by simp), take_orderedInsert_take]
    rfl

theorem perm_of_sortOn_eq (h : l₁.sortOn key = l₂.sortOn key) : l₁.Perm l₂ :=
  (sortOn_perm.symm.trans (.of_eq h)).trans sortOn_perm

theorem sortOn_eq_iff (hkey : key.Injective) : l₁.sortOn key = l₂.sortOn key ↔ l₁.Perm l₂ := by
  refine ⟨perm_of_sortOn_eq, fun h => ?_⟩
  refine (sortOn_perm.trans (h.trans sortOn_perm.symm)).eq_of_pairwise ?_
    sortedOn_sortOn sortedOn_sortOn
  exact fun a b _ _ hab hba => hkey (le_antisymm hab hba)

theorem anyAdjacent_eq_false {r : α → α → Bool} :
    l.anyAdjacent r = false ↔ l.IsChain (fun a b => r a b = false) := by
  fun_induction anyAdjacent r l
  case case1 a b tl ih => simp [ih]
  case case2 l h =>
    match l with
    | [] => simp
    | [_] => simp
    | a :: b :: t => exact absurd rfl (h a b t)

-- In a list sorted by a key that distinguishes identities, equal identities are neighbours.
theorem SortedOn.anyAdjacent_eq_false [DecidableEq β] {ident : α → β} (hs : l.SortedOn key)
    (hk : ∀ a b, key a = key b ↔ ident a = ident b) :
    l.anyAdjacent (ident · = ident ·) = false ↔ (l.map ident).Nodup := by
  rw [List.anyAdjacent_eq_false, Nodup, pairwise_map]
  simp only [decide_eq_false_iff_not, ne_eq, ← hk]
  constructor
  · intro hc
    have hle : l.IsChain (key · ≤ key ·) := hs.isChain
    have hlt : l.IsChain (key · < key ·) := by
      rw [isChain_iff_getElem] at hc hle ⊢
      exact fun i hi => lt_of_le_of_ne (hle i hi) (hc i hi)
    have : IsTrans α (key · < key ·) := ⟨fun _ _ _ => lt_trans⟩
    exact hlt.pairwise.imp fun h => ne_of_lt h
  · exact fun h => Pairwise.isChain h

theorem anyAdjacent_sortOn_eq_false [DecidableEq β] {ident : α → β}
    (hk : ∀ a b, key a = key b ↔ ident a = ident b) :
    (l.sortOn key).anyAdjacent (ident · = ident ·) = false ↔ (l.map ident).Nodup := by
  rw [sortedOn_sortOn.anyAdjacent_eq_false hk, nodup_map_sortOn]

end List
