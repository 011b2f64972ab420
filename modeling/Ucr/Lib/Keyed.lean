import Mathlib.Data.List.Nodup

-- Lists of records that are told apart by a key: finding, changing and adding the record of a key.

namespace List

variable {α κ : Type} [DecidableEq κ] {key : α → κ} {k : κ} {f : α → α} {l : List α} {a : α}

def findKey (key : α → κ) (k : κ) (l : List α) : Option α :=
  l.find? (key · = k)

-- Changes the first record of the key and leaves every other one alone.
def updateKey (key : α → κ) (k : κ) (f : α → α) : List α → List α
  | [] => []
  | hd :: tl => if key hd = k then f hd :: tl else hd :: updateKey key k f tl

theorem findKey_mem (h : l.findKey key k = some a) : a ∈ l :=
  mem_of_find?_eq_some h

theorem findKey_key (h : l.findKey key k = some a) : key a = k := by
  simpa using find?_some h

theorem findKey_eq_none : l.findKey key k = none ↔ ∀ a ∈ l, key a ≠ k := by
  simp [findKey, find?_eq_none]

-- If only one record can pass, it is the one that is found.
theorem find?_eq_some_of_unique {p : α → Bool}
    (hunique : ∀ a ∈ l, ∀ b ∈ l, p a → p b → a = b) : l.find? p = some a ↔ a ∈ l ∧ p a := by
  refine ⟨fun h => ⟨mem_of_find?_eq_some h, find?_some h⟩, fun ⟨ha, hp⟩ => ?_⟩
  obtain ⟨b, hb⟩ := Option.isSome_iff_exists.mp (find?_isSome.mpr ⟨a, ha, hp⟩)
  rw [hb, hunique b (mem_of_find?_eq_some hb) a ha (find?_some hb) hp]

theorem findKey_eq_some (hn : (l.map key).Nodup) :
    l.findKey key k = some a ↔ a ∈ l ∧ key a = k := by
  refine (find?_eq_some_of_unique fun a ha b hb hka hkb => ?_).trans (by simp)
  exact inj_on_of_nodup_map hn ha hb ((of_decide_eq_true hka).trans (of_decide_eq_true hkb).symm)

-- With distinct keys, changing the first record of a key changes the only one.
theorem updateKey_eq_map (hn : (l.map key).Nodup) :
    l.updateKey key k f = l.map fun a => if key a = k then f a else a := by
  induction l
  case nil => rfl
  case cons hd tl ih =>
    rw [map_cons, nodup_cons] at hn
    rw [updateKey, map_cons]
    split
    case isFalse => rw [ih hn.2]
    case isTrue h =>
      have hne : ∀ a ∈ tl, (if key a = k then f a else a) = a :=
        fun a ha => if_neg fun hk => hn.1 (mem_map.mpr ⟨a, ha, hk.trans h.symm⟩)
      rw [map_congr_left hne, map_id']

-- Whatever the change leaves alone stays where it is.
theorem map_updateKey {β : Type} {g : α → β} (hf : ∀ a, g (f a) = g a) :
    (l.updateKey key k f).map g = l.map g := by
  fun_induction updateKey key k f l <;> simp_all

theorem map_updateKey_congr {β : Type} {f' : α → α} {g : α → β} (h : ∀ a, g (f a) = g (f' a)) :
    (l.updateKey key k f).map g = (l.updateKey key k f').map g := by
  induction l
  case nil => rfl
  case cons hd tl ih =>
    simp only [updateKey]
    split <;> simp [h, ih]

theorem mem_updateKey (hn : (l.map key).Nodup) :
    b ∈ l.updateKey key k f ↔ (∃ a ∈ l, key a = k ∧ f a = b) ∨ (b ∈ l ∧ key b ≠ k) := by
  rw [updateKey_eq_map hn, mem_map]
  constructor
  · rintro ⟨a, ha, rfl⟩
    split
    case isTrue h  => exact .inl ⟨a, ha, h, rfl⟩
    case isFalse h => exact .inr ⟨ha, h⟩
  · rintro (⟨a, ha, hk, rfl⟩ | ⟨hb, hk⟩)
    · exact ⟨a, ha, if_pos hk⟩
    · exact ⟨b, hb, if_neg hk⟩

end List

-- A list in which no two records have the same key. What it holds is known from the record of each
-- key.
structure Roster {α κ : Type} (key : α → κ) where
  toList   : List α
  distinct : (toList.map key).Nodup

namespace Roster

open List

variable {α κ : Type} [DecidableEq κ] {key : α → κ} {k : κ} {f : α → α} {p : α → Bool} {a : α}
  {r : Roster key}

instance : Membership α (Roster key) := ⟨fun r a => a ∈ r.toList⟩

def empty : Roster key := ⟨[], .nil⟩

def find (r : Roster key) (k : κ) : Option α :=
  r.toList.findKey key k

def length (r : Roster key) : ℕ :=
  r.toList.length

def update (r : Roster key) (k : κ) (f : α → α) (hf : ∀ a, key (f a) = key a) : Roster key :=
  ⟨r.toList.updateKey key k f, by rw [map_updateKey hf]; exact r.distinct⟩

def retain (r : Roster key) (p : α → Bool) : Roster key :=
  ⟨r.toList.filter p, r.distinct.sublist (filter_sublist.map key)⟩

-- Only a record whose key is not there yet is added.
def push (r : Roster key) (a : α) : Roster key :=
  if h : r.find (key a) = none then
    ⟨r.toList ++ [a], by
      rw [find, findKey_eq_none] at h
      rw [map_append, nodup_append]
      refine ⟨r.distinct, nodup_singleton _, ?_⟩
      rintro _ hm _ hs rfl
      obtain ⟨b, hb, hk⟩ := mem_map.mp hm
      exact h b hb (hk.trans (mem_singleton.mp hs))⟩
  else r

theorem find_eq_some : r.find k = some a ↔ a ∈ r ∧ key a = k :=
  findKey_eq_some r.distinct

theorem find_key (h : r.find k = some a) : key a = k :=
  (find_eq_some.mp h).2

theorem find_update :
    (r.update k f hf).find k' = if k' = k then (r.find k).map f else r.find k' := by
  ext b
  rw [find_eq_some]
  change b ∈ r.toList.updateKey key k f ∧ key b = k' ↔ _
  rw [mem_updateKey r.distinct]
  split
  case isTrue heq =>
    subst heq
    rw [Option.map_eq_some_iff]
    constructor
    · rintro ⟨⟨a, ha, hk, rfl⟩ | ⟨_, hne⟩, hb⟩
      · exact ⟨a, find_eq_some.mpr ⟨ha, hk⟩, rfl⟩
      · exact absurd hb hne
    · rintro ⟨a, ha, rfl⟩
      obtain ⟨hm, hk⟩ := find_eq_some.mp ha
      exact ⟨.inl ⟨a, hm, hk, rfl⟩, (hf a).trans hk⟩
  case isFalse hne =>
    rw [find_eq_some]
    constructor
    · rintro ⟨⟨a, _, hk, rfl⟩ | ⟨hm, _⟩, hb⟩
      · exact absurd (hb.symm.trans ((hf a).trans hk)) hne
      · exact ⟨hm, hb⟩
    · rintro ⟨hm, hb⟩
      exact ⟨.inr ⟨hm, fun hk => hne (hb.symm.trans hk)⟩, hb⟩

theorem find_retain : (r.retain p).find k = (r.find k).filter p := by
  ext b
  rw [find_eq_some, Option.filter_eq_some_iff, find_eq_some]
  change b ∈ r.toList.filter p ∧ _ ↔ _
  rw [mem_filter]
  exact and_right_comm

theorem find_push (h : r.find (key a) = none) :
    (r.push a).find k = if k = key a then some a else r.find k := by
  ext b
  simp only [find_eq_some, push, h, dite_true]
  change b ∈ r.toList ++ [a] ∧ _ ↔ _
  rw [mem_append, mem_singleton]
  split
  case isTrue heq =>
    subst heq
    rw [find, findKey_eq_none] at h
    constructor
    · rintro ⟨hm | rfl, hk⟩
      · exact absurd hk (h b hm)
      · rfl
    · rintro ⟨⟩
      exact ⟨.inr rfl, rfl⟩
  case isFalse hne =>
    rw [find_eq_some]
    constructor
    · rintro ⟨hm | rfl, hk⟩
      · exact ⟨hm, hk⟩
      · exact absurd hk.symm hne
    · rintro ⟨hm, hk⟩
      exact ⟨.inl hm, hk⟩

end Roster
