import Ucr.Lib.Except
import Mathlib.Data.Finset.Card
import Mathlib.Data.List.AList
import Mathlib.Data.List.ReduceOption

-- A finite map that can be evaluated: lookups, updates, removals and a walk over all values.
abbrev Table (κ ν : Type) := AList (fun _ : κ => ν)

namespace Table

open List Option

variable {κ ν : Type} [DecidableEq κ] {t : Table κ ν} {k k' : κ} {v v' : ν}

def get (t : Table κ ν) (k : κ) : Option ν :=
  t.lookup k

def values (t : Table κ ν) : List ν :=
  t.entries.map (·.snd)

def mapEntries (t : Table κ ν) (f : κ → ν → ν) : Table κ ν where
  entries   := t.entries.map fun e => ⟨e.fst, f e.fst e.snd⟩
  nodupKeys := by simpa [List.NodupKeys, List.keys, Function.comp_def] using t.nodupKeys

-- A key that is present keeps its place, so that writing a value back undoes an update exactly.
def put (t : Table κ ν) (k : κ) (v : ν) : Table κ ν :=
  if (t.get k).isSome then
    t.mapEntries fun k' w => if k' = k then v else w
  else
    t.insert k v

def retain (t : Table κ ν) (p : ν → Bool) : Table κ ν where
  entries  := t.entries.filter (p ·.snd)
  nodupKeys := t.nodupKeys.sublist filter_sublist

def putAll (t : Table κ ν) (updates : List (κ × ν)) : Table κ ν :=
  updates.foldl (fun t update => t.put update.1 update.2) t

-- Computes the replacements of all values first and writes them back only if none has failed.
def rewriteM {ε : Type} (t : Table κ ν) (f : ν → Except ε (Option ν)) : Except ε (Table κ ν) := do
  let updates ← t.entries.mapM fun e => do return (← f e.snd).map (Prod.mk e.fst)
  return t.putAll updates.reduceOption

theorem mem_entries_iff : ⟨k, v⟩ ∈ t.entries ↔ t.get k = some v :=
  AList.mem_lookup_iff.symm

theorem notMem_of_get (h : t.get k = none) : k ∉ t :=
  AList.lookup_eq_none.mp h

@[simp]
theorem get_empty : (∅ : Table κ ν).get k = none :=
  AList.lookup_empty k

@[simp]
theorem get_mapEntries {f : κ → ν → ν} : (t.mapEntries f).get k = (t.get k).map (f k) := by
  ext w
  simp only [← mem_entries_iff, mapEntries, List.mem_map, map_eq_some_iff, Sigma.mk.injEq,
    heq_eq_eq]
  constructor
  · rintro ⟨⟨_, v⟩, hv, rfl, rfl⟩
    exact ⟨v, hv, rfl⟩
  · rintro ⟨v, hv, rfl⟩
    exact ⟨⟨k, v⟩, hv, rfl, rfl⟩

theorem get_put : (t.put k' v).get k = if k = k' then some v else t.get k := by
  unfold put
  split
  case isTrue h =>
    rw [get_mapEntries]
    obtain ⟨w, hw⟩ := isSome_iff_exists.mp h
    split
    case isTrue heq => simp [heq, hw]
    case isFalse    => simp
  case isFalse h =>
    split
    case isTrue heq => exact heq ▸ AList.lookup_insert t
    case isFalse hne => exact AList.lookup_insert_ne hne

@[simp]
theorem get_put_self : (t.put k v).get k = some v := by
  simp [get_put]

@[simp]
theorem get_put_ne (h : k ≠ k') : (t.put k' v).get k = t.get k := by
  simp [get_put, h]

-- Writing under a free key changes no record.
theorem get_put_of_free (hfree : t.get k' = none) (h : t.get k = some w) :
    (t.put k' v).get k = some w := by
  have hne : k ≠ k' := fun heq => by simp [heq ▸ h] at hfree
  rw [get_put_ne hne, h]

-- What holds of every record still does after one more is written.
theorem forall_put {P : κ → ν → Prop} (h : ∀ k v, t.get k = some v → P k v) (hv : P k v) :
    ∀ k' v', (t.put k v).get k' = some v' → P k' v' := by
  intro k' v' hget
  rw [get_put] at hget
  split at hget
  case isTrue heq => exact heq ▸ Option.some.inj hget ▸ hv
  case isFalse    => exact h k' v' hget

theorem get_erase : Table.get (t.erase k') k = if k = k' then none else t.get k := by
  split
  case isTrue heq => exact heq ▸ AList.lookup_erase k t
  case isFalse hne => exact AList.lookup_erase_ne hne

theorem mapEntries_eq_self {f : κ → ν → ν} (h : ∀ k v, t.get k = some v → f k v = v) :
    t.mapEntries f = t := by
  apply AList.ext
  refine (map_congr_left fun e he => ?_).trans (List.map_id _)
  rw [h e.fst e.snd (mem_entries_iff.mp he)]
  rfl

omit [DecidableEq κ] in
theorem mapEntries_mapEntries {f g : κ → ν → ν} :
    (t.mapEntries f).mapEntries g = t.mapEntries fun k v => g k (f k v) := by
  apply AList.ext
  simp [mapEntries]

theorem put_eq_self (h : t.get k = some v) : t.put k v = t := by
  rw [put, h, isSome_some, if_pos rfl]
  refine mapEntries_eq_self fun k' w hw => ?_
  split
  case isTrue heq => exact mem_unique h (heq ▸ hw)
  case isFalse    => rfl

theorem put_put_of_get (h : t.get k = some v) : (t.put k v').put k v = t := by
  simp only [put, get_mapEntries, h, isSome_some, isSome_map, if_true,
    mapEntries_mapEntries]
  refine mapEntries_eq_self fun k' w hw => ?_
  split
  case isTrue heq => exact mem_unique h (heq ▸ hw)
  case isFalse    => rfl

theorem erase_put (h : t.get k = none) : (t.put k v).erase k = t := by
  rw [put, h, isSome_none, if_neg (by simp), AList.insert_of_notMem (notMem_of_get h)]
  exact AList.ext (kerase_cons_eq rfl)

theorem erase_of_get (h : t.get k = none) : t.erase k = t :=
  AList.ext (kerase_of_notMem_keys (notMem_of_get h))

theorem mem_values : v ∈ t.values ↔ ∃ k, t.get k = some v := by
  simp only [values, List.mem_map, ← mem_entries_iff]
  constructor
  · rintro ⟨⟨k, _⟩, h, rfl⟩
    exact ⟨k, h⟩
  · rintro ⟨k, h⟩
    exact ⟨⟨k, v⟩, h, rfl⟩

omit [DecidableEq κ] in
theorem nodup_values {keyOf : ν → κ} (h : ∀ e ∈ t.entries, keyOf e.snd = e.fst) :
    (t.values.map keyOf).Nodup := by
  have hkeys : t.values.map keyOf = t.entries.keys := by
    rw [values, List.map_map]
    exact map_congr_left h
  exact hkeys ▸ t.nodupKeys

theorem get_mem_values (h : t.get k = some v) : v ∈ t.values :=
  mem_values.mpr ⟨k, h⟩

-- Looking up an entry that says itself what its key is.
theorem get_iff_mem_values {key : ν → κ} (hkey : ∀ k v, t.get k = some v → key v = k) :
    t.get k = some v ↔ v ∈ t.values ∧ key v = k := by
  refine ⟨fun h => ⟨get_mem_values h, hkey k v h⟩, ?_⟩
  rintro ⟨hmem, rfl⟩
  obtain ⟨k, h⟩ := mem_values.mp hmem
  exact (hkey k v h).symm ▸ h

variable {p : ν → Bool}

theorem get_retain : (t.retain p).get k = some v ↔ t.get k = some v ∧ p v := by
  simp [← mem_entries_iff, retain, mem_filter]

theorem get_retain_none (h : t.get k = none) : (t.retain p).get k = none := by
  apply eq_none_iff_forall_ne_some.mpr
  intro v hv
  simp [get_retain, h] at hv

section PutAll

variable {updates : List (κ × ν)}

theorem get_putAll_of_notMem (h : k ∉ updates.map Prod.fst) :
    (t.putAll updates).get k = t.get k := by
  induction updates generalizing t
  case nil => rfl
  case cons update rest ih =>
    simp only [map_cons, mem_cons, not_or] at h
    exact (ih h.2).trans (get_put_ne h.1)

theorem get_putAll_of_mem (hn : (updates.map Prod.fst).Nodup) (h : (k, v) ∈ updates) :
    (t.putAll updates).get k = some v := by
  induction updates generalizing t
  case nil => simp at h
  case cons update rest ih =>
    simp only [map_cons, nodup_cons] at hn
    obtain rfl | h := mem_cons.mp h
    · exact (get_putAll_of_notMem hn.1).trans get_put_self
    · exact ih hn.2 h

end PutAll

variable {l : List (Σ _ : κ, ν)}

section RewriteM

variable {ε : Type} {f : ν → Except ε (Option ν)}

omit [DecidableEq κ] in
private theorem mapM_updates {updates}
    (h : (l.mapM fun e => do return (← f e.snd).map (Prod.mk e.fst)) = Except.ok updates) :
    List.Sublist (updates.reduceOption.map Prod.fst) (l.map Sigma.fst) ∧
      (∀ k v, ⟨k, v⟩ ∈ l → ∃ r, f v = .ok r ∧ ∀ w, r = some w → (k, w) ∈ updates.reduceOption) ∧
      ∀ k w, (k, w) ∈ updates.reduceOption → ∃ v, ⟨k, v⟩ ∈ l ∧ f v = .ok (some w) := by
  induction l generalizing updates
  case nil =>
    simp only [mapM_nil, Except.ok_iff] at h
    subst h
    simp
  case cons e rest ih =>
    simp only [mapM_cons, Except.ok_iff] at h
    obtain ⟨_, ⟨r, hr, rfl⟩, rest', hrest, rfl⟩ := h
    obtain ⟨hsub, hto, hfrom⟩ := ih hrest
    cases r
    case none =>
      simp only [map_none, reduceOption_cons_of_none, map_cons]
      refine ⟨hsub.cons _, fun k v hkv => ?_, fun k w hw => ?_⟩
      · obtain rfl | hkv := mem_cons.mp hkv
        · exact ⟨none, hr, by simp⟩
        · exact hto k v hkv
      · obtain ⟨v, hv, hf⟩ := hfrom k w hw
        exact ⟨v, mem_cons_of_mem _ hv, hf⟩
    case some u =>
      simp only [map_some, reduceOption_cons_of_some, map_cons]
      refine ⟨hsub.cons_cons _, fun k v hkv => ?_, fun k w hw => ?_⟩
      · obtain rfl | hkv := mem_cons.mp hkv
        · exact ⟨some u, hr, fun w hw => Option.some.inj hw ▸ mem_cons_self⟩
        · obtain ⟨r', hr', hin⟩ := hto k v hkv
          exact ⟨r', hr', fun w hw => mem_cons_of_mem _ (hin w hw)⟩
      · obtain heq | hw := mem_cons.mp hw
        · obtain ⟨rfl, rfl⟩ := Prod.mk.inj heq
          exact ⟨e.snd, mem_cons_self, hr⟩
        · obtain ⟨v, hv, hf⟩ := hfrom k w hw
          exact ⟨v, mem_cons_of_mem _ hv, hf⟩

theorem get_rewriteM (h : t.rewriteM f = .ok t') :
    (t.get k = none → t'.get k = none) ∧
      ∀ v, t.get k = some v → ∃ r, f v = .ok r ∧ t'.get k = some (r.getD v) := by
  simp only [rewriteM, Except.ok_iff] at h
  obtain ⟨updates, hupdates, rfl⟩ := h
  obtain ⟨hsub, hto, hfrom⟩ := mapM_updates hupdates
  have hn : (updates.reduceOption.map Prod.fst).Nodup := List.Nodup.sublist hsub t.nodupKeys
  refine ⟨fun hk => ?_, fun v hv => ?_⟩
  · rw [get_putAll_of_notMem fun hin => notMem_of_get hk (hsub.subset hin), hk]
  · obtain ⟨r, hr, hin⟩ := hto k v (mem_entries_iff.mpr hv)
    refine ⟨r, hr, ?_⟩
    cases r
    case some w => exact get_putAll_of_mem hn (hin w rfl)
    case none =>
      refine (get_putAll_of_notMem fun hmem => ?_).trans hv
      obtain ⟨⟨_, w⟩, hw, rfl⟩ := List.mem_map.mp hmem
      obtain ⟨v', hv', hf⟩ := hfrom _ w hw
      obtain rfl := mem_unique hv (mem_entries_iff.mp hv')
      simp [hr] at hf

end RewriteM

section Size

omit [DecidableEq κ] in
def size (t : Table κ ν) : ℕ :=
  t.entries.length

theorem size_put : (t.put k v).size = if (t.get k).isSome then t.size else t.size + 1 := by
  unfold put
  split
  case isTrue => simp [size, mapEntries]
  case isFalse h =>
    rw [AList.insert_of_notMem (notMem_of_get (by simpa using h))]
    rfl

theorem size_erase_le : Table.size (t.erase k) ≤ t.size :=
  (kerase_sublist k t.entries).length_le

end Size

section Count

variable {p : ν → Bool}

private theorem countP_map_of_notMem (h : k ∉ l.map (·.fst)) :
    (l.map fun e => if e.fst = k then v else e.snd).countP p = (l.map (·.snd)).countP p := by
  congr 1
  refine map_congr_left fun e he => if_neg ?_
  rintro rfl
  exact h (List.mem_map_of_mem he)

private theorem countP_map_of_mem (hn : (l.map (·.fst)).Nodup)
    (h : ⟨k, v'⟩ ∈ l) :
    (l.map fun e => if e.fst = k then v else e.snd).countP p + (if p v' then 1 else 0) =
      (l.map (·.snd)).countP p + if p v then 1 else 0 := by
  induction l
  case nil => cases h
  case cons e rest ih =>
    simp only [map_cons, nodup_cons, countP_cons] at hn ⊢
    obtain rfl | h := mem_cons.mp h
    case inl =>
      rw [countP_map_of_notMem hn.1]
      simp only [if_true]
      omega
    case inr =>
      have hne : e.fst ≠ k := by
        rintro rfl
        exact hn.1 (List.mem_map.mpr ⟨_, h, rfl⟩)
      have := ih hn.2 h
      simp only [if_neg hne]
      omega

-- Writing a value counts it, instead of what it replaces.
theorem countP_put :
    (t.put k v).values.countP p + (if (t.get k).any p then 1 else 0) =
      t.values.countP p + if p v then 1 else 0 := by
  rcases hk : t.get k with _ | w
  case none =>
    rw [put, hk, if_neg (by simp), values, AList.insert_of_notMem (notMem_of_get hk)]
    exact countP_cons
  case some =>
    rw [put, hk, isSome_some, if_pos rfl]
    simpa [values, mapEntries, Function.comp_def] using
      countP_map_of_mem t.nodupKeys (mem_entries_iff.mpr hk)

-- A limit is kept if what is written did not count, or counted before, or there is room for it.
theorem countP_put_le (h : t.values.countP p ≤ n)
    (hv : p v → (t.get k).any p ∨ t.values.countP p < n) : (t.put k v).values.countP p ≤ n := by
  have hcount := @countP_put κ ν _ t k v p
  by_cases hp : p v
  case neg =>
    rw [if_neg hp] at hcount
    omega
  case pos =>
    rw [if_pos hp] at hcount
    obtain hold | hroom := hv hp
    · rw [if_pos hold] at hcount
      omega
    · omega

-- What is found under one key only is counted once.
theorem countP_le_one
    (h : ∀ k k' v v', t.get k = some v → t.get k' = some v' → p v → p v' → k = k') :
    t.values.countP p ≤ 1 := by
  have hsame : ∀ e ∈ t.entries.filter (p ·.snd), ∀ e' ∈ t.entries.filter (p ·.snd),
      e.fst = e'.fst := by
    intro e he e' he'
    obtain ⟨hmem, hp⟩ := mem_filter.mp he
    obtain ⟨hmem', hp'⟩ := mem_filter.mp he'
    exact h _ _ _ _ (mem_entries_iff.mp hmem) (mem_entries_iff.mp hmem') hp hp'
  have hn : ((t.entries.filter (p ·.snd)).map (·.fst)).Nodup :=
    t.nodupKeys.sublist filter_sublist
  rw [values, countP_map, countP_eq_length_filter]
  change (t.entries.filter (p ·.snd)).length ≤ 1
  match hl : t.entries.filter (p ·.snd) with
  | [] => simp [hl]
  | [_] => simp [hl]
  | e :: e' :: es =>
    rw [hl] at hsame hn
    have heq := hsame e (by simp) e' (by simp)
    simp [heq] at hn

end Count

section KeysOf

variable [DecidableEq ν]

def keysOf (t : Table κ ν) (v : ν) : Finset κ :=
  t.keys.toFinset.filter (t.get · = some v)

@[simp]
theorem mem_keysOf : k ∈ t.keysOf v ↔ t.get k = some v := by
  simp only [keysOf, Finset.mem_filter, List.mem_toFinset, and_iff_right_iff_imp]
  intro h
  exact mem_keys_of_mem (mem_entries_iff.mpr h)

theorem keysOf_put :
    (t.put k v).keysOf v' = if v = v' then insert k (t.keysOf v') else (t.keysOf v').erase k := by
  ext k'
  split <;> simp [get_put] <;> grind

theorem keysOf_erase : Table.keysOf (t.erase k) v = (t.keysOf v).erase k := by
  ext k'
  simp [get_erase]

-- Writing a value adds one use of it, and takes one away from what it replaces.
theorem card_keysOf_put :
    ((t.put k v).keysOf v').card + (if t.get k = some v' then 1 else 0) =
      (t.keysOf v').card + if v' = v then 1 else 0 := by
  have hmem : k ∈ t.keysOf v' ↔ t.get k = some v' := mem_keysOf
  rw [keysOf_put]
  by_cases hk : t.get k = some v' <;> by_cases hv : v = v'
  · simp [Finset.insert_eq_of_mem (hmem.mpr hk), hk, hv]
  · have hpos := Finset.card_pos.mpr ⟨k, hmem.mpr hk⟩
    rw [if_neg hv, if_neg (Ne.symm hv), if_pos hk, Finset.card_erase_of_mem (hmem.mpr hk)]
    omega
  · simp [Finset.card_insert_of_notMem (mt hmem.mp hk), hk, hv]
  · simp [hk, hv, Ne.symm hv]

theorem card_keysOf_erase :
    (Table.keysOf (t.erase k) v).card + (if t.get k = some v then 1 else 0) =
      (t.keysOf v).card := by
  have hmem : k ∈ t.keysOf v ↔ t.get k = some v := mem_keysOf
  rw [keysOf_erase]
  split
  case isTrue hk =>
    have hpos := Finset.card_pos.mpr ⟨k, hmem.mpr hk⟩
    rw [Finset.card_erase_of_mem (hmem.mpr hk)]
    omega
  case isFalse hk => simp [Finset.erase_eq_of_notMem (mt hmem.mp hk)]

theorem keysOf_retain :
    (t.retain p).keysOf v = if p v then t.keysOf v else ∅ := by
  ext k
  split <;> simp_all [get_retain]

end KeysOf

def eraseAll (t : Table κ ν) (ks : List κ) : Table κ ν :=
  ks.foldl (fun t k => t.erase k) t

theorem get_eraseAll : (t.eraseAll ks).get k = if k ∈ ks then none else t.get k := by
  induction ks generalizing t
  case nil => simp [eraseAll]
  case cons hd tl ih =>
    rw [eraseAll, foldl_cons, ← eraseAll, ih, get_erase]
    grind

theorem size_eraseAll_le : (t.eraseAll ks).size ≤ t.size := by
  induction ks generalizing t
  case nil => simp [eraseAll]
  case cons hd tl ih => exact ih.trans size_erase_le

omit [DecidableEq κ] in
@[simp]
theorem values_empty : (∅ : Table κ ν).values = [] :=
  rfl

end Table
