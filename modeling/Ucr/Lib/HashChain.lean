import Ucr.Lib.Slice
import Mathlib.Data.List.Infix

-- Hash chains: each record is hashed together with the hash of the record before it. Where the hash
-- does not collide on what is hashed, the last hash determines all records.

namespace HashChain

open List

variable {α δ π : Type}

section Heads

variable (hash : π → δ) (preimage : δ → α → π) (start : δ)

def head (records : List α) : δ :=
  records.foldl (fun previous record => hash (preimage previous record)) start

-- Everything that is hashed on the way.
def preimages : δ → List α → List π
  | _, [] => []
  | previous, record :: records =>
    preimage previous record :: preimages (hash (preimage previous record)) records

-- Records with the hashes of the chain they form.
def Chained (entries : List (α × δ)) : Prop :=
  ∀ earlier record digest later, entries = earlier ++ (record, digest) :: later →
    digest = head hash preimage start (earlier.map Prod.fst ++ [record])

end Heads

-- No two of the given texts have the same hash, and none has the one a chain starts with.
structure CollisionFree (hash : π → δ) (start : δ) (texts : List π) : Prop where
  eq_of_hash_eq : ∀ p ∈ texts, ∀ q ∈ texts, hash p = hash q → p = q
  ne_start      : ∀ p ∈ texts, hash p ≠ start

variable {hash : π → δ} {preimage : δ → α → π} {start : δ}

@[simp]
theorem head_append_singleton : head hash preimage start (records ++ [record]) =
    hash (preimage (head hash preimage start records) record) := by
  simp [head]

theorem preimages_append_singleton : preimages hash preimage start (records ++ [record]) =
    preimages hash preimage start records ++
      [preimage (head hash preimage start records) record] := by
  induction records generalizing start
  case nil => rfl
  case cons first rest ih =>
    simp only [cons_append, preimages, ih]
    rfl

theorem CollisionFree.mono (h : CollisionFree hash start texts) (hsub : texts' ⊆ texts) :
    CollisionFree hash start texts' :=
  ⟨fun p hp q hq => h.eq_of_hash_eq p (hsub hp) q (hsub hq), fun p hp => h.ne_start p (hsub hp)⟩

-- The two chains are followed back from their last records, which have to be the same. A chain that
-- ends earlier would end in the hash that no record has.
theorem eq_of_head_eq {Valid : α → Prop}
    (hinjective : ∀ previous previous' record record', Valid record → Valid record' →
      preimage previous record = preimage previous' record' →
        previous = previous' ∧ record = record')
    (hrecords : ∀ record ∈ records, Valid record) (hothers : ∀ record ∈ others, Valid record)
    (hfree : CollisionFree hash start
      (preimages hash preimage start records ++ preimages hash preimage start others))
    (h : head hash preimage start records = head hash preimage start others) : records = others := by
  induction records using reverseRecOn generalizing others
  case nil =>
    obtain rfl | ⟨others, record, rfl⟩ := eq_nil_or_concat' others
    · rfl
    · rw [head_append_singleton] at h
      exact absurd h.symm (hfree.ne_start _ (by simp [preimages_append_singleton]))
  case append_singleton records record ih =>
    obtain rfl | ⟨others, record', rfl⟩ := eq_nil_or_concat' others
    · rw [head_append_singleton] at h
      exact absurd h (hfree.ne_start _ (by simp [preimages_append_singleton]))
    · rw [preimages_append_singleton, preimages_append_singleton] at hfree
      rw [head_append_singleton, head_append_singleton] at h
      have hlast := hfree.eq_of_hash_eq _ (by simp) _ (by simp) h
      obtain ⟨hprevious, rfl⟩ := hinjective _ _ record record' (hrecords record (by simp))
        (hothers record' (by simp)) hlast
      have hfree' : CollisionFree hash start
          (preimages hash preimage start records ++ preimages hash preimage start others) :=
        hfree.mono fun text hmem => by rcases mem_append.mp hmem with h | h <;> simp [h]
      rw [ih (fun record hmem => hrecords record (by simp [hmem]))
        (fun record hmem => hothers record (by simp [hmem])) hfree' hprevious]

theorem Chained.nil : Chained hash preimage start [] := by
  simp [Chained]

-- The hash in the last entry is the head of the chain.
theorem Chained.head_eq (h : Chained hash preimage start entries) :
    entries.getLast?.elim start Prod.snd = head hash preimage start (entries.map Prod.fst) := by
  obtain rfl | ⟨entries, entry, rfl⟩ := eq_nil_or_concat' entries
  · rfl
  · simpa using h entries entry.1 entry.2 [] rfl

theorem Chained.append (h : Chained hash preimage start entries) :
    Chained hash preimage start
      (entries ++ [(record, hash (preimage (entries.getLast?.elim start Prod.snd) record))]) := by
  intro earlier record' digest later heq
  obtain ⟨rest, -, hentries⟩ | ⟨-, hlast, rfl⟩ := split_concat heq
  · exact h earlier record' digest rest hentries
  · obtain ⟨rfl, rfl⟩ := Prod.mk.inj hlast
    rw [head_append_singleton, h.head_eq]

end HashChain
