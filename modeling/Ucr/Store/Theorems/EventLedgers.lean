import Ucr.Protocol.Theorems.CanonicalMessage
import Ucr.Store.EventStore

-- The ledgers that share the event identifiers of a scope only ever get new records, each under an
-- identifier that none of them has seen.

namespace Ucr

open Except Relation List Table

theorem canonicalEvent_idem (h : canonicalEvent event = .ok canonical) :
    canonicalEvent canonical = .ok canonical := by
  simp only [canonicalEvent, bind_eq_ok, mapError_eq_ok, pure_eq_ok] at h
  obtain ⟨_, hvalid, extensions, hextensions, rfl⟩ := h
  obtain rfl := canonicalProtocolExtensions_eq hextensions
  have hagain := canonicalProtocolExtensions_sortOn.mpr hextensions
  simp only [canonicalEvent, validateEvent, bind_eq_ok, mapError_eq_ok, pure_eq_ok] at hvalid ⊢
  obtain ⟨_, htype, _, hkey, _, hpayload, _, hmetadata, _, hversion, -⟩ := hvalid
  exact ⟨(), ⟨_, htype, _, hkey, _, hpayload, _, hmetadata, _, hversion, _, hagain, trivial⟩, _, hagain,
    rfl⟩

namespace EventLedgers

variable {l l' : EventLedgers} {key : ScopedId}

structure Unused (l : EventLedgers) (key : ScopedId) : Prop where
  events  : l.events.get key = none
  changes : l.groupChanges.get key = none
  signals : l.callSignals.get key = none

inductive Record (l : EventLedgers) : EventLedgers → Prop
  | event (event : EventEnvelope) (unused : l.Unused event.key)
      (canonical : canonicalEvent event = .ok event) :
      Record l { l with
        events     := l.events.put event.key event
        eventOrder := l.eventOrder ++ [event.key] }
  | change (key : ScopedId) (record : PrincipalRef × Digest) (unused : l.Unused key) :
      Record l { l with groupChanges := l.groupChanges.put key record }
  | signal (key : ScopedId) (record : PrincipalRef × Digest × U64) (unused : l.Unused key) :
      Record l { l with callSignals := l.callSignals.put key record }

abbrev Records := ReflTransGen Record

def uses (l : EventLedgers) (key : ScopedId) : ℕ :=
  (l.events.get key).isSome.toNat + (l.groupChanges.get key).isSome.toNat +
    (l.callSignals.get key).isSome.toNat

-- One identifier, one meaning; and the order lists the events, each once.
structure Sound (l : EventLedgers) : Prop where
  exclusive : ∀ key, l.uses key ≤ 1
  nodup     : l.eventOrder.Nodup
  listed    : ∀ key, key ∈ l.eventOrder ↔ (l.events.get key).isSome
  keyed     : ∀ key event, l.events.get key = some event → event.key = key

structure Extends (l l' : EventLedgers) : Prop where
  order   : l.eventOrder <+: l'.eventOrder
  events  : ∀ key event, l.events.get key = some event → l'.events.get key = some event
  changes : ∀ key record, l.groupChanges.get key = some record →
    l'.groupChanges.get key = some record
  signals : ∀ key record, l.callSignals.get key = some record → l'.callSignals.get key = some record

theorem Extends.refl (l : EventLedgers) : l.Extends l :=
  ⟨prefix_rfl, fun _ _ h => h, fun _ _ h => h, fun _ _ h => h⟩

theorem Extends.trans (h₁ : l.Extends l') (h₂ : l'.Extends l'') : l.Extends l'' where
  order := h₁.order.trans h₂.order
  events key _ h := h₂.events key _ (h₁.events key _ h)
  changes key _ h := h₂.changes key _ (h₁.changes key _ h)
  signals key _ h := h₂.signals key _ (h₁.signals key _ h)

theorem Record.extends (h : l.Record l') : l.Extends l' := by
  cases h
  case event event unused _ =>
    exact { Extends.refl l with
      order  := prefix_append ..
      events := fun _ _ => get_put_of_free unused.events }
  case change unused =>
    exact { Extends.refl l with changes := fun _ _ => get_put_of_free unused.changes }
  case signal unused =>
    exact { Extends.refl l with signals := fun _ _ => get_put_of_free unused.signals }

theorem Records.extends (h : l.Records l') : l.Extends l' := by
  induction h
  case refl => exact .refl l
  case tail step ih => exact ih.trans step.extends

-- A record adds one to the uses of its identifier and nothing to those of the others.
theorem Record.uses_le (h : l.Record l') (hl : l.uses key ≤ 1) : l'.uses key ≤ 1 := by
  have hput {ν : Type} {t : Table ScopedId ν} {k : ScopedId} {v : ν} (hne : key ≠ k) :
      ((t.put k v).get key).isSome = (t.get key).isSome := by rw [get_put_ne hne]
  cases h
  case event event unused _ =>
    by_cases heq : key = event.key
    · subst heq
      simp [uses, unused.changes, unused.signals]
    · simpa only [uses, hput heq] using hl
  case change k record unused =>
    by_cases heq : key = k
    · subst heq
      simp [uses, unused.events, unused.signals]
    · simpa only [uses, hput heq] using hl
  case signal k record unused =>
    by_cases heq : key = k
    · subst heq
      simp [uses, unused.events, unused.changes]
    · simpa only [uses, hput heq] using hl

theorem Record.sound (h : l.Record l') (hl : l.Sound) : l'.Sound := by
  have hexclusive : ∀ key, l'.uses key ≤ 1 := fun key => h.uses_le (hl.exclusive key)
  cases h
  case event event unused _ =>
    have hnew : event.key ∉ l.eventOrder := by simp [hl.listed, unused.events]
    refine ⟨hexclusive, ?_, fun key => ?_, forall_put hl.keyed rfl⟩
    · exact nodup_append.mpr ⟨hl.nodup, nodup_singleton _, by
        rintro key hmem _ hlast rfl
        exact hnew (mem_singleton.mp hlast ▸ hmem)⟩
    · rw [mem_append, mem_singleton, hl.listed, get_put]
      split <;> simp_all
  case change | signal => exact ⟨hexclusive, hl.nodup, hl.listed, hl.keyed⟩

def Canonical (l : EventLedgers) : Prop :=
  ∀ key event, l.events.get key = some event → canonicalEvent event = .ok event

theorem Record.canonical (h : l.Record l') (hl : l.Canonical) : l'.Canonical := by
  cases h
  case event event _ hcanonical => exact forall_put hl hcanonical
  case change => exact hl
  case signal => exact hl

theorem Records.canonical (h : l.Records l') (hl : l.Canonical) : l'.Canonical := by
  induction h
  case refl => exact hl
  case tail step ih => exact step.canonical ih

theorem Records.sound (h : l.Records l') (hl : l.Sound) : l'.Sound := by
  induction h
  case refl => exact hl
  case tail step ih => exact step.sound ih

end EventLedgers

end Ucr
