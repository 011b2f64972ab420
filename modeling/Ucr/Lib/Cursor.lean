import Ucr.Lib.Machine
import Ucr.Lib.Table
import Mathlib.Data.List.Sort

-- Streams of numbered records, and cursors that remember the last number of each stream. Whoever
-- takes a record only when its number is past the cursor takes the records of a stream in order and
-- none twice, also when the cursors are thrown away at the beginning of a new epoch, as long as the
-- records of older epochs are refused.

namespace Cursor

open List

variable {α κ : Type}

-- What makes a record part of a stream.
structure Numbering (α κ : Type) where
  epoch  : α → U64
  stream : α → κ
  number : α → U64

variable [DecidableEq κ] {on : Numbering α κ} {now : U64} {cursors : Table κ U64} {log : List α}
  {record : α} {stream : κ} {number : U64}

-- The number comes after everything the cursor of the stream has seen.
def Past (cursors : Table κ U64) (stream : κ) (number : U64) : Prop :=
  ∀ last, cursors.get stream = some last → last < number

theorem past_of_not_any (h : ¬((cursors.get stream).any (number ≤ ·)) = true) :
    Past cursors stream number := by
  intro last hlast
  simpa [hlast] using h

-- The records of one stream in one epoch.
def Numbering.part (on : Numbering α κ) (epoch : U64) (stream : κ) (log : List α) : List α :=
  log.filter fun record => on.epoch record = epoch ∧ on.stream record = stream

omit [DecidableEq κ] in
def Numbering.Increasing (on : Numbering α κ) (log : List α) : Prop :=
  log.Pairwise fun a b =>
    on.epoch a = on.epoch b → on.stream a = on.stream b → on.number a < on.number b

-- The cursors are those of the current epoch, and have seen every record that was taken in it.
structure Tracks (on : Numbering α κ) (now : U64) (cursors : Table κ U64) (log : List α) :
    Prop where
  le_now : ∀ record ∈ log, on.epoch record ≤ now
  seen : ∀ record ∈ log, on.epoch record = now →
    ∃ last, cursors.get (on.stream record) = some last ∧ on.number record ≤ last
  increasing : on.Increasing log

namespace Tracks

theorem nil : Tracks on now cursors [] :=
  ⟨by simp, by simp, .nil⟩

-- A cursor may move on without a record being taken.
theorem skip (h : Tracks on now cursors log) (hpast : Past cursors stream number) :
    Tracks on now (cursors.put stream number) log := by
  refine ⟨h.le_now, fun record hmem hepoch => ?_, h.increasing⟩
  obtain ⟨last, hlast, hle⟩ := h.seen record hmem hepoch
  rw [Table.get_put]
  split
  case isTrue heq  => exact ⟨number, rfl, hle.trans (hpast last (heq ▸ hlast)).le⟩
  case isFalse hne => exact ⟨last, hlast, hle⟩

theorem take (h : Tracks on now cursors log) (hepoch : on.epoch record = now)
    (hpast : Past cursors (on.stream record) (on.number record)) :
    Tracks on now (cursors.put (on.stream record) (on.number record)) (log ++ [record]) := by
  have hskip := h.skip hpast
  refine ⟨?_, ?_, pairwise_append.mpr ⟨h.increasing, pairwise_singleton .., ?_⟩⟩
  · intro a ha
    obtain ha | rfl : a ∈ log ∨ a = record := by simpa using ha
    · exact h.le_now a ha
    · exact hepoch.le
  · intro a ha hnow
    obtain ha | rfl : a ∈ log ∨ a = record := by simpa using ha
    · exact hskip.seen a ha hnow
    · exact ⟨on.number a, Table.get_put_self, le_rfl⟩
  · intro a ha b hb hepochs hstreams
    obtain rfl := mem_singleton.mp hb
    obtain ⟨last, hlast, hle⟩ := h.seen a ha (hepochs.trans hepoch)
    exact lt_of_le_of_lt hle (hpast last (hstreams ▸ hlast))

theorem renew {next} (h : Tracks on now cursors log) (hlt : now < next) : Tracks on next ∅ log := by
  refine ⟨fun record hmem => (h.le_now record hmem).trans hlt.le, fun record hmem hepoch => ?_,
    h.increasing⟩
  exact absurd (h.le_now record hmem) (not_le.mpr (hepoch ▸ hlt))

end Tracks

theorem Numbering.Increasing.part {epoch} (h : on.Increasing log) :
    (on.part epoch stream log).Pairwise fun a b => on.number a < on.number b := by
  refine (pairwise_filter.mpr (h.imp fun hlt ha hb => ?_))
  simp only [decide_eq_true_eq] at ha hb
  exact hlt (ha.1.trans hb.1.symm) (ha.2.trans hb.2.symm)

-- Records in order that were all taken from a log in order are a subsequence of it.
theorem Numbering.Increasing.sublist {epoch} (h : on.Increasing log) (h' : on.Increasing log')
    (hsub : log ⊆ log') : (on.part epoch stream log).Sublist (on.part epoch stream log') := by
  have : Std.Antisymm fun a b : α => on.number a < on.number b :=
    ⟨fun a b hab hba => absurd hab hba.asymm⟩
  have hnodup : (on.part epoch stream log).Nodup := by
    refine List.Pairwise.imp ?_ h.part
    rintro a b hlt rfl
    exact lt_irrefl _ hlt
  refine sublist_of_subperm_of_pairwise (subperm_of_subset hnodup ?_) h.part h'.part
  exact filter_subset _ hsub

end Cursor
