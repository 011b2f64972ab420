import Ucr.Recording.Worker

-- The provider works for one process at a time, as long as no call outlives the lease it was made
-- under.

namespace Ucr

open Except WorkerPhase

variable {row : LeaseRow} {w : ℕ} {t : ℤ} {world : WorkerWorld}

theorem validatedExpiry_eq (h : validatedExpiry t d = .ok expires) : expires = t + d := by
  simp only [validatedExpiry, ok_iff] at h
  obtain ⟨_, _, _, _, h⟩ := h
  exact h.symm

theorem tryAcquire_eq (h : tryAcquireRuntimeWorkerLease row w t d = .ok (true, row')) :
    ∀ lease ∈ row, lease.holderId = w ∨ lease.leaseExpiresUnixMs ≤ t := by
  obtain ⟨_, _, h⟩ := bind_eq_ok.mp h
  split at h <;> simp_all [Option.all_eq_true]

theorem renew_eq (h : renewRuntimeWorkerLease row w t d = .ok (true, row')) :
    row' = some ⟨w, t, t + d⟩ ∧ ∀ lease ∈ row, lease.holderId = w := by
  obtain ⟨_, he, h⟩ := bind_eq_ok.mp h
  cases row <;> split at h <;> simp_all [validatedExpiry_eq he]

def WorkerPhase.lease (w : ℕ) : WorkerPhase → LeaseRow
  | sweeping t _ | applying t _ => some ⟨w, t, t + recordingProviderWorkerLeaseDurationMs⟩
  | _ => none

def WorkerPhase.InTime (phase : WorkerPhase) (w : ℕ) (now : ℤ) : Prop :=
  ∀ lease ∈ phase.lease w, now < lease.leaseExpiresUnixMs

instance (phase : WorkerPhase) (w : ℕ) (now : ℤ) : Decidable (phase.InTime w now) :=
  inferInstanceAs (Decidable (∀ lease ∈ phase.lease w, _))

def WorkerPhase.applies : WorkerPhase → Bool
  | applying .. => true
  | _ => false

namespace WorkerPhase

variable {phase : WorkerPhase} {answer : WorkerAnswer} {lease : RuntimeWorkerLease}

-- A worker leaves the lease of another alone, unless it had run out when the worker read the clock.
theorem next_other (hw : lease.holderId ≠ w)
    (ht : ∀ t, phase = acquiring t → t < lease.leaseExpiresUnixMs) :
    (phase.next (some lease) w now answer).2 = some lease := by
  have hrelease : releaseRuntimeWorkerLease (some lease) w = some lease := by
    simp [releaseRuntimeWorkerLease, Option.filter, hw]
  cases phase <;> simp only [next]
  case acquiring t =>
    split
    case h_1 h =>
      obtain hl | hl := tryAcquire_eq h lease rfl
      · exact absurd hl hw
      · exact absurd hl (ht t rfl).not_ge
    case h_2 => rfl
  case renewing =>
    split
    case h_1 h => exact absurd ((renew_eq h).2 lease rfl) hw
    case h_2 => exact hrelease
  all_goals (repeat' split) <;> first | rfl | exact hrelease

theorem next_lease (h : (phase.next row w now answer).1.lease w = some lease) :
    (phase.lease w = some lease ∧ (phase.next row w now answer).2 = row) ∨
      (phase.next row w now answer).2 = some lease := by
  cases phase <;> simp only [next] at h ⊢ <;> (repeat' split at h) <;> simp_all [WorkerPhase.lease]
  grind [renew_eq]

theorem lease_holderId (h : lease ∈ phase.lease w) : lease.holderId = w := by
  cases phase <;> simp_all [WorkerPhase.lease, eq_comm]

theorem next_acquiring (h : (phase.next row w now answer).1 = acquiring t) : t = now := by
  cases phase <;> simp only [next] at h <;> (repeat' split at h) <;> simp_all

theorem next_applies (h : (phase.next row w now answer).1.applies) :
    (∃ t due, phase = sweeping t (due + 1)) ∧
    (phase.next row w now answer).1.lease w = phase.lease w := by
  cases phase <;> simp only [next] at h ⊢ <;> (repeat' split at h) <;>
    simp_all [applies, WorkerPhase.lease]

end WorkerPhase

namespace WorkerWorld

-- The clock does not go back, and the provider is called, and is done, before the lease runs out
-- that was renewed for the sweep.
def Timely (world : WorkerWorld) : WorkerMove → Prop
  | .wait now => world.nowUnixMs ≤ now ∧
      ∀ w, (world.phase w).applies → (world.phase w).InTime w now
  | .step w _ => (∃ t due, world.phase w = .sweeping t (due + 1)) →
      (world.phase w).InTime w world.nowUnixMs
  | .crash _ => True

structure Held (world : WorkerWorld) : Prop where
  read : ∀ w t, world.phase w = .acquiring t → t ≤ world.nowUnixMs
  held : ∀ w, ∀ lease ∈ (world.phase w).lease w,
    world.nowUnixMs < lease.leaseExpiresUnixMs → world.row = some lease
  timely : ∀ w, (world.phase w).applies → (world.phase w).InTime w world.nowUnixMs

theorem Held.update (h : world.Held) {phase}
    (hread : ∀ t, phase = .acquiring t → t ≤ world.nowUnixMs)
    (hheld : ∀ lease ∈ phase.lease w, world.nowUnixMs < lease.leaseExpiresUnixMs → row = some lease)
    (htimely : phase.applies → phase.InTime w world.nowUnixMs)
    (hother : ∀ lease ∈ world.row, lease.holderId ≠ w →
      world.nowUnixMs < lease.leaseExpiresUnixMs → row = some lease) :
    Held { world with row := row, phase := Function.update world.phase w phase } := by
  refine ⟨fun w' => ?_, fun w' => ?_, fun w' => ?_⟩ <;> by_cases hw : w' = w <;>
    simp only [hw, Function.update_self, ne_eq, not_false_eq_true, Function.update_of_ne]
  case pos => exact hread
  case neg => exact h.read w'
  case pos => exact hheld
  case neg =>
    intro lease hlease hnow
    exact hother lease (h.held w' lease hlease hnow) (lease_holderId hlease ▸ hw) hnow
  case pos => exact htimely
  case neg => exact h.timely w'

theorem Held.move (h : world.Held) (hm : world.Timely m) : (world.move m).Held := by
  cases m
  case wait now =>
    exact {
      read := fun w t hw => (h.read w t hw).trans hm.1
      held := fun w lease hlease ht => h.held w lease hlease (hm.1.trans_lt ht)
      timely := hm.2
    }
  case crash w =>
    exact h.update (by simp) (by simp [WorkerPhase.lease]) (by simp [applies]) fun _ hlease _ _ => hlease
  case step w answer =>
    refine h.update (fun t hw => (next_acquiring hw).le) (fun lease hl ht => ?_) (fun hw => ?_)
      fun lease hlease hw ht => ?_
    · obtain ⟨hwas, hrow⟩ | hrow := next_lease hl
      · exact hrow.trans (h.held w lease hwas ht)
      · exact hrow
    · obtain ⟨hbegins, hsame⟩ := next_applies hw
      exact fun lease hl => hm hbegins lease (hsame ▸ hl)
    · rw [hlease]
      exact next_other hw fun t hread => (h.read w t hread).trans_lt ht

theorem Held.run (h : world.Held) (hrun : world.RunsWhere Timely moves) :
    (moves.foldl WorkerWorld.move world).Held := by
  induction moves generalizing world
  case nil => exact h
  case cons m moves ih => exact ih (h.move hrun.1) hrun.2

theorem Held.lease (h : world.Held) (hw : (world.phase w).applies) :
    ∃ lease ∈ world.row, lease.holderId = w ∧ world.nowUnixMs < lease.leaseExpiresUnixMs := by
  obtain ⟨lease, hl⟩ : ∃ lease, lease ∈ (world.phase w).lease w := by
    cases hphase : world.phase w <;> simp_all [WorkerPhase.lease, applies]
  have hlive := h.timely w hw lease hl
  exact ⟨lease, h.held w lease hl hlive, lease_holderId hl, hlive⟩

-- While the provider works for one process, the lease is that of the process and has not run out:
-- no other process has taken it since, and the provider works for no other process.
theorem provider_works_under_lease (moves : List WorkerMove) (hstart : ∀ w, world.phase w = .starting)
    (hrun : world.RunsWhere Timely moves) (hw : ((moves.foldl move world).phase w).applies) :
    (∃ lease ∈ (moves.foldl move world).row, lease.holderId = w ∧
      (moves.foldl move world).nowUnixMs < lease.leaseExpiresUnixMs) ∧
    ∀ w', ((moves.foldl move world).phase w').applies → w' = w := by
  have hinit : world.Held := by
    constructor <;> simp [hstart, WorkerPhase.lease, applies]
  have h := hinit.run hrun
  refine ⟨h.lease hw, fun w' hw' => ?_⟩
  obtain ⟨lease, hlease, hholder, _⟩ := h.lease hw
  obtain ⟨lease', hlease', hholder', _⟩ := h.lease hw'
  rw [← hholder, ← hholder', Option.mem_unique hlease hlease']

-- The workers of one store, each on its way to its first call.
def newWorkers : WorkerWorld := ⟨none, 0, fun _ => .starting⟩

def firstCall (w : ℕ) : List WorkerMove := .replicate 5 (.step w ⟨2, false⟩)

-- Worker 0 dies in its second call. Worker 1 comes too early for the lease, worker 2 takes it over.
def takeover : List WorkerMove :=
  firstCall 0 ++ .wait 60000 :: .replicate 2 (.step 0 ⟨0, false⟩) ++
    .replicate 2 (.step 1 ⟨0, false⟩) ++ [.crash 0, .wait 120000] ++ firstCall 2

theorem takeover_calls_under_lease :
    (∃ lease ∈ (takeover.foldl move newWorkers).row, lease.holderId = 2 ∧
      120000 < lease.leaseExpiresUnixMs) ∧
    ∀ w', ((takeover.foldl move newWorkers).phase w').applies → w' = 2 := by
  refine provider_works_under_lease takeover (fun _ => rfl) ?_ rfl
  repeat' apply And.intro
  all_goals first
    | exact trivial
    | decide
    | (rintro ⟨_, _, ⟨⟩⟩ <;> decide)
    | (rintro (_ | _ | w) <;> first | decide | exact nofun)

-- The provider is slow with the first call of worker 0, which then makes its second one while
-- worker 1 holds the lease and makes a call of its own.
theorem slow_call_outlives_lease :
    let world := (firstCall 0 ++ .wait 120000 :: firstCall 1 ++ .replicate 2 (.step 0 ⟨0, false⟩)).foldl
      move newWorkers
    world.row = some ⟨1, 120000, 240000⟩ ∧
      world.phase 0 = .applying 0 0 ∧ world.phase 1 = .applying 120000 1 := by
  decide

end WorkerWorld

end Ucr
