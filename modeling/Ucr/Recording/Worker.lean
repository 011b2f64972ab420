import Ucr.Store.State

-- The workers that carry out what recordings ask of the provider. Those that share a store take
-- turns by a lease in it.

namespace Ucr

open Except

def maxWorkerLeaseMs : ℤ := 10 * 60 * 1000
def recordingProviderWorkerLeaseDurationMs : ℤ := 120000
def maxRecordingProviderOperationBatch : ℕ := 128

structure RuntimeWorkerLease where
  holderId : ℕ
  heartbeatUnixMs : ℤ
  leaseExpiresUnixMs : ℤ
deriving DecidableEq

def validatedExpiry (nowUnixMs leaseDurationMs : ℤ) : StoreResult ℤ := do
  rejectIf (nowUnixMs < 0 ∨ leaseDurationMs ≤ 0 ∨ leaseDurationMs > maxWorkerLeaseMs) .invalidRecord
  rejectIf (nowUnixMs + leaseDurationMs > maxI64) .invalidRecord
  return nowUnixMs + leaseDurationMs

abbrev LeaseRow := Option RuntimeWorkerLease

def tryAcquireRuntimeWorkerLease (row : LeaseRow) (holderId : ℕ) (nowUnixMs durationMs : ℤ) :
    StoreResult (Bool × LeaseRow) := do
  let expires ← validatedExpiry nowUnixMs durationMs
  if row.all fun lease => lease.holderId = holderId || lease.leaseExpiresUnixMs ≤ nowUnixMs then
    return (true, some ⟨holderId, nowUnixMs, expires⟩)
  else
    return (false, row)

def renewRuntimeWorkerLease (row : LeaseRow) (holderId : ℕ) (nowUnixMs durationMs : ℤ) :
    StoreResult (Bool × LeaseRow) := do
  let expires ← validatedExpiry nowUnixMs durationMs
  if row.any fun lease => lease.holderId = holderId && lease.leaseExpiresUnixMs > nowUnixMs then
    return (true, some ⟨holderId, nowUnixMs, expires⟩)
  else
    return (false, row)

def releaseRuntimeWorkerLease (row : LeaseRow) (holderId : ℕ) : LeaseRow :=
  row.filter (·.holderId ≠ holderId)

-- Where a worker is in its loop. The times are those it has read off the clock for its lease.
inductive WorkerPhase
  | starting
  | acquiring (nowUnixMs : ℤ)
  | idle
  | renewing (nowUnixMs : ℤ)
  | sweeping (renewedAtUnixMs : ℤ) (due : ℕ)
  | applying (renewedAtUnixMs : ℤ) (due : ℕ)
  | stopped
deriving DecidableEq

-- How many operations are due, and whether the worker is told to stop or something fails: reading
-- the clock or the store, or a durable write.
structure WorkerAnswer where
  due : ℕ
  stops : Bool

-- One step of a worker at a time. Whatever ends the loop gives the lease back.
def WorkerPhase.next (phase : WorkerPhase) (row : LeaseRow) (w : ℕ) (nowUnixMs : ℤ)
    (answer : WorkerAnswer) : WorkerPhase × LeaseRow :=
  let gone := (WorkerPhase.stopped, releaseRuntimeWorkerLease row w)
  match phase with
  | starting => (if answer.stops then stopped else acquiring nowUnixMs, row)
  | acquiring t =>
    match tryAcquireRuntimeWorkerLease row w t recordingProviderWorkerLeaseDurationMs with
    | .ok (true, row) => (idle, row)
    | _ => (stopped, row)
  | idle => if answer.stops then gone else (renewing nowUnixMs, row)
  | renewing t =>
    match renewRuntimeWorkerLease row w t recordingProviderWorkerLeaseDurationMs with
    | .ok (true, row) => (sweeping t (min answer.due maxRecordingProviderOperationBatch), row)
    | _ => gone
  | sweeping t due =>
    if answer.stops then gone
    else match due with
      | 0 => (idle, row)
      | due + 1 => (applying t due, row)
  | applying t due => if answer.stops then gone else (sweeping t due, row)
  | stopped => (stopped, row)

structure WorkerWorld where
  row : LeaseRow
  nowUnixMs : ℤ
  phase : ℕ → WorkerPhase

-- Time goes on, a worker takes its next step, or its process dies.
inductive WorkerMove
  | wait (nowUnixMs : ℤ)
  | step (w : ℕ) (answer : WorkerAnswer)
  | crash (w : ℕ)

def WorkerWorld.move (world : WorkerWorld) : WorkerMove → WorkerWorld
  | .wait nowUnixMs => { world with nowUnixMs := nowUnixMs }
  | .step w answer =>
    let (phase, row) := (world.phase w).next world.row w world.nowUnixMs answer
    { world with row := row, phase := Function.update world.phase w phase }
  | .crash w => { world with phase := Function.update world.phase w .stopped }

def WorkerWorld.RunsWhere (P : WorkerWorld → WorkerMove → Prop) : WorkerWorld → List WorkerMove → Prop
  | _, [] => True
  | world, m :: moves => P world m ∧ (world.move m).RunsWhere P moves

end Ucr
