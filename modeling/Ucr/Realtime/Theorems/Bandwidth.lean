import Ucr.Lib.Meter
import Ucr.Realtime.Registry

-- What an owner is charged in a window stays below their ceiling, as long as nobody comes late
-- after somebody new has made the registry forget old windows.

namespace Ucr

open RealtimeSessionRegistry Metering List Option Roster Scenario

structure BandwidthCharge where
  owner : ScopedPrincipal
  maxAggregateBandwidthBps : U64
  wireBytes : U64
  nowUnixMs : ℤ

namespace BandwidthCharge

def window (c : BandwidthCharge) : ℤ :=
  windowStart c.nowUnixMs

def bits (c : BandwidthCharge) : ℕ :=
  c.wireBytes.val * 8

def apply (c : BandwidthCharge) (r : RealtimeSessionRegistry) :
    RegistryResult Unit :=
  r.chargeAggregateBandwidth c.owner c.maxAggregateBandwidthBps c.wireBytes c.nowUnixMs

def accepted (c : BandwidthCharge) (r : RealtimeSessionRegistry) : Bool :=
  (c.apply r).1.isOk

-- Windows older than this are forgotten when the owner is new.
def horizon (c : BandwidthCharge) : ℤ :=
  c.window - bandwidthWindowMs

end BandwidthCharge

def usageOf (r : RealtimeSessionRegistry) (owner : ScopedPrincipal) : Option (Reading ℤ) :=
  (r.bandwidthUsage.find owner).map fun entry => ⟨entry.windowStartUnixMs, entry.usedBits.val⟩

-- What was charged to the owner, in which windows.
def chargedTo (owner : ScopedPrincipal) : RealtimeSessionRegistry → List BandwidthCharge → List (ℤ × ℕ)
  | _, []      => []
  | r, c :: cs =>
    (if c.owner = owner ∧ c.accepted r then [(c.window, c.bits)] else []) ++
      chargedTo owner (c.apply r).2 cs

-- The owner is never charged for a window that somebody else, being new, has put out of reach.
def InReach (owner : ScopedPrincipal) : RealtimeSessionRegistry → List BandwidthCharge → Prop
  | _, []      => True
  | r, c :: cs =>
    (c.owner ≠ owner → r.bandwidthUsage.find c.owner = none →
      ∀ d ∈ cs, d.owner = owner → c.horizon ≤ d.window) ∧
    InReach owner (c.apply r).2 cs

variable {r : RealtimeSessionRegistry} {c : BandwidthCharge} {owner : ScopedPrincipal}

-- The windows that a charge of somebody new leaves.
def recent (r : RealtimeSessionRegistry) (c : BandwidthCharge) : Roster BandwidthWindow.owner :=
  r.bandwidthUsage.retain (·.windowStartUnixMs ≥ c.horizon)

-- What a charge can do to the meter of its own owner and to that of somebody else.
inductive Charged (r : RealtimeSessionRegistry) (c : BandwidthCharge) :
    RegistryResult Unit → Prop
  | refused (e) : Charged r c (.error e, r)
  | full (e) : r.bandwidthUsage.find c.owner = none →
      Charged r c (.error e, { r with bandwidthUsage := recent r c })
  | first (bits : U64) : r.bandwidthUsage.find c.owner = none → bits.val = c.bits →
      bits ≤ c.maxAggregateBandwidthBps →
      Charged r c (.ok (), { r with
        bandwidthUsage := (recent r c).push ⟨c.owner, c.window, bits⟩ })
  | later (entry) (bits : U64) : r.bandwidthUsage.find c.owner = some entry →
      entry.windowStartUnixMs < c.window → bits.val = c.bits → bits ≤ c.maxAggregateBandwidthBps →
      Charged r c (.ok (), r.updateUsage c.owner
        ({ · with windowStartUnixMs := c.window, usedBits := bits }) fun _ => rfl)
  | same (entry) (used : U64) : r.bandwidthUsage.find c.owner = some entry →
      entry.windowStartUnixMs = c.window → used.val = entry.usedBits.val + c.bits →
      used ≤ c.maxAggregateBandwidthBps →
      Charged r c (.ok (), r.updateUsage c.owner ({ · with usedBits := used }) fun _ => rfl)

theorem BandwidthCharge.apply_charged : Charged r c (c.apply r) := by
  simp only [BandwidthCharge.apply, chargeAggregateBandwidth]
  split
  case isTrue => exact .refused _
  split
  case isTrue => exact .refused _
  split
  case isTrue => exact .refused _
  split
  case isFalse => exact .refused _
  split
  case isTrue => exact .refused _
  case isFalse hfits hceiling =>
    split
    case h_1 entry hentry =>
      split
      case isTrue => exact .refused _
      case isFalse hback =>
        split
        case isTrue hlater => exact .later entry _ hentry hlater rfl (not_lt.mp hceiling)
        case isFalse hearly =>
          split
          case h_1 => exact .refused _
          case h_2 used hused =>
            rw [filter_eq_some_iff, U64.checkedAdd_eq_some] at hused
            exact .same entry used hentry (le_antisymm (not_lt.mp hback) (not_lt.mp hearly)) hused.1
              (of_decide_eq_true hused.2)
    case h_2 hnone =>
      split
      case isTrue  => exact .full _ hnone
      case isFalse => exact .first _ hnone rfl (not_lt.mp hceiling)

theorem find_recent :
    (recent r c).find owner = r.bandwidthUsage.find owner ∨
      (recent r c).find owner = none ∧
        ∀ entry, r.bandwidthUsage.find owner = some entry → entry.windowStartUnixMs < c.horizon := by
  rw [recent, find_retain]
  cases r.bandwidthUsage.find owner
  case none => exact .inl rfl
  case some entry =>
    by_cases hold : c.horizon ≤ entry.windowStartUnixMs
    case pos => exact .inl (by simp [hold])
    case neg => exact .inr ⟨by simpa using hold, by simpa using hold⟩

theorem find_recent_self (h : r.bandwidthUsage.find c.owner = none) :
    (recent r c).find c.owner = none := by
  rw [recent, find_retain, h, filter_none]

-- Somebody else's charge leaves the meter alone, or makes it forget a window that is out of reach.
theorem Charged.other {result} (h : Charged r c result) (hne : owner ≠ c.owner) :
    result.2.bandwidthUsage.find owner = r.bandwidthUsage.find owner ∨
      r.bandwidthUsage.find c.owner = none ∧ result.2.bandwidthUsage.find owner = none ∧
        ∀ entry, r.bandwidthUsage.find owner = some entry → entry.windowStartUnixMs < c.horizon := by
  cases h
  case refused => exact .inl rfl
  case full hnone => exact find_recent.imp_right fun hforgot => ⟨hnone, hforgot⟩
  case first bits hnone _ _ =>
    rw [find_push (find_recent_self hnone), if_neg hne]
    exact find_recent.imp_right fun hforgot => ⟨hnone, hforgot⟩
  case later | same => exact .inl (by simp [updateUsage, Roster.find_update, hne])

variable {h : List (ℤ × ℕ)} {cs : List BandwidthCharge} {ceiling : U64}

theorem Charged.own {result} (hc : Charged r c result)
    (run : Run c.maxAggregateBandwidthBps.val h (usageOf r c.owner))
    (hback : usageOf r c.owner = none → ∀ old ∈ h, old.1 < c.window) :
    Run c.maxAggregateBandwidthBps.val (h ++ if result.1.isOk then [(c.window, c.bits)] else [])
      (usageOf result.2 c.owner) := by
  cases hc
  case refused => simpa [Except.isOk, Except.toBool] using run
  case full hnone =>
    simp only [usageOf, hnone, find_recent_self hnone] at run ⊢
    simpa [Except.isOk, Except.toBool] using run
  case first bits hnone hbits hle =>
    have hread : usageOf r c.owner = none := by simp [usageOf, hnone]
    rw [usageOf, find_push (find_recent_self hnone), if_pos rfl, map_some, hbits]
    rw [hread] at run
    exact run.first (hback hread) (hbits ▸ hle)
  case later entry bits hentry hlt hbits hle =>
    rw [usageOf, updateUsage, Roster.find_update, if_pos rfl, hentry, map_some, map_some,
      hbits]
    rw [usageOf, hentry, map_some] at run
    exact run.later hlt (hbits ▸ hle)
  case same entry used hentry heq hused hle =>
    rw [usageOf, updateUsage, Roster.find_update, if_pos rfl, hentry, map_some, map_some,
      hused]
    rw [usageOf, hentry, map_some] at run
    exact heq ▸ run.same (hused ▸ hle)

theorem Charged.own_none {result} (hc : Charged r c result) (h : usageOf result.2 c.owner = none) :
    usageOf r c.owner = none ∧ result.1.isOk = false := by
  cases hc
  case refused => exact ⟨h, rfl⟩
  case full hnone => exact ⟨by simp [usageOf, hnone], rfl⟩
  case first hnone _ _ =>
    rw [usageOf, find_push (find_recent_self hnone), if_pos rfl] at h
    cases h
  case later hentry _ _ _ | same hentry _ _ _ =>
    simp [usageOf, updateUsage, Roster.find_update, hentry] at h

-- Everything charged to the owner was charged by their meter. While they have none, what is still
-- to come is later than what has been.
structure Metered (owner : ScopedPrincipal) (ceiling : U64) (h : List (ℤ × ℕ))
    (r : RealtimeSessionRegistry) (cs : List BandwidthCharge) : Prop where
  run  : Run ceiling.val h (usageOf r owner)
  back : usageOf r owner = none → ∀ old ∈ h, ∀ d ∈ cs, d.owner = owner → old.1 < d.window

namespace Metered

theorem own (hm : Metered c.owner c.maxAggregateBandwidthBps h r (c :: cs)) :
    Metered c.owner c.maxAggregateBandwidthBps
      (h ++ if c.accepted r then [(c.window, c.bits)] else []) (c.apply r).2 cs where
  run := c.apply_charged.own hm.run fun hnone old hold =>
    hm.back hnone old hold c mem_cons_self rfl
  back := by
    intro hnone old hold d hd
    obtain ⟨hbefore, hrefused⟩ := c.apply_charged.own_none hnone
    rw [BandwidthCharge.accepted, hrefused, if_neg Bool.false_ne_true, append_nil] at hold
    exact hm.back hbefore old hold d (mem_cons_of_mem _ hd)

theorem other (hm : Metered owner ceiling h r (c :: cs)) (hne : c.owner ≠ owner)
    (hreach : InReach owner r (c :: cs)) : Metered owner ceiling h (c.apply r).2 cs := by
  have hback : usageOf r owner = none → ∀ old ∈ h, ∀ d ∈ cs, d.owner = owner → old.1 < d.window :=
    fun hnone old hold d hd => hm.back hnone old hold d (mem_cons_of_mem _ hd)
  obtain hsame | ⟨hnew, hforgot, hold⟩ := c.apply_charged.other hne.symm
  · have hread : usageOf (c.apply r).2 owner = usageOf r owner := by rw [usageOf, hsame, usageOf]
    exact ⟨hread ▸ hm.run, hread ▸ hback⟩
  · have hread : usageOf (c.apply r).2 owner = none := by rw [usageOf, hforgot, map_none]
    cases hentry : r.bandwidthUsage.find owner
    case none =>
      have hnone : usageOf r owner = none := by rw [usageOf, hentry, map_none]
      exact ⟨hread ▸ hnone ▸ hm.run, fun _ => hback hnone⟩
    case some entry =>
      have hrun := hm.run
      rw [usageOf, hentry, map_some] at hrun
      refine ⟨hread ▸ hrun.forget, fun _ old hmem d hd hown => ?_⟩
      calc old.1 ≤ entry.windowStartUnixMs := hrun.latest old hmem
        _ < c.horizon := hold entry hentry
        _ ≤ d.window := hreach.1 hne hnew d hd hown

theorem chargedTo_run (hm : Metered owner ceiling h r cs)
    (hceiling : ∀ d ∈ cs, d.owner = owner → d.maxAggregateBandwidthBps = ceiling)
    (hreach : InReach owner r cs) :
    ∃ reading, Run ceiling.val (h ++ chargedTo owner r cs) reading := by
  induction cs generalizing r h
  case nil => exact ⟨_, by simpa [chargedTo] using hm.run⟩
  case cons c cs ih =>
    rw [chargedTo, ← append_assoc]
    refine ih ?_ (fun d hd => hceiling d (mem_cons_of_mem _ hd)) hreach.2
    by_cases hown : c.owner = owner
    case pos =>
      subst hown
      have hmax := hceiling c mem_cons_self rfl
      simpa using hmax ▸ own (hmax ▸ hm)
    case neg => simpa [hown] using hm.other hown hreach

end Metered

theorem bandwidth_stays_under_ceiling (r : RealtimeSessionRegistry) (owner : ScopedPrincipal)
    (ceiling : U64) (charges : List BandwidthCharge)
    (hceiling : ∀ c ∈ charges, c.owner = owner → c.maxAggregateBandwidthBps = ceiling)
    (hreach : InReach owner r charges) :
    (∀ window, total window (chargedTo owner r charges) ≤ ceiling.val) ∧
      (chargedTo owner r charges).Pairwise (·.1 ≤ ·.1) := by
  have hm : Metered owner ceiling [] r charges :=
    ⟨.nil, fun _ old hold => absurd hold not_mem_nil⟩
  obtain ⟨reading, hrun⟩ := hm.chargedTo_run hceiling hreach
  rw [nil_append] at hrun
  exact ⟨hrun.within, hrun.ordered⟩

def harbour : TenantScope := ⟨named "harbour", none⟩
def ferry   : ScopedPrincipal := ⟨harbour, ⟨named "ferry", .serviceAccount⟩⟩
def barge   : ScopedPrincipal := ⟨harbour, ⟨named "barge", .serviceAccount⟩⟩
def trawler : ScopedPrincipal := ⟨harbour, ⟨named "trawler", .serviceAccount⟩⟩

def quay : RealtimeSessionRegistry := .new 8 8 false

-- The barge is new, but does not come a whole window before or after the ferry.
theorem ferry_stays_under_ceiling :
    let charges := [⟨ferry, 8, 1, 3000⟩, ⟨barge, 8, 1, 4500⟩, ⟨ferry, 8, 1, 3000⟩, ⟨ferry, 8, 1, 4999⟩]
    chargedTo ferry quay charges = [(3000, 8), (4000, 8)] ∧
      ∀ window, total window (chargedTo ferry quay charges) ≤ 8 := by
  refine ⟨by decide +kernel, ?_⟩
  refine (bandwidth_stays_under_ceiling quay ferry 8 _ ?_ ?_).1
  · decide +kernel
  · refine ⟨fun h => absurd rfl h, ?_, fun h => absurd rfl h, fun h => absurd rfl h, trivial⟩
    exact fun _ _ => by decide +kernel

-- Each time somebody new comes ten seconds later, the ferry is forgotten, and is charged once more
-- for what it has used up, and then for what is long past.
theorem ferry_goes_over_ceiling :
    let charges := [⟨ferry, 8, 1, 3000⟩, ⟨barge, 8, 1, 13000⟩, ⟨ferry, 8, 1, 3000⟩,
      ⟨trawler, 8, 1, 13000⟩, ⟨ferry, 8, 1, 0⟩]
    total 3000 (chargedTo ferry quay charges) = 16 ∧
      ¬(chargedTo ferry quay charges).Pairwise (·.1 ≤ ·.1) := by
  decide +kernel

end Ucr
