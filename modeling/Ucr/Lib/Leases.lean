import Mathlib.Data.List.Nodup
import Mathlib.Data.List.Pairwise
import Mathlib.Data.Nat.Basic

-- Connections that are found by a key, and that come and go and are replaced. Each has a generation
-- from a counter they share, counts what happens to it, and has a channel whose receiver is handed
-- out.

namespace Leases

open List Nat

structure Conn (ι : Type) where
  label      : ι
  generation : ℕ
  sequence   : ℕ
  sender     : ℕ
  receiver   : Option ℕ

structure State (κ ι : Type) where
  conn     : κ → Option (Conn ι)
  last     : ℕ
  channels : ℕ

inductive Event (κ ι : Type)
  | joined   (k : κ) (label : ι) (generation sequence : ℕ)
  | rejoined (k : κ) (generation sequence : ℕ)
  -- A receiver is handed out. That counts if it had to be replaced.
  | handed   (k : κ) (channel : ℕ) (sequence : Option ℕ)
  | ready    (k : κ) (sequence : ℕ)
  | left     (k : κ) (sequence : ℕ)

variable {κ ι : Type} [DecidableEq κ]

def State.empty : State κ ι := ⟨fun _ => none, 0, 0⟩

def State.set (s : State κ ι) (k : κ) (c : Option (Conn ι)) : State κ ι :=
  { s with conn := Function.update s.conn k c }

inductive Step (limit : ℕ) (s : State κ ι) : List (Event κ ι) → State κ ι → Prop
  | expire {conn} : (∀ k, conn k = none ∨ conn k = s.conn k) → Step limit s [] { s with conn }
  | raise {n} : s.last ≤ n → Step limit s [] { s with last := n }
  -- Something was counted, but nothing came of it.
  | count {k c} : s.conn k = some c →
      Step limit s [] (s.set k (some { c with sequence := c.sequence + 1 }))
  | join {k label g} : s.conn k = none → s.last < g → g ≤ limit →
      Step limit s [.joined k label g 1]
        ({ s with last := g, channels := s.channels + 1 }.set k
          (some ⟨label, g, 1, s.channels, some s.channels⟩))
  | rejoin {k c g} : s.conn k = some c → s.last < g → g ≤ limit →
      Step limit s [.rejoined k g (c.sequence + 1)]
        ({ s with last := g, channels := s.channels + 1 }.set k
          (some ⟨c.label, g, c.sequence + 1, s.channels, some s.channels⟩))
  | take {k c channel} : s.conn k = some c → c.receiver = some channel →
      Step limit s [.handed k channel none] (s.set k (some { c with receiver := none }))
  | reopen {k c} : s.conn k = some c → c.receiver = none →
      Step limit s [.handed k s.channels (some (c.sequence + 1))]
        ({ s with channels := s.channels + 1 }.set k
          (some { c with sequence := c.sequence + 1, sender := s.channels }))
  | ready {k c} : s.conn k = some c →
      Step limit s [.ready k (c.sequence + 1)]
        (s.set k (some { c with sequence := c.sequence + 1 }))
  | leave {k c} : s.conn k = some c → Step limit s [.left k (c.sequence + 1)] (s.set k none)

inductive Run (limit : ℕ) (s₀ : State κ ι) : List (Event κ ι) → State κ ι → Prop
  | start : Run limit s₀ [] s₀
  | step {t s es s'} : Run limit s₀ t s → Step limit s es s' → Run limit s₀ (t ++ es) s'

namespace Event

def join : Event κ ι → Option (κ × ℕ)
  | joined k _ g _ | rejoined k g _ => some (k, g)
  | _ => none

def channel : Event κ ι → Option ℕ
  | handed _ channel _ => some channel
  | _ => none

def counted (k : κ) : Event κ ι → Option ℕ
  | joined k' _ _ n
  | rejoined k' _ n
  | handed k' _ (some n)
  | ready k' n
  | left k' n => if k' = k then some n else none
  | handed _ _ none => none

def enters (k : κ) : Event κ ι → Bool
  | joined k' _ _ _ => k' = k
  | _ => false

end Event

def joins (t : List (Event κ ι)) : List (κ × ℕ) :=
  t.filterMap Event.join

def latest (k : κ) (t : List (Event κ ι)) : Option (κ × ℕ) :=
  ((joins t).filter (·.1 = k)).getLast?

def handed (t : List (Event κ ι)) : List ℕ :=
  t.filterMap Event.channel

def counted (k : κ) (t : List (Event κ ι)) : List ℕ :=
  t.filterMap (Event.counted k)

variable {limit : ℕ} {s s' : State κ ι} {t : List (Event κ ι)} {k k' : κ} {c : Conn ι}

theorem State.conn_set : (s.set k o).conn k' = if k' = k then o else s.conn k' := by
  exact Function.update_apply ..

variable {channels : ℕ} {last : ℕ}

theorem State.set_set :
    { s.set k o with last, channels }.set k o' = { s with last, channels }.set k o' := by
  simp only [State.set, Function.update_idem]

theorem conn_of_set_none (h : (s.set k none).conn k' = some d) : k' ≠ k ∧ s.conn k' = some d := by
  rw [State.conn_set] at h
  split at h
  case isTrue => cases h
  case isFalse hne => exact ⟨hne, h⟩

theorem conn_of_set_some (h : (s.set k (some c)).conn k' = some d) :
    (k' = k ∧ d = c) ∨ (k' ≠ k ∧ s.conn k' = some d) := by
  rw [State.conn_set] at h
  split at h
  case isTrue heq  => exact .inl ⟨heq, (Option.some.inj h).symm⟩
  case isFalse hne => exact .inr ⟨hne, h⟩

omit [DecidableEq κ] in
theorem conn_of_expire {conn : κ → Option (Conn ι)} (h : ∀ k, conn k = none ∨ conn k = s.conn k)
    (hc : conn k = some c) : s.conn k = some c := by
  obtain hnone | hsame := h k
  · cases hnone.symm.trans hc
  · exact hsame.symm.trans hc

theorem Run.trans (run : Run limit s t s') {s''} (h : Run limit s' es s'') :
    Run limit s (t ++ es) s'' := by
  induction h
  case start => rwa [append_nil]
  case step hstep ih =>
    rw [← append_assoc]
    exact ih.step hstep

-- Whoever is connected was so before, or has joined.
theorem Run.label (run : Run limit s t s') (h : s'.conn k = some c) :
    (∃ d, s.conn k = some d ∧ d.label = c.label) ∨ ∃ g n, .joined k c.label g n ∈ t := by
  induction run generalizing c
  case start => exact .inl ⟨c, h, rfl⟩
  case step s₁ es s₂ _ hstep ih =>
    suffices (∃ d, s₁.conn k = some d ∧ d.label = c.label) ∨ ∃ g n, .joined k c.label g n ∈ es by
      obtain ⟨d, hd, hlabel⟩ | ⟨g, n, hjoined⟩ := this
      · rw [← hlabel]
        exact (ih hd).imp_right fun ⟨g, n, hmem⟩ => ⟨g, n, mem_append_left _ hmem⟩
      · exact .inr ⟨g, n, mem_append_right _ hjoined⟩
    cases hstep
    case expire hconn => exact .inl ⟨c, conn_of_expire hconn h, rfl⟩
    case raise => exact .inl ⟨c, h, rfl⟩
    case leave => exact .inl ⟨c, (conn_of_set_none h).2, rfl⟩
    case join =>
      obtain ⟨rfl, rfl⟩ | ⟨-, hc⟩ := conn_of_set_some h
      · exact .inr ⟨_, _, mem_singleton_self _⟩
      · exact .inl ⟨c, hc, rfl⟩
    case count hd | rejoin hd _ _ | take hd _ | reopen hd _ | ready hd =>
      obtain ⟨rfl, rfl⟩ | ⟨-, hc⟩ := conn_of_set_some h
      · exact .inl ⟨_, hd, rfl⟩
      · exact .inl ⟨c, hc, rfl⟩

-- Generations only go up, and a connection has that of the latest join of its key.
structure Fenced (limit : ℕ) (t : List (Event κ ι)) (s : State κ ι) : Prop where
  increasing : (joins t).Pairwise (·.2 < ·.2)
  bounded    : ∀ j ∈ joins t, j.2 ≤ s.last
  limited    : ∀ j ∈ joins t, j.2 ≤ limit
  current    : ∀ k c, s.conn k = some c → latest k t = some (k, c.generation)

variable {c' : Conn ι}

namespace Fenced

-- What is not a join leaves the generations alone.
theorem of_same (h : Fenced limit t s) (hj : joins es = []) (hlast : s.last ≤ s'.last)
    (hconn : ∀ k c', s'.conn k = some c' → ∃ c, s.conn k = some c ∧ c.generation = c'.generation) :
    Fenced limit (t ++ es) s' := by
  have hjoins : joins (t ++ es) = joins t := by
    rw [joins, filterMap_append]
    change joins t ++ joins es = _
    rw [hj, append_nil]
  have hlatest : ∀ k, latest k (t ++ es) = latest k t := fun k => by rw [latest, hjoins, latest]
  constructor
  case increasing => rw [hjoins]; exact h.increasing
  case bounded    => rw [hjoins]; exact fun j hm => le_trans (h.bounded j hm) hlast
  case limited    => rw [hjoins]; exact h.limited
  case current    =>
    intro k c' hc'
    obtain ⟨c, hc, hg⟩ := hconn k c' hc'
    rw [hlatest, ← hg]
    exact h.current k c hc

theorem of_set (h : Fenced limit t s) (hj : joins es = [])
    (hc : s.conn k = some c) (hg : c'.generation = c.generation) :
    Fenced limit (t ++ es) ({ s with channels }.set k (some c')) := by
  refine h.of_same hj le_rfl fun k' d hd => ?_
  obtain ⟨rfl, rfl⟩ | ⟨_, hd⟩ := conn_of_set_some hd
  · exact ⟨c, hc, hg.symm⟩
  · exact ⟨d, hd, rfl⟩

theorem of_join (h : Fenced limit t s) (hj : joins es = [(k, g)]) (hlast : s.last < g)
    (hlimit : g ≤ limit) (hg : c.generation = g) :
    Fenced limit (t ++ es) ({ s with last := g, channels }.set k (some c)) := by
  have hjoins : joins (t ++ es) = joins t ++ [(k, g)] := by
    rw [joins, filterMap_append, ← hj]
    rfl
  constructor
  case increasing =>
    rw [hjoins, pairwise_append]
    refine ⟨h.increasing, pairwise_singleton .., fun j hm j' hm' => ?_⟩
    cases mem_singleton.mp hm'
    exact lt_of_le_of_lt (h.bounded j hm) hlast
  case bounded =>
    rw [hjoins, forall_mem_append]
    exact ⟨fun j hm => le_trans (h.bounded j hm) (Nat.le_of_lt hlast), by simp [State.set]⟩
  case limited =>
    rw [hjoins, forall_mem_append]
    exact ⟨h.limited, by simpa using hlimit⟩
  case current =>
    intro k' d hd
    rw [latest, hjoins, filter_append, getLast?_append]
    obtain ⟨rfl, rfl⟩ | ⟨hne, hd⟩ := conn_of_set_some hd
    · simp [hg]
    · have hcur := h.current k' d hd
      simpa [Ne.symm hne, latest] using hcur

theorem step (h : Fenced limit t s) (hstep : Step limit s es s') : Fenced limit (t ++ es) s' := by
  cases hstep
  case expire hconn => exact h.of_same rfl le_rfl fun _ c hc => ⟨c, conn_of_expire hconn hc, rfl⟩
  case raise hle => exact h.of_same rfl hle fun _ c hc => ⟨c, hc, rfl⟩
  case count hc => exact h.of_set rfl hc rfl
  case join _ hlt hle => exact h.of_join rfl hlt hle rfl
  case rejoin _ hlt hle => exact h.of_join rfl hlt hle rfl
  case take hc _ => exact h.of_set rfl hc rfl
  case reopen hc _ => exact h.of_set rfl hc rfl
  case ready hc => exact h.of_set rfl hc rfl
  case leave => exact h.of_same rfl le_rfl fun _ d hd => ⟨d, (conn_of_set_none hd).2, rfl⟩

end Fenced

theorem Run.fenced (run : Run limit .empty t s) : Fenced limit t s := by
  induction run
  case start => exact ⟨.nil, by simp [joins], by simp [joins], fun _ _ h => nomatch h⟩
  case step hstep ih => exact ih.step hstep

-- A receiver is handed out once, and only for the channel its connection sends on.
structure Connected (t : List (Event κ ι)) (s : State κ ι) : Prop where
  once     : (handed t).Nodup
  opened   : ∀ channel ∈ handed t, channel < s.channels
  sender   : ∀ k c, s.conn k = some c → c.sender < s.channels
  apart    : ∀ k k' c c', s.conn k = some c → s.conn k' = some c' → c.sender = c'.sender → k = k'
  prepared : ∀ k c channel, s.conn k = some c → c.receiver = some channel →
    channel = c.sender ∧ channel ∉ handed t

namespace Connected

omit [DecidableEq κ] in
theorem handed_append : handed (t ++ es) = handed t ++ handed es :=
  filterMap_append

omit [DecidableEq κ] in
theorem of_keep (h : Connected t s) (hh : handed es = []) (hle : s.channels = s'.channels)
    (hconn : ∀ k c', s'.conn k = some c' →
      ∃ c, s.conn k = some c ∧ c'.sender = c.sender ∧ c'.receiver = c.receiver) :
    Connected (t ++ es) s' := by
  have hhanded : handed (t ++ es) = handed t := by rw [handed_append, hh, append_nil]
  constructor
  case once   => rw [hhanded]; exact h.once
  case opened => rw [hhanded, ← hle]; exact h.opened
  case sender =>
    intro k c' hc'
    obtain ⟨c, hc, hs, _⟩ := hconn k c' hc'
    rw [hs, ← hle]
    exact h.sender k c hc
  case apart =>
    intro k₁ k₂ c₁' c₂' hc₁' hc₂' heq
    obtain ⟨c₁, hc₁, hs₁, _⟩ := hconn k₁ c₁' hc₁'
    obtain ⟨c₂, hc₂, hs₂, _⟩ := hconn k₂ c₂' hc₂'
    exact h.apart k₁ k₂ c₁ c₂ hc₁ hc₂ (hs₁.symm.trans (heq.trans hs₂))
  case prepared =>
    intro k c' channel hc' hr'
    obtain ⟨c, hc, hs, hr⟩ := hconn k c' hc'
    rw [hhanded, hs]
    exact h.prepared k c channel hc (hr.symm.trans hr')

theorem of_set (h : Connected t s) (hh : handed es = []) (hc : s.conn k = some c)
    (hs : c'.sender = c.sender) (hr : c'.receiver = c.receiver) :
    Connected (t ++ es) (s.set k (some c')) := by
  refine h.of_keep hh rfl fun k' d hd => ?_
  obtain ⟨rfl, rfl⟩ | ⟨_, hd⟩ := conn_of_set_some hd
  · exact ⟨c, hc, hs, hr⟩
  · exact ⟨d, hd, rfl, rfl⟩

-- A connection gets the next channel, whose receiver is kept ready or handed out at once.
theorem of_open (h : Connected t s) (hs : c.sender = s.channels)
    (hr : c.receiver = some s.channels ∧ handed es = [] ∨
      c.receiver = none ∧ handed es = [s.channels]) :
    Connected (t ++ es) ({ s with last, channels := s.channels + 1 }.set k (some c)) := by
  have hnew : s.channels ∉ handed t := fun hm => Nat.lt_irrefl _ (h.opened _ hm)
  constructor
  case once =>
    rw [handed_append]
    obtain ⟨_, hh⟩ | ⟨_, hh⟩ := hr <;> rw [hh]
    · rw [append_nil]; exact h.once
    · exact h.once.append (nodup_singleton _) (disjoint_singleton.mpr hnew)
  case opened =>
    intro channel hm
    change channel < s.channels + 1
    rw [handed_append, mem_append] at hm
    obtain hold | hes := hm
    · exact lt_succ_of_lt (h.opened channel hold)
    · obtain ⟨_, hh⟩ | ⟨_, hh⟩ := hr <;> rw [hh] at hes
      · cases hes
      · rw [mem_singleton.mp hes]; exact lt_succ_self _
  case sender =>
    intro k' d hd
    change d.sender < s.channels + 1
    obtain ⟨_, rfl⟩ | ⟨_, hd⟩ := conn_of_set_some hd
    · rw [hs]; exact lt_succ_self _
    · exact lt_succ_of_lt (h.sender k' d hd)
  case apart =>
    intro k₁ k₂ c₁ c₂ hset₁ hset₂ heq
    obtain ⟨h₁, rfl⟩ | ⟨_, hc₁⟩ := conn_of_set_some hset₁ <;>
      obtain ⟨h₂, rfl⟩ | ⟨_, hc₂⟩ := conn_of_set_some hset₂
    · exact h₁.trans h₂.symm
    · exact absurd (heq.symm.trans hs) (Nat.ne_of_lt (h.sender k₂ c₂ hc₂))
    · exact absurd (heq.trans hs) (Nat.ne_of_lt (h.sender k₁ c₁ hc₁))
    · exact h.apart k₁ k₂ c₁ c₂ hc₁ hc₂ heq
  case prepared =>
    intro k' d channel hd hreceiver
    rw [handed_append, mem_append, not_or]
    obtain ⟨_, rfl⟩ | ⟨_, hd⟩ := conn_of_set_some hd
    · obtain ⟨hr, hh⟩ | ⟨hr, _⟩ := hr <;> rw [hr] at hreceiver <;> cases hreceiver
      exact ⟨hs.symm, hnew, by simp [hh]⟩
    · obtain ⟨hsender, hnot⟩ := h.prepared k' d channel hd hreceiver
      have hlt : channel < s.channels := hsender ▸ h.sender k' d hd
      obtain ⟨_, hh⟩ | ⟨_, hh⟩ := hr
      · exact ⟨hsender, hnot, by simp [hh]⟩
      · exact ⟨hsender, hnot, by simpa [hh] using Nat.ne_of_lt hlt⟩

-- The receiver that was kept ready is handed out, and no other connection has it.
theorem of_take (h : Connected t s) (hc : s.conn k = some c) (hr : c.receiver = some channel)
    (hh : handed es = [channel]) :
    Connected (t ++ es) (s.set k (some { c with receiver := none })) := by
  obtain ⟨hsender, hnot⟩ := h.prepared k c channel hc hr
  have hconn : ∀ k' d, (s.set k (some { c with receiver := none })).conn k' = some d →
      ∃ c', s.conn k' = some c' ∧ d.sender = c'.sender ∧
        (k' ≠ k → d = c') ∧ (k' = k → d.receiver = none) := by
    intro k' d hd
    obtain ⟨rfl, rfl⟩ | ⟨hne, hd⟩ := conn_of_set_some hd
    · exact ⟨c, hc, rfl, fun hne => absurd rfl hne, fun _ => rfl⟩
    · exact ⟨d, hd, rfl, fun _ => rfl, fun heq => absurd heq hne⟩
  constructor
  case once =>
    rw [handed_append, hh]
    exact h.once.append (nodup_singleton _) (disjoint_singleton.mpr hnot)
  case opened =>
    rw [handed_append, hh, forall_mem_append]
    refine ⟨h.opened, fun ch hm => ?_⟩
    rw [mem_singleton.mp hm, hsender]
    exact h.sender k c hc
  case sender =>
    intro k' d hd
    obtain ⟨c', hc', hs, _⟩ := hconn k' d hd
    exact hs ▸ h.sender k' c' hc'
  case apart =>
    intro k₁ k₂ d₁ d₂ hd₁ hd₂ heq
    obtain ⟨c₁, hc₁, hs₁, _⟩ := hconn k₁ d₁ hd₁
    obtain ⟨c₂, hc₂, hs₂, _⟩ := hconn k₂ d₂ hd₂
    exact h.apart k₁ k₂ c₁ c₂ hc₁ hc₂ (hs₁.symm.trans (heq.trans hs₂))
  case prepared =>
    intro k' d channel' hd hr'
    obtain ⟨c', hc', hs', hother, hself⟩ := hconn k' d hd
    by_cases heq : k' = k
    case pos => rw [hself heq] at hr'; cases hr'
    case neg =>
      cases hother heq
      obtain ⟨hsender', hnot'⟩ := h.prepared k' d channel' hc' hr'
      refine ⟨hsender', ?_⟩
      rw [handed_append, hh, mem_append, mem_singleton, not_or]
      refine ⟨hnot', fun hsame => heq ?_⟩
      exact h.apart k' k d c hc' hc (hsender'.symm.trans (hsame.trans hsender))

theorem step (h : Connected t s) (hstep : Step limit s es s') : Connected (t ++ es) s' := by
  cases hstep
  case expire hconn =>
    exact h.of_keep rfl rfl fun _ c hc => ⟨c, conn_of_expire hconn hc, rfl, rfl⟩
  case raise => exact h.of_keep rfl rfl fun _ c hc => ⟨c, hc, rfl, rfl⟩
  case count hc => exact h.of_set rfl hc rfl rfl
  case join => exact h.of_open rfl (.inl ⟨rfl, rfl⟩)
  case rejoin => exact h.of_open rfl (.inl ⟨rfl, rfl⟩)
  case take hc hr => exact h.of_take hc hr rfl
  case reopen hc hr => exact h.of_open rfl (.inr ⟨hr, rfl⟩)
  case ready hc => exact h.of_set rfl hc rfl rfl
  case leave =>
    exact h.of_keep rfl rfl fun _ d hd => ⟨d, (conn_of_set_none hd).2, rfl, rfl⟩

end Connected

theorem Run.connected (run : Run limit .empty t s) : Connected t s := by
  induction run
  case start =>
    refine ⟨.nil, by simp [handed], ?_, ?_, ?_⟩
    all_goals intros; contradiction
  case step hstep ih => exact ih.step hstep

-- Until its key enters a second time, what is counted for a connection only goes up.
structure Counting (k : κ) (t : List (Event κ ι)) (s : State κ ι) : Prop where
  before     : t.countP (Event.enters k) = 0 → counted k t = [] ∧ s.conn k = none
  increasing : t.countP (Event.enters k) ≤ 1 → (counted k t).Pairwise (· < ·)
  current    : t.countP (Event.enters k) ≤ 1 →
    ∀ c, s.conn k = some c → ∀ n ∈ counted k t, n ≤ c.sequence

namespace Counting

theorem counted_append : counted k (t ++ es) = counted k t ++ counted k es :=
  filterMap_append

theorem of_keep (h : Counting k t s) (hes : counted k es = []) (hent : es.countP (Event.enters k) = 0)
    (hconn : ∀ c', s'.conn k = some c' → ∃ c, s.conn k = some c ∧ c.sequence ≤ c'.sequence) :
    Counting k (t ++ es) s' := by
  have hcounted : counted k (t ++ es) = counted k t := by rw [counted_append, hes, append_nil]
  have hcount : (t ++ es).countP (Event.enters k) = t.countP (Event.enters k) := by
    rw [countP_append, hent, Nat.add_zero]
  constructor <;> rw [hcounted, hcount] <;> intro hn
  case before =>
    obtain ⟨hnil, hnone⟩ := h.before hn
    refine ⟨hnil, Option.eq_none_iff_forall_ne_some.mpr fun c' hc' => ?_⟩
    obtain ⟨c, hc, _⟩ := hconn c' hc'
    cases hnone.symm.trans hc
  case increasing => exact h.increasing hn
  case current =>
    intro c' hc' n hm
    obtain ⟨c, hc, hle⟩ := hconn c' hc'
    exact le_trans (h.current hn c hc n hm) hle

theorem of_next (h : Counting k t s) (hc : s.conn k = some c) (hes : counted k es = [c.sequence + 1])
    (hent : es.countP (Event.enters k) = 0)
    (hconn : ∀ c', s'.conn k = some c' → c.sequence + 1 ≤ c'.sequence) :
    Counting k (t ++ es) s' := by
  have hcount : (t ++ es).countP (Event.enters k) = t.countP (Event.enters k) := by
    rw [countP_append, hent, Nat.add_zero]
  constructor <;> rw [counted_append, hes, hcount] <;> intro hn
  case before => cases (h.before hn).2.symm.trans hc
  case increasing =>
    refine pairwise_append.mpr ⟨h.increasing hn, pairwise_singleton .., ?_⟩
    intro n hm n' hm'
    rw [mem_singleton.mp hm']
    exact lt_succ_of_le (h.current hn c hc n hm)
  case current =>
    intro c' hc' n hm
    obtain hold | hnew := mem_append.mp hm
    · exact le_trans (h.current hn c hc n hold) (le_trans (le_succ _) (hconn c' hc'))
    · exact mem_singleton.mp hnew ▸ hconn c' hc'

theorem of_enter (h : Counting k t s) (hes : counted k es = [1]) (hent : es.countP (Event.enters k) = 1)
    (hconn : ∀ c', s'.conn k = some c' → 1 ≤ c'.sequence) : Counting k (t ++ es) s' := by
  have hcount : (t ++ es).countP (Event.enters k) = t.countP (Event.enters k) + 1 := by
    rw [countP_append, hent]
  have hfirst : t.countP (Event.enters k) + 1 ≤ 1 → counted k t = [] :=
    fun hn => (h.before (le_zero.mp (le_of_succ_le_succ hn))).1
  constructor <;> rw [counted_append, hes, hcount] <;> intro hn
  case before     => cases hn
  case increasing => rw [hfirst hn]; exact pairwise_singleton ..
  case current    =>
    rw [hfirst hn]
    exact fun c' hc' n hm => mem_singleton.mp hm ▸ hconn c' hc'

theorem of_set (h : Counting k t s) (hes : counted k es = [])
    (hent : es.countP (Event.enters k) = 0) (hc : s.conn k' = some c) (hle : c.sequence ≤ c'.sequence) :
    Counting k (t ++ es) ({ s with last, channels }.set k' (some c')) := by
  refine h.of_keep hes hent fun d hd => ?_
  obtain ⟨rfl, rfl⟩ | ⟨_, hd⟩ := conn_of_set_some hd
  · exact ⟨c, hc, hle⟩
  · exact ⟨d, hd, le_rfl⟩

-- An event that counts the next number for its own key, whichever that is.
theorem of_count (h : Counting k t s) (hc : s.conn k' = some c)
    (he : e.counted k = if k' = k then some (c.sequence + 1) else none) (hent : e.enters k = false)
    (hseq : c'.sequence = c.sequence + 1) :
    Counting k (t ++ [e]) ({ s with last, channels }.set k' (some c')) := by
  have hent' : [e].countP (Event.enters k) = 0 := by simp [hent]
  by_cases heq : k' = k
  case pos =>
    subst heq
    refine h.of_next hc (by simp [counted, he]) hent' fun d hd => ?_
    obtain ⟨_, rfl⟩ | ⟨hne, _⟩ := conn_of_set_some hd
    · exact Nat.le_of_eq hseq.symm
    · exact absurd rfl hne
  case neg => exact h.of_set (by simp [counted, he, heq]) hent' hc (hseq ▸ le_succ _)

theorem step (h : Counting k t s) (hstep : Step limit s es s') : Counting k (t ++ es) s' := by
  cases hstep
  case expire hconn =>
    exact h.of_keep rfl rfl fun c hc => ⟨c, conn_of_expire hconn hc, le_rfl⟩
  case raise => exact h.of_keep rfl rfl fun c hc => ⟨c, hc, le_rfl⟩
  case count hc     => exact h.of_set rfl rfl hc (le_succ _)
  case take hc _    => exact h.of_set rfl rfl hc le_rfl
  case join k' _ g _ _ _ =>
    by_cases heq : k' = k
    case pos =>
      exact h.of_enter (by simp [counted, Event.counted, heq]) (by simp [Event.enters, heq])
        (by simp [State.conn_set, heq])
    case neg =>
      refine h.of_keep (by simp [counted, Event.counted, heq]) (by simp [Event.enters, heq])
        fun d hd => ?_
      obtain ⟨hself, _⟩ | ⟨_, hd⟩ := conn_of_set_some hd
      · exact absurd hself.symm heq
      · exact ⟨d, hd, le_rfl⟩
  case rejoin hc _ _ => exact h.of_count hc rfl rfl rfl
  case reopen hc _   => exact h.of_count hc rfl rfl rfl
  case ready hc      => exact h.of_count hc rfl rfl rfl
  case leave k' c hc =>
    by_cases heq : k' = k
    case pos =>
      subst heq
      exact h.of_next hc (by simp [counted, Event.counted]) rfl fun _ hd =>
        absurd rfl (conn_of_set_none hd).1
    case neg =>
      exact h.of_keep (by simp [counted, Event.counted, heq]) rfl fun d hd =>
        ⟨d, (conn_of_set_none hd).2, le_rfl⟩

end Counting

theorem Run.counting (run : Run limit .empty t s) (k : κ) : Counting k t s := by
  induction run
  case start => exact ⟨fun _ => ⟨rfl, rfl⟩, fun _ => .nil, fun _ _ h => nomatch h⟩
  case step hstep ih => exact ih.step hstep

end Leases
