import Ucr.Store.Theorems.Invariant

-- The limiter of requests: it keeps the count of one window and the last time it has seen, which is
-- enough to hold every window to its limit and to say exactly when a refused caller may come back.

namespace Ucr

open Except Relation MemoryState List Table

abbrev ServiceRequestAnswer := Except ServiceQuotaConsumeError Unit

namespace ServiceRateLimitPolicy

def windowStart (policy : ServiceRateLimitPolicy) (now : ℤ) : ℤ :=
  now - now % policy.windowMs.val

structure Valid (policy : ServiceRateLimitPolicy) : Prop where
  subject     : policy.subject.principal.kind = .serviceAccount
  maxRequests : 0 < policy.maxRequests.val
  windowMs    : 0 < policy.windowMs.val
  bounded     : policy.windowMs.val ≤ maxI64

structure Counts (policy : ServiceRateLimitPolicy) (usage : MemoryQuotaUsage) : Prop where
  start    : usage.windowStartUnixMs = policy.windowStart usage.lastObservedUnixMs
  observed : 0 ≤ usage.lastObservedUnixMs
  used     : usage.usedRequests ≤ policy.maxRequests.val

-- What the limiter of a policy keeps.
structure InOrder (policy : ServiceRateLimitPolicy) (usage? : Option MemoryQuotaUsage) : Prop where
  valid  : policy.Valid
  counts : ∀ usage ∈ usage?, policy.Counts usage

-- The requests already counted in the window of a time.
def used (policy : ServiceRateLimitPolicy) (usage? : Option MemoryQuotaUsage) (now : ℤ) : ℕ :=
  match usage? with
  | some usage => if usage.windowStartUnixMs = policy.windowStart now then usage.usedRequests else 0
  | none => 0

def noted (policy : ServiceRateLimitPolicy) (usage? : Option MemoryQuotaUsage) (now : ℤ) :
    MemoryQuotaUsage :=
  ⟨policy.windowStart now, policy.used usage? now, now⟩

-- What one request can do: it is turned away for its time, let through or refused. In the last two
-- cases its time is noted.
inductive Answers (policy : ServiceRateLimitPolicy) (usage? : Option MemoryQuotaUsage) (now : ℤ) :
    ServiceRequestAnswer → Option MemoryQuotaUsage → Prop
  | rollback (h : 0 ≤ now → ∃ usage ∈ usage?, now < usage.lastObservedUnixMs) :
    Answers policy usage? now (.error .clockRollback) usage?
  | admitted (positive : 0 ≤ now) (later : ∀ usage ∈ usage?, usage.lastObservedUnixMs ≤ now)
      (free : policy.used usage? now < policy.maxRequests.val) :
    Answers policy usage? now (.ok ())
      (some { policy.noted usage? now with usedRequests := policy.used usage? now + 1 })
  | refused (e : ServiceQuotaConsumeError) (positive : 0 ≤ now)
      (later : ∀ usage ∈ usage?, usage.lastObservedUnixMs ≤ now)
      (spent : policy.used usage? now = policy.maxRequests.val)
      (retry : ∀ r, e = .rateLimited r → now + r = policy.windowStart now + policy.windowMs.val) :
    Answers policy usage? now (.error e) (some (policy.noted usage? now))

-- A sequence of requests with their answers.
inductive AnswersAll (policy : ServiceRateLimitPolicy) :
    Option MemoryQuotaUsage → List (ℤ × ServiceRequestAnswer) → Prop
  | nil (usage? : Option MemoryQuotaUsage) : AnswersAll policy usage? []
  | cons {usage? usage?' now answer calls} (head : policy.Answers usage? now answer usage?')
      (tail : AnswersAll policy usage?' calls) : AnswersAll policy usage? ((now, answer) :: calls)

variable {policy : ServiceRateLimitPolicy} {usage? usage?' : Option MemoryQuotaUsage} {now t : ℤ}
variable {answer : ServiceRequestAnswer} {k : ℤ}
variable {calls : List (ℤ × ServiceRequestAnswer)}

section Windows

theorem windowStart_eq_mul :
    policy.windowStart now = now / policy.windowMs.val * policy.windowMs.val := by
  have := Int.ediv_mul_add_emod now policy.windowMs.val
  unfold windowStart
  omega

theorem windowStart_le (hvalid : policy.Valid) (now : ℤ) : policy.windowStart now ≤ now := by
  have := Int.emod_nonneg now (b := policy.windowMs.val) (by have := hvalid.windowMs; omega)
  unfold windowStart
  omega

theorem lt_windowEnd (hvalid : policy.Valid) (now : ℤ) :
    now < policy.windowStart now + policy.windowMs.val := by
  have := Int.emod_lt_of_pos now (b := policy.windowMs.val) (by have := hvalid.windowMs; omega)
  unfold windowStart
  omega

theorem windowStart_mono (hvalid : policy.Valid) (h : t ≤ now) :
    policy.windowStart t ≤ policy.windowStart now := by
  have hpos : (0 : ℤ) < policy.windowMs.val := by exact_mod_cast hvalid.windowMs
  rw [windowStart_eq_mul, windowStart_eq_mul]
  exact Int.mul_le_mul_of_nonneg_right (Int.ediv_le_ediv hpos h) hpos.le

-- The window that a time falls into.
theorem windowStart_eq_iff (hvalid : policy.Valid) (now k : ℤ) :
    policy.windowStart now = k * policy.windowMs.val ↔
      k * policy.windowMs.val ≤ now ∧ now < (k + 1) * policy.windowMs.val := by
  have hpos : (0 : ℤ) < policy.windowMs.val := by exact_mod_cast hvalid.windowMs
  have hle := windowStart_le hvalid now
  have hlt := lt_windowEnd hvalid now
  constructor
  · intro h
    rw [Int.add_mul, Int.one_mul]
    omega
  · rintro ⟨hstart, hend⟩
    have hge : k ≤ now / policy.windowMs.val := (Int.le_ediv_iff_mul_le hpos).mpr hstart
    have hlt : now / policy.windowMs.val < k + 1 := Int.ediv_lt_of_lt_mul hpos hend
    rw [windowStart_eq_mul, le_antisymm (Int.lt_add_one_iff.mp hlt) hge]

theorem windowStart_windowEnd (hvalid : policy.Valid) :
    policy.windowStart (policy.windowStart now + policy.windowMs.val) =
      policy.windowStart now + policy.windowMs.val := by
  have hpos : (0 : ℤ) < policy.windowMs.val := by exact_mod_cast hvalid.windowMs
  have hend : policy.windowStart now + policy.windowMs.val =
      (now / policy.windowMs.val + 1) * policy.windowMs.val := by
    rw [windowStart_eq_mul, Int.add_mul, Int.one_mul]
  rw [hend, windowStart_eq_iff hvalid, Int.add_mul (_ + 1), Int.one_mul]
  omega

end Windows

section Counts

theorem used_le (horder : policy.InOrder usage?) :
    policy.used usage? now ≤ policy.maxRequests.val := by
  unfold used
  split
  case h_1 usage => split <;> simp [(horder.counts usage rfl).used]
  case h_2 => simp

theorem Answers.inOrder (h : policy.Answers usage? now answer usage?')
    (horder : policy.InOrder usage?) : policy.InOrder usage?' := by
  cases h
  case rollback => exact horder
  case admitted positive _ free =>
    refine ⟨horder.valid, ?_⟩
    rintro _ ⟨⟩
    exact ⟨rfl, positive, free⟩
  case refused positive _ _ _ =>
    refine ⟨horder.valid, ?_⟩
    rintro _ ⟨⟩
    exact ⟨rfl, positive, used_le horder⟩

-- The requests let through in a window, counting one that is past as spent.
def spent (policy : ServiceRateLimitPolicy) (k : ℤ) (usage? : Option MemoryQuotaUsage) : ℕ :=
  match usage? with
  | none => 0
  | some usage =>
    if usage.windowStartUnixMs < k * policy.windowMs.val then 0
    else if usage.windowStartUnixMs = k * policy.windowMs.val then usage.usedRequests
    else policy.maxRequests.val

def AdmittedIn (policy : ServiceRateLimitPolicy) (k : ℤ) (call : ℤ × ServiceRequestAnswer) : Prop :=
  call.2 = .ok () ∧ k * policy.windowMs.val ≤ call.1 ∧ call.1 < (k + 1) * policy.windowMs.val

instance : DecidablePred (policy.AdmittedIn k) :=
  fun call => inferInstanceAs (Decidable (call.2 = .ok () ∧
    k * policy.windowMs.val ≤ call.1 ∧ call.1 < (k + 1) * policy.windowMs.val))

section Spent

variable {usage : MemoryQuotaUsage}

theorem spent_of_lt (h : usage.windowStartUnixMs < k * policy.windowMs.val) :
    policy.spent k (some usage) = 0 := by
  simp [spent, h]

theorem spent_of_eq (h : usage.windowStartUnixMs = k * policy.windowMs.val) :
    policy.spent k (some usage) = usage.usedRequests := by
  simp [spent, h]

theorem spent_of_gt (h : k * policy.windowMs.val < usage.windowStartUnixMs) :
    policy.spent k (some usage) = policy.maxRequests.val := by
  simp [spent, h.not_gt, h.ne']

end Spent

variable (horder : policy.InOrder usage?)
include horder

theorem spent_le :
    policy.spent k usage? ≤ policy.maxRequests.val := by
  unfold spent
  split
  case h_1 => simp
  case h_2 usage =>
    have := (horder.counts usage rfl).used
    split_ifs <;> omega

theorem spent_le_used
    (hlater : ∀ usage ∈ usage?, usage.lastObservedUnixMs ≤ now)
    (hk : k * policy.windowMs.val = policy.windowStart now) :
    policy.spent k usage? ≤ policy.used usage? now := by
  cases usage?
  case none => simp [spent]
  case some usage =>
    have hmono := windowStart_mono horder.valid (hlater usage rfl)
    rw [← (horder.counts usage rfl).start, ← hk] at hmono
    rcases hmono.lt_or_eq with hlt | heq
    · simp [spent_of_lt hlt]
    · simp [spent_of_eq heq, used, heq, hk]

theorem spent_eq_zero
    (hlater : ∀ usage ∈ usage?, usage.lastObservedUnixMs ≤ now)
    (hk : policy.windowStart now < k * policy.windowMs.val) : policy.spent k usage? = 0 := by
  cases usage?
  case none => rfl
  case some usage =>
    have hmono := windowStart_mono horder.valid (hlater usage rfl)
    exact spent_of_lt ((horder.counts usage rfl).start ▸ hmono.trans_lt hk)

-- Noting a request spends nothing that was not spent before, and closes the windows behind it.
theorem Answers.spent_le (h : policy.Answers usage? now answer usage?') :
    policy.spent k usage? + (if policy.AdmittedIn k (now, answer) then 1 else 0) ≤
      policy.spent k usage?' := by
  have hwindow := windowStart_eq_iff horder.valid now k
  cases h
  case rollback => simp [AdmittedIn]
  case refused _ later _ _ =>
    simp only [AdmittedIn, reduceCtorEq, false_and, if_false, Nat.add_zero]
    rcases lt_trichotomy (policy.windowStart now) (k * policy.windowMs.val) with hlt | heq | hgt
    · simp [spent_eq_zero horder later hlt]
    · rw [spent_of_eq heq]
      exact spent_le_used horder later heq.symm
    · rw [spent_of_gt hgt]
      exact ServiceRateLimitPolicy.spent_le horder
  case admitted _ later free =>
    simp only [AdmittedIn, true_and, ← hwindow]
    rcases lt_trichotomy (policy.windowStart now) (k * policy.windowMs.val) with hlt | heq | hgt
    · simp [spent_eq_zero horder later hlt, hlt.ne]
    · rw [spent_of_eq heq, if_pos heq]
      exact Nat.succ_le_succ (spent_le_used horder later heq.symm)
    · rw [spent_of_gt hgt, if_neg hgt.ne']
      exact ServiceRateLimitPolicy.spent_le horder

-- No window lets through more than what was left of it.
theorem AnswersAll.countP_le (h : policy.AnswersAll usage? calls) :
    calls.countP (policy.AdmittedIn k) + policy.spent k usage? ≤ policy.maxRequests.val := by
  induction h
  case nil => simpa using spent_le horder
  case cons head tail ih =>
    have hstep := head.spent_le (k := k) horder
    have hrest := ih (head.inOrder horder)
    rw [countP_cons]
    simp only [decide_eq_true_eq]
    omega

end Counts

section Times

-- The limiter has seen a time, or nothing that is not before it.
def Observed (t : ℤ) (usage? : Option MemoryQuotaUsage) : Prop :=
  0 ≤ t → ∃ usage ∈ usage?, t ≤ usage.lastObservedUnixMs

theorem Answers.observed_self (h : policy.Answers usage? now answer usage?') :
    Observed now usage?' := by
  intro hnow
  cases h
  case rollback h =>
    obtain ⟨usage, hmem, hlt⟩ := h hnow
    exact ⟨usage, hmem, hlt.le⟩
  case admitted | refused => exact ⟨_, rfl, le_rfl⟩

theorem Answers.observed (h : policy.Answers usage? now answer usage?') (ht : Observed t usage?) :
    Observed t usage?' := by
  intro hpos
  obtain ⟨usage, hmem, hle⟩ := ht hpos
  cases h
  case rollback => exact ⟨usage, hmem, hle⟩
  case admitted later _ | refused later _ _ => exact ⟨_, rfl, hle.trans (later usage hmem)⟩

theorem Answers.not_ok_of_lt (h : policy.Answers usage? now answer usage?') (ht : Observed t usage?)
    (hlt : now < t) : answer ≠ .ok () := by
  cases h
  case rollback | refused => simp
  case admitted positive later _ =>
    obtain ⟨usage, hmem, hle⟩ := ht (by omega)
    have := later usage hmem
    omega

theorem AnswersAll.not_ok_of_lt (h : policy.AnswersAll usage? calls) (ht : Observed t usage?) :
    ∀ call ∈ calls, call.1 < t → call.2 ≠ .ok () := by
  induction h
  case nil => simp
  case cons head tail ih =>
    rintro call hmem hlt
    rcases mem_cons.mp hmem with rfl | hmem
    · exact head.not_ok_of_lt ht hlt
    · exact ih (head.observed ht) call hmem hlt

theorem AnswersAll.pairwise (h : policy.AnswersAll usage? calls) :
    calls.Pairwise fun earlier later => later.1 < earlier.1 → later.2 ≠ .ok () := by
  induction h
  case nil => exact .nil
  case cons head tail ih => exact .cons (tail.not_ok_of_lt head.observed_self) ih

end Times

section Retry

theorem AnswersAll.append (h : policy.AnswersAll usage? (earlier ++ later)) :
    ∃ usage?', policy.AnswersAll usage?' later ∧
      (policy.InOrder usage? → policy.InOrder usage?') := by
  induction earlier generalizing usage?
  case nil => exact ⟨usage?, h, id⟩
  case cons call earlier ih =>
    cases h
    case cons head tail =>
      obtain ⟨after, hlater, hkept⟩ := ih tail
      exact ⟨after, hlater, fun h => hkept (head.inOrder h)⟩

-- Everything the limiter has seen lies before a time.
def Before (t : ℤ) (usage? : Option MemoryQuotaUsage) : Prop :=
  ∀ usage ∈ usage?, usage.lastObservedUnixMs < t

theorem Answers.before (h : policy.Answers usage? now answer usage?') (ht : Before t usage?)
    (hnow : now < t) : Before t usage?' := by
  cases h
  case rollback => exact ht
  case admitted | refused =>
    rintro _ ⟨⟩
    exact hnow

-- A request at the start of a window that nothing has been seen of is let through.
theorem Answers.ok_of_before (h : policy.Answers usage? now answer usage?')
    (horder : policy.InOrder usage?) (hbefore : Before now usage?)
    (hstart : policy.windowStart now = now) (hnow : 0 ≤ now) : answer = .ok () := by
  have hused : policy.used usage? now = 0 := by
    cases usage?
    case none => rfl
    case some usage =>
      have hle := windowStart_le horder.valid usage.lastObservedUnixMs
      have hlt := hbefore usage rfl
      have := (horder.counts usage rfl).start
      simp only [used]
      rw [if_neg (by omega)]
  cases h
  case rollback h =>
    obtain ⟨usage, hmem, hlt⟩ := h hnow
    exact absurd hlt (hbefore usage hmem).not_gt
  case refused spent _ =>
    have := horder.valid.maxRequests
    omega
  case admitted => rfl

theorem AnswersAll.ok_of_before (h : policy.AnswersAll usage? (middle ++ (now, answer) :: rest))
    (horder : policy.InOrder usage?) (hbefore : Before now usage?)
    (hmiddle : ∀ call ∈ middle, call.1 < now) (hstart : policy.windowStart now = now)
    (hnow : 0 ≤ now) : answer = .ok () := by
  induction middle generalizing usage?
  case nil =>
    cases h
    case cons head _ => exact head.ok_of_before horder hbefore hstart hnow
  case cons call middle ih =>
    cases h
    case cons head tail =>
      exact ih tail (head.inOrder horder) (head.before hbefore (hmiddle _ mem_cons_self))
        fun call hmem => hmiddle call (by simp [hmem])

-- A refusal closes the window: nobody gets through until it ends, and the first one after does.
theorem AnswersAll.retry (h : policy.AnswersAll usage? ((t, .error (.rateLimited r)) :: later))
    (horder : policy.InOrder usage?) :
    0 < r ∧ r ≤ policy.windowMs.val ∧
      (∀ call ∈ later, t ≤ call.1 → call.1 < t + r → call.2 ≠ .ok ()) ∧
      ∀ (middle rest : List (ℤ × ServiceRequestAnswer)) (answer : ServiceRequestAnswer),
        later = middle ++ (t + r, answer) :: rest →
        (∀ call ∈ middle, call.1 < t + r) → answer = .ok () := by
  cases h
  case cons head tail =>
    have hafter := head.inOrder horder
    cases head
    case refused positive _ spent retry =>
      have hr := retry r rfl
      have hle := windowStart_le horder.valid t
      have hlt := lt_windowEnd horder.valid t
      refine ⟨by omega, by omega, fun call hmem hfrom hto hok => ?_, ?_⟩
      · have hcount := tail.countP_le (k := t / policy.windowMs.val) hafter
        rw [spent_of_eq windowStart_eq_mul] at hcount
        have hzero : later.countP (policy.AdmittedIn (t / policy.windowMs.val)) = 0 := by
          simp only [noted, spent] at hcount
          omega
        refine countP_eq_zero.mp hzero call hmem (decide_eq_true ⟨hok, ?_⟩)
        rw [Int.add_mul, Int.one_mul, ← windowStart_eq_mul]
        omega
      · rintro middle rest answer rfl hmiddle
        refine tail.ok_of_before hafter ?_ hmiddle ?_ (by omega)
        · rintro _ ⟨⟩
          simp only [noted]
          omega
        · rw [hr]
          exact windowStart_windowEnd horder.valid

end Retry

section Consume

theorem valid_of_validate (h : validateServiceRateLimitPolicy policy = .ok ()) : policy.Valid := by
  simp only [validateServiceRateLimitPolicy, validateServiceQuotaPolicy, invalidLimit, ok_iff,
    Bool.or_eq_true, decide_eq_true_eq, not_or, not_lt, not_not] at h
  obtain ⟨-, hkind, ⟨hmax, -⟩, hwindow, hbound⟩ := h
  exact ⟨hkind, Fin.pos_iff_ne_zero.mpr hmax, Fin.pos_iff_ne_zero.mpr hwindow, hbound⟩

def refusal (start windowMs now : ℤ) : ServiceQuotaConsumeError :=
  match retryAfter start windowMs now with
  | .ok r    => .rateLimited r
  | .error e => e

theorem refusal_eq_rateLimited {start windowMs r}
    (h : refusal start windowMs now = .rateLimited r) :
    now + r = start + windowMs := by
  unfold refusal at h
  split at h
  case h_1 r' hretry =>
    obtain rfl := ServiceQuotaConsumeError.rateLimited.inj h
    simp only [retryAfter, ok_iff] at hretry
    obtain ⟨-, -, -, hnonneg, rfl⟩ := hretry
    omega
  case h_2 hretry =>
    simp only [h, retryAfter, bind_eq_error, rejectIf_eq_error, pure_ne_error, reduceCtorEq,
      and_false, exists_false, or_self] at hretry

-- A request that is not before anything seen is counted in its own window.
theorem consume_eq {usage : MemoryQuotaUsage} {maxRequests start windowMs}
    (hlast : usage.lastObservedUnixMs ≤ now) (hstart : usage.windowStartUnixMs ≤ start) :
    usage.consume maxRequests start windowMs now =
      let used := if usage.windowStartUnixMs = start then usage.usedRequests else 0
      if maxRequests.val ≤ used then (.error (refusal start windowMs now), ⟨start, used, now⟩)
      else (.ok (), ⟨start, used + 1, now⟩) := by
  simp only [MemoryQuotaUsage.consume, hlast.not_gt, hstart.not_gt, or_self, if_false]
  rcases hstart.lt_or_eq with hlt | rfl
  · simp only [hlt, hlt.ne, if_true, if_false]
    split
    case isTrue  => split <;> simp only [refusal, *]
    case isFalse => rfl
  · simp only [lt_irrefl, if_true, if_false]
    split
    case isTrue  => split <;> simp only [refusal, *]
    case isFalse => rfl

theorem result_eq (horder : policy.InOrder usage?)
    (hlater : ∀ usage ∈ usage?, usage.lastObservedUnixMs ≤ now) :
    (usage?.getD ⟨policy.windowStart now, 0, now⟩).consume policy.maxRequests
        (policy.windowStart now) policy.windowMs.val now =
      if policy.maxRequests.val ≤ policy.used usage? now then
        (.error (refusal (policy.windowStart now) policy.windowMs.val now), policy.noted usage? now)
      else (.ok (), { policy.noted usage? now with usedRequests := policy.used usage? now + 1 }) := by
  cases usage?
  case none =>
    rw [Option.getD_none, consume_eq le_rfl le_rfl]
    simp only [if_true]
    rfl
  case some usage =>
    have hmono := windowStart_mono horder.valid (hlater usage rfl)
    rw [← (horder.counts usage rfl).start] at hmono
    rw [Option.getD_some, consume_eq (hlater usage rfl) hmono]
    rfl

theorem answers_consume (horder : policy.InOrder usage?) (hnow : 0 ≤ now) :
    let result := (usage?.getD ⟨policy.windowStart now, 0, now⟩).consume policy.maxRequests
      (policy.windowStart now) policy.windowMs.val now
    policy.Answers usage? now result.1 (some result.2) := by
  intro result
  by_cases hlater : ∀ usage ∈ usage?, usage.lastObservedUnixMs ≤ now
  case neg =>
    push Not at hlater
    obtain ⟨usage, rfl, hlt⟩ := hlater
    have hresult : result = (.error .clockRollback, usage) := if_pos (.inl hlt)
    rw [hresult]
    exact .rollback fun _ => ⟨usage, rfl, hlt⟩
  case pos =>
    have hresult := result_eq horder hlater
    simp only [result, hresult]
    split
    case isTrue hspent =>
      exact .refused _ hnow hlater (le_antisymm (used_le horder) hspent)
        fun _ => refusal_eq_rateLimited
    case isFalse hfree => exact .admitted hnow hlater (not_le.mp hfree)

end Consume

end ServiceRateLimitPolicy

-- The time of a request that a policy is about.
def StoreOp.request? (policy : ServiceRateLimitPolicy) : StoreOp → Option ℤ
  | .service (.consumeServiceRequestForClass subject rateClass nowUnixMs) =>
    if subject = policy.subject ∧ rateClass = policy.rateClass then some nowUnixMs else none
  | _ => none

theorem eq_of_request? {policy} {op : StoreOp} {now} (h : op.request? policy = some now) :
    op = .service (.consumeServiceRequestForClass policy.subject policy.rateClass now) := by
  unfold StoreOp.request? at h
  split at h
  case h_1 =>
    split at h
    case isTrue heq =>
      obtain ⟨rfl, rfl⟩ := heq
      rw [Option.some.inj h]
    case isFalse => simp at h
  case h_2 => simp at h

-- Of the principals with one key only one is a service account.
theorem eq_of_servicePrincipalKey_eq (ha : a.principal.kind = .serviceAccount)
    (hb : b.principal.kind = .serviceAccount) (h : servicePrincipalKey a = servicePrincipalKey b) :
    a = b := by
  obtain ⟨scope, id, kind⟩ := a
  obtain ⟨scope', id', kind'⟩ := b
  simp_all [servicePrincipalKey]

namespace MemoryState

open ServiceRateLimitPolicy

variable {s s' : MemoryState} {policy : ServiceRateLimitPolicy} {op : StoreOp}
variable {key : ScopedId × ServiceRequestRateClass}

-- What the store keeps about the requests of one account and class.
structure SameLimiter (key : ScopedId × ServiceRequestRateClass) (s s' : MemoryState) : Prop where
  quota  : s'.serviceQuotaPolicies.get key.1 = s.serviceQuotaPolicies.get key.1
  policy : s'.serviceRateLimitPolicies.get key = s.serviceRateLimitPolicies.get key
  usage  : s'.serviceRateLimitUsage.get key = s.serviceRateLimitUsage.get key

theorem SameLimiter.of_eq (h : s'.toServiceTables = s.toServiceTables) : SameLimiter key s s' where
  quota  := congrArg (·.serviceQuotaPolicies.get key.1) h
  policy := congrArg (·.serviceRateLimitPolicies.get key) h
  usage  := congrArg (·.serviceRateLimitUsage.get key) h

-- A new policy starts without usage.
structure ResetsLimiter (key : ScopedId × ServiceRequestRateClass) (s s' : MemoryState) : Prop where
  changed : s'.serviceQuotaPolicies.get key.1 ≠ s.serviceQuotaPolicies.get key.1 ∨
    s'.serviceRateLimitPolicies.get key ≠ s.serviceRateLimitPolicies.get key
  valid   : ∃ policy, policy.Valid ∧ s'.serviceRateLimitPolicies.get key = some policy
  usage   : s'.serviceRateLimitUsage.get key = none

inductive LimiterStep (key : ScopedId × ServiceRequestRateClass) (s s' : MemoryState) : Prop
  | same (h : SameLimiter key s s')
  | reset (h : ResetsLimiter key s s')

theorem LimiterStep.commit {ε α : Type} {r : Except ε (α × MemoryState)}
    (success : ∀ a s', r = .ok (a, s') → LimiterStep key s s') : LimiterStep key s (r.commit s).2 :=
  commit_snd_cases (.same (.of_eq rfl)) success

theorem setServiceRateLimitPolicy_step :
    LimiterStep key s ((s.setServiceRateLimitPolicy policy).commit s).2 := by
  refine .commit fun _ s' h => ?_
  simp only [setServiceRateLimitPolicy, ok_iff] at h
  obtain ⟨_, hvalid, h⟩ := h
  split at h
  case isTrue =>
    obtain rfl := state_eq h
    exact .same (.of_eq rfl)
  case isFalse hnew =>
    obtain rfl := state_eq h
    by_cases hkey : key = (servicePrincipalKey policy.subject, policy.rateClass)
    · refine .reset ⟨.inr ?_, ⟨policy, valid_of_validate hvalid, ?_⟩, ?_⟩
      · simpa [hkey] using Ne.symm hnew
      · simp [hkey]
      · simp [hkey, get_erase]
    · exact .same ⟨rfl, get_put_ne hkey, by simp [get_erase, hkey]⟩

-- The quota of an account is the policy of all its classes.
theorem setServiceQuotaPolicy_step {policy} :
    LimiterStep key s ((s.setServiceQuotaPolicy policy).commit s).2 := by
  refine .commit fun _ s' h => ?_
  simp only [setServiceQuotaPolicy, ok_iff] at h
  obtain ⟨_, hvalid, h⟩ := h
  split at h
  case isTrue =>
    obtain rfl := state_eq h
    exact .same (.of_eq rfl)
  case isFalse hnew =>
    obtain rfl := state_eq h
    obtain ⟨account, rateClass⟩ := key
    by_cases hkey : account = servicePrincipalKey policy.subject
    · subst hkey
      refine .reset ⟨.inl ?_, ?_, ?_⟩
      · simpa [ServiceRequestRateClass.all] using Ne.symm hnew
      · refine ⟨⟨policy.subject, rateClass, policy.maxRequests, policy.windowMs⟩,
          valid_of_validate hvalid, ?_⟩
        cases rateClass <;> simp [ServiceRequestRateClass.all]
      · cases rateClass <;> simp [ServiceRequestRateClass.all, get_erase]
    · refine .same ⟨?_, ?_, ?_⟩ <;>
        simp [ServiceRequestRateClass.all, get_erase, hkey]

section Requests

variable {subject : ScopedPrincipal} {rateClass : ServiceRequestRateClass} {now : ℤ}

theorem requestPolicy_eq_ok
    (h : s.requestPolicy subject rateClass now = .ok policy) :
    subject.principal.kind = .serviceAccount ∧ 0 ≤ now ∧
      s.serviceRateLimitPolicies.get (servicePrincipalKey subject, rateClass) = some policy := by
  simp only [requestPolicy, validateServiceSubject, ok_iff, not_not, not_lt] at h
  obtain ⟨-, hkind, -, hnow, _, hget, -, -, rfl⟩ := h
  exact ⟨hkind, hnow, hget⟩

theorem requestPolicy_eq (hkind : subject.principal.kind = .serviceAccount) (hvalid : policy.Valid)
    (hpolicy :
      s.serviceRateLimitPolicies.get (servicePrincipalKey subject, rateClass) = some policy) :
    s.requestPolicy subject rateClass now =
      if now < 0 then .error .clockRollback else .ok policy := by
  have hbound := hvalid.bounded
  unfold requestPolicy validateServiceSubject
  rw [hkind, hpolicy]
  by_cases hnow : now < 0
  · simp [hnow, rejectIf, bind, Except.bind]
  · simp [hnow, rejectIf, bind, Except.bind, hbound.not_gt, Option.okOr, pure, Except.pure]

theorem consume_answers (hkind : subject.principal.kind = .serviceAccount)
    (hpolicy :
      s.serviceRateLimitPolicies.get (servicePrincipalKey subject, rateClass) = some policy)
    (horder : policy.InOrder
      (s.serviceRateLimitUsage.get (servicePrincipalKey subject, rateClass))) :
    policy.Answers (s.serviceRateLimitUsage.get (servicePrincipalKey subject, rateClass)) now
      (s.consumeServiceRequestForClass subject rateClass now).1
      ((s.consumeServiceRequestForClass subject rateClass now).2.serviceRateLimitUsage.get
        (servicePrincipalKey subject, rateClass)) := by
  unfold consumeServiceRequestForClass
  rw [requestPolicy_eq hkind horder.valid hpolicy]
  by_cases hnow : now < 0
  · rw [if_pos hnow]
    exact .rollback fun h => absurd hnow h.not_gt
  · rw [if_neg hnow]
    simp only [get_put_self]
    exact answers_consume horder (not_lt.mp hnow)

theorem consume_policies :
    let after := (s.consumeServiceRequestForClass subject rateClass now).2
    after.serviceQuotaPolicies = s.serviceQuotaPolicies ∧
      after.serviceRateLimitPolicies = s.serviceRateLimitPolicies := by
  unfold consumeServiceRequestForClass
  split <;> exact ⟨rfl, rfl⟩

theorem consume_other (hother : subject.principal.kind = .serviceAccount →
      key ≠ (servicePrincipalKey subject, rateClass)) :
    SameLimiter key s (s.consumeServiceRequestForClass subject rateClass now).2 := by
  unfold consumeServiceRequestForClass
  split
  case h_1 => exact .of_eq rfl
  case h_2 hpolicy =>
    exact ⟨rfl, rfl, get_put_ne (hother (requestPolicy_eq_ok hpolicy).1)⟩

end Requests

-- Requests aside, every operation leaves a limiter alone or starts it anew.
theorem run_limiter (key : ScopedId × ServiceRequestRateClass) (hs : s.Keyed) (op : StoreOp) :
    LimiterStep key s (op.run s) ∨
      ∃ subject now, op = .service (.consumeServiceRequestForClass subject key.2 now) ∧
        subject.principal.kind = .serviceAccount ∧ servicePrincipalKey subject = key.1 := by
  by_cases harea : op.area = some .services
  case neg => exact .inl (.same (.of_eq ((run_keeps hs op).services harea)))
  case pos =>
    cases op <;> simp only [StoreOp.area, Option.some.injEq, reduceCtorEq] at harea
    case service op =>
      by_cases hlimits : op.limits
      case neg =>
        have hsame := (serviceOp_writes (s := s) op).limits (by simpa using hlimits)
        obtain ⟨hquota, hpolicies, husage⟩ := hsame
        exact .inl (.same ⟨congrArg (·.get key.1) hquota, congrArg (·.get key) hpolicies,
          congrArg (·.get key) husage⟩)
      case pos =>
        cases op <;> simp only [ServiceOp.limits, Bool.false_eq_true] at hlimits
        case setServiceQuotaPolicy => exact .inl setServiceQuotaPolicy_step
        case setServiceRateLimitPolicy => exact .inl setServiceRateLimitPolicy_step
        case consumeServiceRequestForClass subject rateClass now =>
          by_cases hown : subject.principal.kind = .serviceAccount ∧
              key = (servicePrincipalKey subject, rateClass)
          · obtain ⟨hkind, rfl⟩ := hown
            exact .inr ⟨subject, now, rfl, hkind, rfl⟩
          · exact .inl (.same (consume_other fun hkind hkey => hown ⟨hkind, hkey⟩))

def LimitersSound (s : MemoryState) : Prop :=
  ∀ key policy, s.serviceRateLimitPolicies.get key = some policy →
    policy.InOrder (s.serviceRateLimitUsage.get key)

theorem LimiterStep.sound (h : LimiterStep key s s') (hs : s.LimitersSound)
    (hpolicy : s'.serviceRateLimitPolicies.get key = some policy) :
    policy.InOrder (s'.serviceRateLimitUsage.get key) := by
  cases h
  case same h  => exact h.usage ▸ hs key policy (h.policy ▸ hpolicy)
  case reset h =>
    obtain ⟨policy', hvalid, hget⟩ := h.valid
    obtain rfl := Option.mem_unique hget hpolicy
    exact ⟨hvalid, by simp [h.usage]⟩

theorem LimitersSound.run (h : s.LimitersSound) (hs : s.Keyed) (op : StoreOp) :
    (op.run s).LimitersSound := by
  intro key policy hpolicy
  obtain hstep | ⟨subject, now, rfl, hkind, hkey⟩ := run_limiter key hs op
  · exact hstep.sound h hpolicy
  · obtain ⟨account, rateClass⟩ := key
    obtain rfl : servicePrincipalKey subject = account := hkey
    change (s.consumeServiceRequestForClass subject rateClass now).2.serviceRateLimitPolicies.get _ =
      _ at hpolicy
    rw [consume_policies.2] at hpolicy
    have horder := h _ _ hpolicy
    exact (consume_answers hkind hpolicy horder).inOrder horder

theorem Reachable.limitersSound (hs : s.Reachable) : s.LimitersSound :=
  Reachable.induction .refl hs (by simp [LimitersSound, empty]) fun _ op ht ih =>
    ih.run ht.attainable.keyed op

-- A policy is in force, along with the quota of its account, if there is one.
structure InForce (policy : ServiceRateLimitPolicy) (quota? : Option ServiceQuotaPolicy)
    (s : MemoryState) : Prop where
  quota  : s.serviceQuotaPolicies.get (servicePrincipalKey policy.subject) = quota?
  policy : s.serviceRateLimitPolicies.get (servicePrincipalKey policy.subject, policy.rateClass) =
    some policy

-- The requests a policy is about, with the answers they get.
def requests (policy : ServiceRateLimitPolicy) :
    MemoryState → List StoreOp → List (ℤ × ServiceRequestAnswer)
  | _, [] => []
  | s, op :: ops =>
    ((op.request? policy).map fun now =>
      (now, (s.consumeServiceRequestForClass policy.subject policy.rateClass now).1)).toList ++
    requests policy (op.run s) ops

-- Between two changes of the policy the requests are answered by one limiter.
theorem requests_answersAll (hs : s.Reachable)
    (hforce : ∀ earlier, earlier <+: ops → (s.runAll earlier).InForce policy quota?) :
    policy.AnswersAll
      (s.serviceRateLimitUsage.get (servicePrincipalKey policy.subject, policy.rateClass))
      (s.requests policy ops) := by
  induction ops generalizing s
  case nil => exact .nil _
  case cons op ops ih =>
    have hbefore : s.InForce policy quota? := hforce [] (by simp)
    have hafter : (op.run s).InForce policy quota? := hforce [op] (by simp)
    have htail := ih (s := op.run s) (hs.tail ⟨op, rfl⟩) fun earlier hprefix =>
      hforce (op :: earlier) (cons_prefix_cons.mpr ⟨rfl, hprefix⟩)
    have horder := hs.limitersSound _ _ hbefore.policy
    unfold requests
    rcases hrequest : op.request? policy with _ | now
    case none =>
      obtain (h | h) | ⟨subject, now, rfl, hkind, hkey⟩ := run_limiter
        (servicePrincipalKey policy.subject, policy.rateClass) hs.attainable.keyed op
      · exact h.usage ▸ htail
      · have hquota := hafter.quota.trans hbefore.quota.symm
        have hpolicy := hafter.policy.trans hbefore.policy.symm
        exact (h.changed.elim (· hquota) (· hpolicy)).elim
      · have hsubject := eq_of_servicePrincipalKey_eq hkind horder.valid.subject hkey
        simp [StoreOp.request?, hsubject] at hrequest
    case some =>
      obtain rfl := eq_of_request? hrequest
      exact .cons (consume_answers horder.valid.subject hbefore.policy horder) htail

end MemoryState

-- Between two changes of a policy, whatever else happens in the store: a window lets through at
-- most as many requests as the policy allows, a request with a time before another one's is not let
-- through, and who is refused learns exactly when the window ends.
theorem rate_limit_is_exact {s : MemoryState} {policy : ServiceRateLimitPolicy}
    {quota? : Option ServiceQuotaPolicy} {ops : List StoreOp} (hs : s.Reachable)
    (hforce : ∀ earlier, earlier <+: ops → (s.runAll earlier).InForce policy quota?) :
    let calls := s.requests policy ops
    (∀ k, calls.countP (policy.AdmittedIn k) ≤ policy.maxRequests.val) ∧
      calls.Pairwise (fun earlier later => later.1 < earlier.1 → later.2 ≠ .ok ()) ∧
      ∀ (earlier later : List (ℤ × ServiceRequestAnswer)) (t : ℤ) (r : ℕ),
        calls = earlier ++ (t, .error (.rateLimited r)) :: later →
        0 < r ∧ r ≤ policy.windowMs.val ∧
        (∀ call ∈ later, t ≤ call.1 → call.1 < t + r → call.2 ≠ .ok ()) ∧
        ∀ (middle rest : List (ℤ × ServiceRequestAnswer)) (answer : ServiceRequestAnswer),
          later = middle ++ (t + r, answer) :: rest →
          (∀ call ∈ middle, call.1 < t + r) → answer = .ok () := by
  have hpolicy := (hforce [] nil_prefix).policy
  have horder := hs.limitersSound _ _ hpolicy
  have hall := requests_answersAll hs hforce
  refine ⟨fun k => ?_, hall.pairwise, fun earlier later t r hcalls => ?_⟩
  · exact (Nat.le_add_right ..).trans (hall.countP_le horder)
  · rw [hcalls] at hall
    obtain ⟨_, hrefused, hkept⟩ := hall.append
    exact hrefused.retry (hkept horder)

namespace Scenario

def sensor : ScopedPrincipal := ⟨tenant, ⟨named "sensor", .serviceAccount⟩⟩

-- The sensor may report once in ten milliseconds.
def sensorPolicy : ServiceRateLimitPolicy := ⟨sensor, .signaling, 1, 10⟩

def sensorReport (nowUnixMs : ℤ) : StoreOp :=
  .service (.consumeServiceRequestForClass sensor .signaling nowUnixMs)

def sensorReports : List StoreOp :=
  [sensorReport 3, sensorReport 4, sensorReport 10]

def sensorStore : MemoryState :=
  empty.runAll [.service (.setServiceRateLimitPolicy sensorPolicy)]

end Scenario

open Scenario

-- A second report is refused and told to wait for the end of the window, where the next one is let
-- through.
theorem sensor_reports_again_in_time :
    sensorStore.requests sensorPolicy sensorReports =
        [(3, .ok ()), (4, .error (.rateLimited 6)), (10, .ok ())] ∧
      ∀ k, (sensorStore.requests sensorPolicy sensorReports).countP
        (sensorPolicy.AdmittedIn k) ≤ 1 := by
  have hforce : ∀ earlier, earlier <+: sensorReports →
      (sensorStore.runAll earlier).InForce sensorPolicy none := by
    intro earlier hprefix
    simp only [← mem_inits, sensorReports, inits, map_cons, map_nil,
      mem_cons, not_mem_nil, or_false] at hprefix
    rcases hprefix with rfl | rfl | rfl | rfl <;> exact ⟨by decide +kernel, by decide +kernel⟩
  exact ⟨by decide +kernel, (rate_limit_is_exact (storeRun_runAll ..) hforce).1⟩

end Ucr
