import MsRealty.RateLimit

/-!
# Refused calls and deleted buckets

What a refused caller is told, and what the periodic deletion of idle buckets
does (`src/server/rate-limit.ts`).

A bucket matters by what a call finds in it (`offered`). After a refusal this
grows with the seconds, so the call passes from the announced second on and not
before. A bucket that is deleted has refilled, and offers what a new one does,
so a run with deletions and the run without them meet the same offers
(`decisions_prune`).
-/

namespace RateLimit

variable {keyedHash : String → String}

/-! ## Calls and deletions -/

/-- **`pruneRateLimits`**: the buckets that are left, and how many were deleted. -/
def pruneRateLimits (buckets : Buckets) (now : ℤ) : Buckets × ℕ :=
  (buckets.keep (fun bucket => !decide (bucket.expiresAt < now)),
    (buckets.rows.filter (fun bucket => bucket.expiresAt < now)).length)

/-- What happens to the buckets. -/
inductive Event where
  | call (call : Call)
  | prune (now : ℤ)

/-- What is answered. -/
inductive Answer where
  | decision (decision : RateLimitDecision)
  | deleted (count : ℕ)

/-- **One event.** -/
def step (keyedHash : String → String) (buckets : Buckets) : Event → Buckets × Answer
  | .call call =>
    let (buckets, decision) := consumeRateLimit keyedHash buckets call
    (buckets, .decision decision)
  | .prune now =>
    let (buckets, count) := pruneRateLimits buckets now
    (buckets, .deleted count)

/-- Whether an event is a call. -/
def Event.isCall : Event → Bool
  | .call _ => true
  | .prune _ => false

/-- The time at which an event may touch the bucket of a key. -/
def Event.timeOn (keyedHash : String → String) (key : String) : Event → Option ℤ
  | .call made => if made.key keyedHash = key then some made.now else none
  | .prune now => some now

/-- The decision on a key, if a moment makes one. -/
def decisionOn (keyedHash : String → String) (key : String)
    (m : Runs.Moment Buckets Event Answer) : Option RateLimitDecision :=
  match m.event, m.output with
  | .call call, .decision decision => if call.key keyedHash = key then some decision else none
  | _, _ => none

/-- **The decisions on a key**, one after another. -/
def decisions (keyedHash : String → String) (key : String) (buckets : Buckets)
    (events : List Event) : List RateLimitDecision :=
  (Runs.history (step keyedHash) buckets events).filterMap (decisionOn keyedHash key)

/-- A call that is made again, so many seconds later. -/
def Call.retried (call : Call) (seconds : ℕ) : Call :=
  { call with now := call.now + 1000 * seconds }

/-! ## What a call finds -/

/-- **What a bucket offers**: all of the capacity, if there is none. -/
def offered (policy : RateLimitPolicy) (buckets : Buckets) (key : String) (now : ℤ) : ℚ :=
  (buckets.get? key).elim policy.capacity (fun bucket => available policy bucket now)

theorem available_bucketOf (buckets : Buckets) (key : String) (call : Call) :
    available call.policyOf (bucketOf buckets key call) call.now
      = offered call.policyOf buckets key call.now := by
  unfold bucketOf offered
  cases buckets.get? key with
  | none => exact available_new rfl _
  | some bucket => rfl

/-- **A call depends on what it finds only**, in what it decides and leaves. -/
theorem consumeRateLimit_congr {buckets buckets' : Buckets} {call : Call}
    (h : offered call.policyOf buckets (call.key keyedHash) call.now
      = offered call.policyOf buckets' (call.key keyedHash) call.now) :
    (consumeRateLimit keyedHash buckets call).2 = (consumeRateLimit keyedHash buckets' call).2 ∧
      (consumeRateLimit keyedHash buckets call).1.get? (call.key keyedHash)
        = (consumeRateLimit keyedHash buckets' call).1.get? (call.key keyedHash) := by
  rw [← available_bucketOf, ← available_bucketOf] at h
  dsimp only [consumeRateLimit]
  rw [Table.get?_put, Table.get?_put, if_pos rfl, if_pos rfl, h]
  exact ⟨rfl, rfl⟩

/-! ## Retrying -/

/-- The refill of whole seconds. -/
theorem refill_seconds (policy : RateLimitPolicy) (seconds : ℕ) :
    policy.refill (1000 * seconds) = seconds * policy.refillPerSecond := by
  have hseconds : (((1000 * seconds : ℤ)) : ℚ) / 1000 = seconds := by
    push_cast
    ring
  rw [RateLimitPolicy.refill, hseconds, max_eq_right (Nat.cast_nonneg seconds)]

/-- **A refused call passes from the announced second on**, and not before, if
nothing is taken from the bucket until then. -/
theorem allowed_retried_iff {buckets later : Buckets} {call : Call}
    (hrefused : (consumeRateLimit keyedHash buckets call).2.allowed = false)
    (hcost : call.costOf ≤ call.policyOf.capacity)
    (hlater : later.get? (call.key keyedHash)
      = (consumeRateLimit keyedHash buckets call).1.get? (call.key keyedHash)) (seconds : ℕ) :
    (consumeRateLimit keyedHash later (call.retried seconds)).2.allowed = true ↔
      (consumeRateLimit keyedHash buckets call).2.retryAfterSeconds ≤ seconds := by
  set policy := call.policyOf with hpolicy
  set found := available policy (bucketOf buckets (call.key keyedHash) call) call.now with hfound
  have hnot : decide (call.costOf ≤ found) = false := hrefused
  have hleft : later.get? (call.key keyedHash)
      = some ⟨call.key keyedHash, found, call.now, call.expiresAt⟩ := by
    rw [hlater]
    dsimp only [consumeRateLimit]
    rw [Table.get?_put, if_pos rfl, ← hpolicy, ← hfound, hnot]
    rfl
  have hannounced : (consumeRateLimit keyedHash buckets call).2.retryAfterSeconds
      = ⌈(call.costOf - found) / policy.refillPerSecond⌉ := by
    dsimp only [consumeRateLimit]
    rw [← hpolicy, ← hfound, hnot]
    rfl
  have hoffer : available policy (bucketOf later (call.key keyedHash) (call.retried seconds))
      (call.retried seconds).now
      = min policy.capacity (found + seconds * policy.refillPerSecond) := by
    have helapsed : call.now + 1000 * (seconds : ℤ) - call.now = 1000 * seconds := by ring
    rw [bucketOf, hleft, Option.getD_some, available, Call.retried, helapsed, refill_seconds]
  have hallowed : (consumeRateLimit keyedHash later (call.retried seconds)).2.allowed = true ↔
      call.costOf ≤ min policy.capacity (found + seconds * policy.refillPerSecond) := by
    rw [← hoffer]
    exact decide_eq_true_iff
  rw [hallowed, hannounced, Int.ceil_le, div_le_iff₀ policy.refill_pos, le_min_iff,
    sub_le_iff_le_add']
  exact and_iff_right hcost

/-! ## Deleting -/

/-- **A bucket is as some call left it**: it holds no less than nothing, and once
it expires it has refilled. -/
structure Kept (policy : RateLimitPolicy) (bucket : Bucket) : Prop where
  tokens : 0 ≤ bucket.tokens
  refilled : ∀ now, bucket.expiresAt < now →
    policy.capacity ≤ policy.refill (now - bucket.refilledAt)

/-- **A bucket that expires has refilled.** -/
theorem capacity_le_refill {call : Call} {now : ℤ} (h : call.expiresAt < now) :
    call.policyOf.capacity ≤ call.policyOf.refill (now - call.now) := by
  set policy := call.policyOf with hpolicy
  have hinstant : (call.now : ℚ) + policy.capacity / policy.refillPerSecond * 1000 < now := by
    unfold Call.expiresAt at h
    dsimp only at h
    split_ifs at h with hsign
    · exact Int.floor_lt.mp h
    · exact (Int.le_ceil _).trans_lt (by exact_mod_cast h)
  have helapsed : policy.capacity / policy.refillPerSecond
      ≤ ((now - call.now : ℤ) : ℚ) / 1000 := by
    rw [le_div_iff₀ (by norm_num)]
    push_cast
    linarith
  calc policy.capacity
      = policy.capacity / policy.refillPerSecond * policy.refillPerSecond :=
        (div_mul_cancel₀ _ policy.refill_pos.ne').symm
    _ ≤ policy.refill (now - call.now) :=
        mul_le_mul_of_nonneg_right (helapsed.trans (le_max_right _ _)) policy.refill_pos.le

/-- The bucket of a key is as some call left it. -/
def KeptOn (policy : RateLimitPolicy) (key : String) (buckets : Buckets) : Prop :=
  ∀ bucket, buckets.get? key = some bucket → Kept policy bucket

/-- A call leaves its bucket that way. -/
theorem keptOn_call {buckets : Buckets} {call : Call}
    (h : KeptOn call.policyOf (call.key keyedHash) buckets) :
    KeptOn call.policyOf (call.key keyedHash) (consumeRateLimit keyedHash buckets call).1 := by
  have hfound : 0 ≤ available call.policyOf (bucketOf buckets (call.key keyedHash) call)
      call.now := by
    rw [available_bucketOf, offered]
    cases hget : buckets.get? (call.key keyedHash) with
    | none => exact call.policyOf.capacity_pos.le
    | some bucket => exact available_nonneg (h bucket hget).tokens _
  obtain ⟨left, hleft, htime, -, hnonneg⟩ := consumeRateLimit_accounts keyedHash buckets call
  have hexpires : left.expiresAt = call.expiresAt := by
    dsimp only [consumeRateLimit] at hleft
    rw [Table.get?_put, if_pos rfl] at hleft
    rw [← Option.some.inj hleft]
  intro bucket hget
  rw [hleft] at hget
  obtain rfl := Option.some.inj hget
  refine ⟨hnonneg hfound, fun now hnow => ?_⟩
  rw [htime]
  exact capacity_le_refill (hexpires ▸ hnow)

theorem get?_prune {buckets : Buckets} {now : ℤ} {key : String} :
    (pruneRateLimits buckets now).1.get? key
      = (buckets.get? key).filter (fun bucket => !decide (bucket.expiresAt < now)) := by
  ext bucket
  rw [Option.filter_eq_some_iff, Table.get?_eq_some, Table.get?_eq_some, pruneRateLimits,
    Table.mem_keep]
  tauto

theorem keptOn_prune {policy : RateLimitPolicy} {key : String} {buckets : Buckets} (now : ℤ)
    (h : KeptOn policy key buckets) : KeptOn policy key (pruneRateLimits buckets now).1 := by
  intro bucket hget
  rw [get?_prune, Option.filter_eq_some_iff] at hget
  exact h bucket hget.1

/-- **What is deleted is not missed**: from then on a new bucket offers as much. -/
theorem offered_prune {policy : RateLimitPolicy} {key : String} {buckets : Buckets} {now later : ℤ}
    (h : KeptOn policy key buckets) (hlater : now ≤ later) :
    offered policy (pruneRateLimits buckets now).1 key later
      = offered policy buckets key later := by
  rw [offered, offered, get?_prune]
  cases hget : buckets.get? key with
  | none => rfl
  | some bucket =>
    obtain ⟨htokens, hrefilled⟩ := h bucket hget
    by_cases hexpired : bucket.expiresAt < now
    · have hfull : available policy bucket later = policy.capacity :=
        min_eq_left ((hrefilled later (hexpired.trans_le hlater)).trans
          (le_add_of_nonneg_left htokens))
      simp [Option.filter, hexpired, hfull]
    · simp [Option.filter, hexpired]

/-! ## Runs with deletions and without -/

/-- **From a time on, two tables offer the same.** -/
def Alike (policy : RateLimitPolicy) (key : String) (since : ℤ) (buckets buckets' : Buckets) :
    Prop :=
  ∀ now, since ≤ now → offered policy buckets key now = offered policy buckets' key now

theorem decisions_cons_call (key : String) (buckets : Buckets) (call : Call)
    (events : List Event) : decisions keyedHash key buckets (.call call :: events)
      = (if call.key keyedHash = key then [(consumeRateLimit keyedHash buckets call).2] else [])
        ++ decisions keyedHash key (consumeRateLimit keyedHash buckets call).1 events := by
  rw [decisions, Runs.history_cons, List.filterMap_cons]
  by_cases hkey : call.key keyedHash = key
  · rw [if_pos hkey]
    have hdecision : decisionOn keyedHash key (Runs.moment (step keyedHash) buckets (.call call))
        = some (consumeRateLimit keyedHash buckets call).2 := if_pos hkey
    rw [hdecision]
    rfl
  · rw [if_neg hkey]
    have hdecision : decisionOn keyedHash key (Runs.moment (step keyedHash) buckets (.call call))
        = none := if_neg hkey
    rw [hdecision]
    rfl

theorem decisions_cons_prune (key : String) (buckets : Buckets) (now : ℤ) (events : List Event) :
    decisions keyedHash key buckets (.prune now :: events)
      = decisions keyedHash key (pruneRateLimits buckets now).1 events := rfl

/-- **Tables that offer the same decide the same**, with deletions in one of the
runs only. -/
theorem decisions_of_alike {key : String} {policy : RateLimitPolicy} {events : List Event}
    (hpolicy : ∀ call, Event.call call ∈ events → call.key keyedHash = key →
      call.policyOf = policy) {since : ℤ}
    (htimes : (since :: events.filterMap (Event.timeOn keyedHash key)).Pairwise (· ≤ ·))
    {buckets buckets' : Buckets} (hkept : KeptOn policy key buckets)
    (halike : Alike policy key since buckets buckets') :
    decisions keyedHash key buckets events
      = decisions keyedHash key buckets' (events.filter Event.isCall) := by
  induction events generalizing since buckets buckets' with
  | nil => rfl
  | cons event events ih =>
    have hrest := fun call hmem => hpolicy call (List.mem_cons_of_mem event hmem)
    cases event with
    | call call =>
      rw [List.filter_cons_of_pos rfl, decisions_cons_call, decisions_cons_call]
      by_cases hkey : call.key keyedHash = key
      · have hcall := hpolicy call List.mem_cons_self hkey
        have htime : (Event.call call).timeOn keyedHash key = some call.now := if_pos hkey
        rw [List.filterMap_cons_some htime] at htimes
        obtain ⟨hfirst, hlater⟩ := List.pairwise_cons.mp htimes
        subst hkey hcall
        obtain ⟨hdecision, hget⟩ :=
          consumeRateLimit_congr (halike call.now (hfirst _ List.mem_cons_self))
        rw [if_pos rfl, if_pos rfl, hdecision, ih hrest hlater (keptOn_call hkept)]
        intro now _
        rw [offered, offered, hget]
      · have htime : (Event.call call).timeOn keyedHash key = none := if_neg hkey
        rw [List.filterMap_cons_none htime] at htimes
        have hget : ∀ buckets : Buckets,
            (consumeRateLimit keyedHash buckets call).1.get? key = buckets.get? key := fun _ =>
          get?_consumeRateLimit_of_ne hkey
        rw [if_neg hkey, if_neg hkey, ih hrest htimes]
        · intro bucket hbucket
          exact hkept bucket (by rwa [hget] at hbucket)
        · intro now hnow
          rw [offered, offered, hget, hget]
          exact halike now hnow
    | prune now =>
      have htime : (Event.prune now).timeOn keyedHash key = some now := rfl
      rw [List.filterMap_cons_some htime] at htimes
      obtain ⟨hfirst, hlater⟩ := List.pairwise_cons.mp htimes
      have hnow : since ≤ now := hfirst now List.mem_cons_self
      rw [List.filter_cons_of_neg (by simp [Event.isCall]), decisions_cons_prune]
      refine ih hrest hlater (keptOn_prune now hkept) fun later hle => ?_
      rw [offered_prune hkept hle]
      exact halike later (hnow.trans hle)

/-- **Deletions change no decision.** From a key without a bucket on, whenever the
times of the calls on it and of the deletions do not decrease. -/
theorem decisions_prune {key : String} {policy : RateLimitPolicy} {buckets : Buckets}
    {events : List Event} (hfresh : buckets.get? key = none)
    (hpolicy : ∀ call, Event.call call ∈ events → call.key keyedHash = key →
      call.policyOf = policy)
    (htimes : (events.filterMap (Event.timeOn keyedHash key)).Pairwise (· ≤ ·)) :
    decisions keyedHash key buckets events
      = decisions keyedHash key buckets (events.filter Event.isCall) := by
  have hkept : KeptOn policy key buckets := by
    intro bucket hget
    rw [hfresh] at hget
    cases hget
  cases htail : events.filterMap (Event.timeOn keyedHash key) with
  | nil =>
    have htimes' : ((0 : ℤ) :: events.filterMap (Event.timeOn keyedHash key)).Pairwise (· ≤ ·) := by
      rw [htail]
      exact List.pairwise_singleton _ _
    exact decisions_of_alike hpolicy htimes' hkept fun _ _ => rfl
  | cons first rest =>
    have htimes' : (first :: events.filterMap (Event.timeOn keyedHash key)).Pairwise (· ≤ ·) := by
      rw [htail] at htimes ⊢
      refine List.pairwise_cons.mpr ⟨fun now hnow => ?_, htimes⟩
      rcases List.mem_cons.mp hnow with rfl | hnow
      · exact le_rfl
      · exact (List.pairwise_cons.mp htimes).1 now hnow
    exact decisions_of_alike hpolicy htimes' hkept fun _ _ => rfl

/-- **Refused calls are told when to retry, and deletions change nothing.** A
refused call that the capacity could pay for passes from the announced second on
and is refused before, if nothing is taken from its bucket in between. And the
decisions on a key are those of the same calls without any deletion.

All calls on a key are under one policy, that of its purpose. -/
theorem retry_and_prune (keyedHash : String → String) {key : String} {policy : RateLimitPolicy}
    {buckets : Buckets} {events : List Event} (hfresh : buckets.get? key = none)
    (hpolicy : ∀ call, Event.call call ∈ events → call.key keyedHash = key →
      call.policyOf = policy)
    (htimes : (events.filterMap (Event.timeOn keyedHash key)).Pairwise (· ≤ ·)) :
    (∀ (table later : Buckets) (call : Call),
      (consumeRateLimit keyedHash table call).2.allowed = false →
      call.costOf ≤ call.policyOf.capacity →
      later.get? (call.key keyedHash)
        = (consumeRateLimit keyedHash table call).1.get? (call.key keyedHash) →
      ∀ seconds : ℕ,
        (consumeRateLimit keyedHash later (call.retried seconds)).2.allowed = true ↔
          (consumeRateLimit keyedHash table call).2.retryAfterSeconds ≤ seconds) ∧
      decisions keyedHash key buckets events
        = decisions keyedHash key buckets (events.filter Event.isCall) :=
  ⟨fun _ _ _ hrefused hcost hlater => allowed_retried_iff hrefused hcost hlater,
    decisions_prune hfresh hpolicy htimes⟩

/-- A bucket is emptied, deleted when it has refilled, and emptied again. -/
def sampleEvents : List Event :=
  [.call (sampleCall 10 0), .call (sampleCall 1 500), .prune 10501, .call (sampleCall 10 11000)]

example : decisions id ((sampleCall 1 0).key id) Table.empty sampleEvents
    = [⟨true, 0, 0⟩, ⟨false, 0, 1⟩, ⟨true, 0, 0⟩] := by
  decide +kernel

theorem retry_and_prune_sample :
    (∀ (table later : Buckets) (call : Call), (consumeRateLimit id table call).2.allowed = false →
      call.costOf ≤ call.policyOf.capacity →
      later.get? (call.key id) = (consumeRateLimit id table call).1.get? (call.key id) →
      ∀ seconds : ℕ, (consumeRateLimit id later (call.retried seconds)).2.allowed = true ↔
        (consumeRateLimit id table call).2.retryAfterSeconds ≤ seconds) ∧
      decisions id ((sampleCall 1 0).key id) Table.empty sampleEvents
        = decisions id ((sampleCall 1 0).key id) Table.empty
          (sampleEvents.filter Event.isCall) := by
  have hpolicy : ∀ call, Event.call call ∈ sampleEvents → call.key id = (sampleCall 1 0).key id →
      call.policyOf = samplePolicy := by
    intro call hmem _
    simp only [sampleEvents, List.mem_cons, Event.call.injEq, List.not_mem_nil, or_false,
      reduceCtorEq, false_or] at hmem
    rcases hmem with rfl | rfl | rfl <;> rfl
  have htimes : sampleEvents.filterMap (Event.timeOn id ((sampleCall 1 0).key id))
      = [0, 500, 10501, 11000] := by decide +kernel
  exact retry_and_prune id rfl hpolicy (by rw [htimes]; decide)

end RateLimit
