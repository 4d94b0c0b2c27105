import Mathlib.Data.Rat.Floor
import MsRealty.Runs
import MsRealty.Table

/-!
# Rate limits

The public endpoints are throttled by token buckets (`src/server/rate-limit.ts`).
A bucket is a row; a call inserts it when it is missing, locks it, refills it for
the time since its last call, takes its cost when that is there, and writes the
row back with the time of its own clock.

Tokens are exact rationals. Timestamps are the milliseconds of the clock of
whichever instance serves the call, so a later call may well read an earlier time.
-/

namespace RateLimit

/-! ## Policies -/

/-- **A policy**, `RateLimitPolicy`: the largest burst and the tokens regained in a
second, both positive. -/
structure RateLimitPolicy where
  /-- The largest burst. -/
  capacity : ℚ
  /-- The tokens regained in a second. -/
  refillPerSecond : ℚ
  capacity_pos : 0 < capacity
  refill_pos : 0 < refillPerSecond

/-- `RateLimitPurpose`. -/
inductive RateLimitPurpose where
  | signInEmail
  | signInIp
  | passkeyIp
  | invitationIp
  | inquiryIp
  | publicShareCreator
  | publicShareIp

/-- The name of a purpose. -/
def RateLimitPurpose.name : RateLimitPurpose → String
  | signInEmail => "sign_in.email"
  | signInIp => "sign_in.ip"
  | passkeyIp => "passkey.ip"
  | invitationIp => "invitation.ip"
  | inquiryIp => "inquiry.ip"
  | publicShareCreator => "public_share.creator"
  | publicShareIp => "public_share.ip"

/-- The policy of a purpose. -/
def rateLimitPolicies : RateLimitPurpose → RateLimitPolicy
  | .signInEmail => ⟨5, 1 / 180, by norm_num, by norm_num⟩
  | .signInIp => ⟨20, 1 / 30, by norm_num, by norm_num⟩
  | .passkeyIp => ⟨30, 1 / 10, by norm_num, by norm_num⟩
  | .invitationIp => ⟨20, 1 / 30, by norm_num, by norm_num⟩
  | .inquiryIp => ⟨5, 1 / 120, by norm_num, by norm_num⟩
  | .publicShareCreator => ⟨10, 1 / 180, by norm_num, by norm_num⟩
  | .publicShareIp => ⟨20, 1 / 30, by norm_num, by norm_num⟩

/-! ## Consuming -/

/-- A row of `rate_limit_buckets`. -/
structure Bucket where
  key : String
  tokens : ℚ
  refilledAt : ℤ
  expiresAt : ℤ

/-- The table of the buckets. -/
abbrev Buckets := Table String Bucket Bucket.key

/-- `RateLimitDecision`. -/
structure RateLimitDecision where
  allowed : Bool
  remaining : ℤ
  /-- Whole seconds until the next token; 0 when allowed. -/
  retryAfterSeconds : ℤ
  deriving DecidableEq

/-- A call: its purpose and identifier, `ConsumeOptions` – the cost is 1 and the
policy that of the purpose unless stated – and the reading of the clock, which is
`options.now` or the clock of the instance. -/
structure Call where
  purpose : RateLimitPurpose
  identifier : String
  cost : Option ℚ
  policy : Option RateLimitPolicy
  now : ℤ

namespace Call

/-- `options.policy ?? rateLimitPolicies[purpose]`. -/
def policyOf (call : Call) : RateLimitPolicy := call.policy.getD (rateLimitPolicies call.purpose)

/-- `options.cost ?? 1`. -/
def costOf (call : Call) : ℚ := call.cost.getD 1

/-- The key of the bucket: the purpose and the keyed hash of the identifier, which
`keyedHash` computes of the trimmed text in lower case. -/
def key (keyedHash : String → String) (call : Call) : String :=
  call.purpose.name ++ ":" ++ keyedHash call.identifier

/-- An idle bucket is full again after this long; a date holds whole milliseconds. -/
def expiresAt (call : Call) : ℤ :=
  let instant : ℚ :=
    call.now + call.policyOf.capacity / call.policyOf.refillPerSecond * 1000
  if 0 ≤ instant then ⌊instant⌋ else ⌈instant⌉

end Call

/-- The tokens that some milliseconds give back; none, when the clock went back. -/
def RateLimitPolicy.refill (policy : RateLimitPolicy) (milliseconds : ℤ) : ℚ :=
  max 0 ((milliseconds : ℚ) / 1000) * policy.refillPerSecond

/-- What a bucket holds when a call looks at it. -/
def available (policy : RateLimitPolicy) (bucket : Bucket) (now : ℤ) : ℚ :=
  min policy.capacity (bucket.tokens + policy.refill (now - bucket.refilledAt))

/-- The row that is inserted when there is none, else the row there is. -/
def bucketOf (buckets : Buckets) (key : String) (call : Call) : Bucket :=
  (buckets.get? key).getD
    { key := key
      tokens := call.policyOf.capacity
      refilledAt := call.now
      expiresAt := call.expiresAt }

/-- **`consumeRateLimit`**, one transaction under the lock of the row. -/
def consumeRateLimit (keyedHash : String → String) (buckets : Buckets) (call : Call) :
    Buckets × RateLimitDecision :=
  let policy := call.policyOf
  let cost := call.costOf
  let key := call.key keyedHash
  let bucket := bucketOf buckets key call
  let available := available policy bucket call.now
  let allowed : Bool := decide (cost ≤ available)
  let tokens := if allowed then available - cost else available
  (buckets.put
    { key := key, tokens := tokens, refilledAt := call.now, expiresAt := call.expiresAt },
    { allowed := allowed
      remaining := ⌊tokens⌋
      retryAfterSeconds :=
        if allowed then 0 else ⌈(cost - tokens) / policy.refillPerSecond⌉ })

/-! ## What a call leaves -/

variable {keyedHash : String → String}

/-- **What a call leaves in its bucket** and what it took of it make up what was
available. -/
theorem consumeRateLimit_accounts (keyedHash : String → String) (buckets : Buckets) (call : Call) :
    ∃ bucket, (consumeRateLimit keyedHash buckets call).1.get? (call.key keyedHash) = some bucket ∧
      bucket.refilledAt = call.now ∧
      bucket.tokens + (if (consumeRateLimit keyedHash buckets call).2.allowed then call.costOf else 0)
        = available call.policyOf (bucketOf buckets (call.key keyedHash) call) call.now ∧
      (0 ≤ available call.policyOf (bucketOf buckets (call.key keyedHash) call) call.now →
        0 ≤ bucket.tokens) := by
  refine ⟨_, (Table.get?_put _ _ _).trans (if_pos rfl), rfl, ?_, fun hnonneg => ?_⟩
  · dsimp only [consumeRateLimit]
    split
    · next h => exact (congrArg _ (if_pos h)).trans (sub_add_cancel _ _)
    · next h => exact (congrArg _ (if_neg h)).trans (add_zero _)
  · dsimp only [consumeRateLimit]
    split
    · next h => exact sub_nonneg.mpr (of_decide_eq_true h)
    · exact hnonneg

theorem get?_consumeRateLimit_of_ne {buckets : Buckets} {call : Call} {key : String}
    (hkey : call.key keyedHash ≠ key) :
    (consumeRateLimit keyedHash buckets call).1.get? key = buckets.get? key :=
  (Table.get?_put _ _ _).trans (if_neg hkey)

theorem RateLimitPolicy.refill_nonneg (policy : RateLimitPolicy) (milliseconds : ℤ) :
    0 ≤ policy.refill milliseconds :=
  mul_nonneg (le_max_left _ _) policy.refill_pos.le

theorem available_nonneg {policy : RateLimitPolicy} {bucket : Bucket} (h : 0 ≤ bucket.tokens)
    (now : ℤ) : 0 ≤ available policy bucket now :=
  le_min policy.capacity_pos.le (add_nonneg h (policy.refill_nonneg _))

/-- What a call finds is at most what was left and one refill, itself at most the
capacity. -/
theorem available_le (policy : RateLimitPolicy) {bucket : Bucket} (h : 0 ≤ bucket.tokens)
    (now : ℤ) :
    available policy bucket now
      ≤ bucket.tokens + min policy.capacity (policy.refill (now - bucket.refilledAt)) := by
  show min _ _ ≤ _
  rw [← min_add_add_left]
  exact min_le_min_right _ (le_add_of_nonneg_left h)

/-- A new bucket is full. -/
theorem available_new {policy : RateLimitPolicy} {bucket : Bucket}
    (h : bucket.tokens = policy.capacity) (now : ℤ) : available policy bucket now = policy.capacity := by
  refine min_eq_left ?_
  rw [h]
  exact le_add_of_nonneg_right (policy.refill_nonneg _)

/-! ## A sequence of calls -/

/-- What a call costs the bucket of a key: its cost, when it is allowed. -/
def charge (keyedHash : String → String) (key : String)
    (m : Runs.Moment Buckets Call RateLimitDecision) : ℚ :=
  if m.event.key keyedHash = key then (if m.output.allowed then m.event.costOf else 0) else 0

/-- **The total cost of the allowed calls on a key** in a sequence of calls. -/
def spent (keyedHash : String → String) (key : String) (buckets : Buckets) (calls : List Call) : ℚ :=
  ((Runs.history (consumeRateLimit keyedHash) buckets calls).map (charge keyedHash key)).sum

/-- The timestamps of the calls on a key, in order. -/
def timestamps (keyedHash : String → String) (key : String) (calls : List Call) : List ℤ :=
  (calls.filter (fun call => call.key keyedHash = key)).map Call.now

/-- **What the steps of the timestamps give back**: each step forward refills the time
it spans, up to the capacity, and a step back refills nothing. -/
def regained (policy : RateLimitPolicy) : List ℤ → ℚ
  | t :: u :: rest =>
    min policy.capacity (policy.refill (u - t)) + regained policy (u :: rest)
  | [_] => 0
  | [] => 0

/-- The milliseconds between the smallest and the largest timestamp. -/
def spread : List ℤ → ℤ
  | [] => 0
  | t :: rest => rest.foldl max t - rest.foldl min t

/-- The tokens that the whole spread gives back. -/
def refillOfSpread (policy : RateLimitPolicy) (times : List ℤ) : ℚ :=
  policy.refillPerSecond * ((spread times : ℚ) / 1000)

theorem spent_cons (key : String) (buckets : Buckets) (call : Call) (calls : List Call) :
    spent keyedHash key buckets (call :: calls)
      = charge keyedHash key (Runs.moment (consumeRateLimit keyedHash) buckets call)
        + spent keyedHash key (consumeRateLimit keyedHash buckets call).1 calls :=
  List.sum_cons

theorem timestamps_cons_of_key {key : String} {call : Call} (hkey : call.key keyedHash = key)
    (calls : List Call) :
    timestamps keyedHash key (call :: calls) = call.now :: timestamps keyedHash key calls := by
  show List.map _ (List.filter _ _) = _
  rw [List.filter_cons_of_pos (by rwa [decide_eq_true_iff])]
  rfl

theorem timestamps_cons_of_ne {key : String} {call : Call} (hkey : call.key keyedHash ≠ key)
    (calls : List Call) :
    timestamps keyedHash key (call :: calls) = timestamps keyedHash key calls := by
  show List.map _ (List.filter _ _) = _
  rw [List.filter_cons_of_neg (by rwa [decide_eq_true_iff])]
  rfl

theorem charge_of_key {key : String} {buckets : Buckets} {call : Call}
    (hkey : call.key keyedHash = key) :
    charge keyedHash key (Runs.moment (consumeRateLimit keyedHash) buckets call)
      = if (consumeRateLimit keyedHash buckets call).2.allowed then call.costOf else 0 :=
  if_pos hkey

theorem charge_of_ne {key : String} {buckets : Buckets} {call : Call}
    (hkey : call.key keyedHash ≠ key) :
    charge keyedHash key (Runs.moment (consumeRateLimit keyedHash) buckets call) = 0 :=
  if_neg hkey

/-- **From a bucket on**, no more is spent than it holds and its clock gives back. -/
theorem spent_le_of_bucket {key : String} {policy : RateLimitPolicy} {calls : List Call}
    (hpolicy : ∀ call ∈ calls, call.key keyedHash = key → call.policyOf = policy)
    {buckets : Buckets} {bucket : Bucket} (hget : buckets.get? key = some bucket)
    (htokens : 0 ≤ bucket.tokens) :
    spent keyedHash key buckets calls
      ≤ bucket.tokens
        + regained policy (bucket.refilledAt :: timestamps keyedHash key calls) := by
  induction calls generalizing buckets bucket with
  | nil =>
    show (0 : ℚ) ≤ bucket.tokens + 0
    rwa [add_zero]
  | cons call calls ih =>
    obtain ⟨hcall, hcalls⟩ := List.forall_mem_cons.mp hpolicy
    rw [spent_cons]
    by_cases hkey : call.key keyedHash = key
    · obtain ⟨left, hleft, htime, haccount, hnonneg⟩ :=
        consumeRateLimit_accounts keyedHash buckets call
      have hbucket : bucketOf buckets (call.key keyedHash) call = bucket := by
        rw [bucketOf, hkey, hget, Option.getD_some]
      rw [hbucket, hcall hkey] at haccount hnonneg
      rw [hkey] at hleft
      have hrest := ih hcalls hleft (hnonneg (available_nonneg htokens _))
      have hfound := available_le policy htokens call.now
      rw [charge_of_key hkey, timestamps_cons_of_key hkey, regained]
      rw [htime] at hrest
      linarith
    · rw [charge_of_ne hkey, timestamps_cons_of_ne hkey, zero_add]
      exact ih hcalls ((get?_consumeRateLimit_of_ne hkey).trans hget) htokens

/-- **From nothing on**, no more is spent than the capacity and what the clocks give
back. -/
theorem spent_le {key : String} {policy : RateLimitPolicy} {calls : List Call}
    (hpolicy : ∀ call ∈ calls, call.key keyedHash = key → call.policyOf = policy)
    {buckets : Buckets} (hget : buckets.get? key = none) :
    spent keyedHash key buckets calls
      ≤ policy.capacity + regained policy (timestamps keyedHash key calls) := by
  induction calls generalizing buckets with
  | nil =>
    show (0 : ℚ) ≤ policy.capacity + 0
    rw [add_zero]
    exact policy.capacity_pos.le
  | cons call calls ih =>
    obtain ⟨hcall, hcalls⟩ := List.forall_mem_cons.mp hpolicy
    rw [spent_cons]
    by_cases hkey : call.key keyedHash = key
    · obtain ⟨left, hleft, htime, haccount, hnonneg⟩ :=
        consumeRateLimit_accounts keyedHash buckets call
      have hfull : available call.policyOf (bucketOf buckets (call.key keyedHash) call) call.now
          = policy.capacity := by
        rw [hcall hkey]
        refine available_new ?_ _
        rw [bucketOf, hkey, hget, Option.getD_none, hcall hkey]
      rw [hfull] at haccount hnonneg
      rw [hkey] at hleft
      have hrest := spent_le_of_bucket hcalls hleft (hnonneg policy.capacity_pos.le)
      rw [charge_of_key hkey, timestamps_cons_of_key hkey]
      rw [htime] at hrest
      linarith
    · rw [charge_of_ne hkey, timestamps_cons_of_ne hkey, zero_add]
      exact ih hcalls ((get?_consumeRateLimit_of_ne hkey).trans hget)

/-! ## Callers who take everything -/

/-- A call on the key of another that takes what the policy gives it at a time. -/
def Call.asking (call : Call) (policy : RateLimitPolicy) (cost : ℚ) (now : ℤ) : Call :=
  { call with cost := some cost, policy := some policy, now := now }

/-- Calls at given times, each for all that its bucket holds by then. -/
def drain (call : Call) (policy : RateLimitPolicy) : ℤ → List ℤ → List Call
  | t, u :: rest =>
    call.asking policy (min policy.capacity (policy.refill (u - t))) u :: drain call policy u rest
  | _, [] => []

/-- Calls at given times that empty a bucket from nothing on. -/
def drainAll (call : Call) (policy : RateLimitPolicy) : List ℤ → List Call
  | t :: rest => call.asking policy policy.capacity t :: drain call policy t rest
  | [] => []

@[simp] theorem key_asking (call : Call) (policy : RateLimitPolicy) (cost : ℚ) (now : ℤ) :
    (call.asking policy cost now).key keyedHash = call.key keyedHash := rfl

@[simp] theorem now_asking (call : Call) (policy : RateLimitPolicy) (cost : ℚ) (now : ℤ) :
    (call.asking policy cost now).now = now := rfl

/-- **Who asks for all there is gets it**, and leaves an empty bucket of its time. -/
theorem asking_available {buckets : Buckets} {call : Call} {policy : RateLimitPolicy} {cost : ℚ}
    {now : ℤ}
    (hcost : available policy (bucketOf buckets (call.key keyedHash) (call.asking policy cost now)) now
      = cost) :
    charge keyedHash (call.key keyedHash)
        (Runs.moment (consumeRateLimit keyedHash) buckets (call.asking policy cost now)) = cost ∧
      ∃ bucket, (consumeRateLimit keyedHash buckets (call.asking policy cost now)).1.get?
          (call.key keyedHash) = some bucket ∧ bucket.tokens = 0 ∧ bucket.refilledAt = now := by
  have hallowed :
      (consumeRateLimit keyedHash buckets (call.asking policy cost now)).2.allowed = true :=
    decide_eq_true hcost.ge
  obtain ⟨bucket, hget, htime, haccount, -⟩ :=
    consumeRateLimit_accounts keyedHash buckets (call.asking policy cost now)
  rw [if_pos hallowed] at haccount
  refine ⟨?_, bucket, hget, ?_, htime⟩
  · rw [charge_of_key (key_asking call policy cost now), if_pos hallowed]
    rfl
  · have htotal : bucket.tokens + cost = cost := haccount.trans hcost
    linarith

/-- **Draining an empty bucket** takes all that the timestamps give back. -/
theorem spent_drain (call : Call) (policy : RateLimitPolicy) {t : ℤ} (rest : List ℤ)
    {buckets : Buckets} {bucket : Bucket}
    (hget : buckets.get? (call.key keyedHash) = some bucket) (hempty : bucket.tokens = 0)
    (htime : bucket.refilledAt = t) :
    spent keyedHash (call.key keyedHash) buckets (drain call policy t rest)
      = regained policy (t :: rest) := by
  induction rest generalizing t buckets bucket with
  | nil => rfl
  | cons u rest ih =>
    have hcost : available policy (bucketOf buckets (call.key keyedHash)
        (call.asking policy (min policy.capacity (policy.refill (u - t))) u)) u
        = min policy.capacity (policy.refill (u - t)) := by
      rw [bucketOf, hget, Option.getD_some, available, hempty, htime, zero_add]
    obtain ⟨hcharge, left, hleft, hnone, hnow⟩ := asking_available hcost
    rw [drain, spent_cons, hcharge, ih hleft hnone hnow, regained]

/-- **Draining a key from nothing on** takes the capacity and all that the timestamps
give back. -/
theorem spent_drainAll (call : Call) (policy : RateLimitPolicy) (t : ℤ) (rest : List ℤ)
    {buckets : Buckets} (hget : buckets.get? (call.key keyedHash) = none) :
    spent keyedHash (call.key keyedHash) buckets (drainAll call policy (t :: rest))
      = policy.capacity + regained policy (t :: rest) := by
  have hcost : available policy (bucketOf buckets (call.key keyedHash)
      (call.asking policy policy.capacity t)) t = policy.capacity := by
    rw [bucketOf, hget, Option.getD_none]
    exact available_new rfl t
  obtain ⟨hcharge, left, hleft, hnone, hnow⟩ := asking_available hcost
  rw [drainAll, spent_cons, hcharge, spent_drain call policy rest hleft hnone hnow]

theorem timestamps_drain (call : Call) (policy : RateLimitPolicy) (t : ℤ) (rest : List ℤ) :
    timestamps keyedHash (call.key keyedHash) (drain call policy t rest) = rest := by
  induction rest generalizing t with
  | nil => rfl
  | cons u rest ih => rw [drain, timestamps_cons_of_key (key_asking _ _ _ _), ih, now_asking]

theorem policyOf_of_mem_drain {call : Call} {policy : RateLimitPolicy} {t : ℤ} {rest : List ℤ}
    {c : Call} (h : c ∈ drain call policy t rest) : c.policyOf = policy := by
  induction rest generalizing t with
  | nil => exact absurd h List.not_mem_nil
  | cons u rest ih =>
    rcases List.mem_cons.mp h with rfl | h
    · rfl
    · exact ih h

/-! ## The rate a key can reach -/

/-- The calls in question: those on a key are under one policy and come at given times,
and the key has no bucket yet. -/
structure Sequence (keyedHash : String → String) (key : String) (policy : RateLimitPolicy)
    (times : List ℤ) (buckets : Buckets) (calls : List Call) : Prop where
  fresh : buckets.get? key = none
  policy : ∀ call ∈ calls, call.key keyedHash = key → call.policyOf = policy
  times : timestamps keyedHash key calls = times

/-- **The rate limit.** The calls on a key at given times stay within the capacity and
the refill of the time they span, whatever they cost, exactly when the steps forward of
the timestamps together give back no more than that one span. -/
theorem spent_le_spread_iff (keyedHash : String → String) (call : Call) (policy : RateLimitPolicy)
    (times : List ℤ) :
    (∀ buckets calls, Sequence keyedHash (call.key keyedHash) policy times buckets calls →
      spent keyedHash (call.key keyedHash) buckets calls
        ≤ policy.capacity + refillOfSpread policy times) ↔
      regained policy times ≤ refillOfSpread policy times := by
  constructor
  · intro hbound
    cases times with
    | nil => exact le_of_eq (by simp [regained, refillOfSpread, spread])
    | cons t rest =>
      have hsequence : Sequence keyedHash (call.key keyedHash) policy (t :: rest) Table.empty
          (drainAll call policy (t :: rest)) := by
        refine ⟨rfl, fun c hc _ => ?_, ?_⟩
        · rcases List.mem_cons.mp hc with rfl | hc
          · rfl
          · exact policyOf_of_mem_drain hc
        · rw [drainAll, timestamps_cons_of_key (key_asking _ _ _ _), timestamps_drain, now_asking]
      have hspent := hbound _ _ hsequence
      rw [spent_drainAll call policy t rest rfl] at hspent
      linarith
  · intro hregained buckets calls hsequence
    have hspent := spent_le hsequence.policy hsequence.fresh
    rw [hsequence.times] at hspent
    linarith

/-! ## A clock that goes back -/

/-- Ten tokens, one a second. -/
def samplePolicy : RateLimitPolicy := ⟨10, 1, by norm_num, by norm_num⟩

/-- A call of one visitor. -/
def sampleCall (cost : ℚ) (now : ℤ) : Call := ⟨.signInIp, "203.0.113.1", some cost, some samplePolicy, now⟩

/-- The bucket is emptied at 0 s and at 10 s; a call whose clock reads 0 s is refused but
sets the refill time back, and the span is refilled once more. -/
def sampleCalls : List Call :=
  [sampleCall 10 0, sampleCall 10 10000, sampleCall 1 0, sampleCall 10 10000]

/-- **The same span is refilled twice**: thirty tokens are taken in ten seconds, where the
capacity and the refill are twenty. -/
theorem span_refilled_twice :
    Sequence id ((sampleCall 1 0).key id) samplePolicy [0, 10000, 0, 10000] Table.empty sampleCalls ∧
      samplePolicy.capacity + refillOfSpread samplePolicy [0, 10000, 0, 10000] = 20 ∧
      spent id ((sampleCall 1 0).key id) Table.empty sampleCalls = 30 := by
  refine ⟨⟨rfl, ?_, by decide +kernel⟩, by decide +kernel, by decide +kernel⟩
  intro call hcall _
  simp only [sampleCalls, List.mem_cons, List.not_mem_nil, or_false] at hcall
  rcases hcall with rfl | rfl | rfl | rfl <;> rfl

end RateLimit
