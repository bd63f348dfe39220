import Mathlib.Algebra.Order.Ring.Int
import Metidos.Library.BoundedTable
import Metidos.Library.Machine
import Metidos.RateLimit.LimiterHits

/-!
The bounded in-memory rate limiter of `src/bun/token-bucket-rate-limit.ts`, and the refinement
by it of one bucket for each key.
-/

namespace Metidos.RateLimit

open Machine

structure TokenBucketOptions where
  capacity : Rat
  maxBuckets : Rat
  refillIntervalMs : Rat
  refillTokens : Rat

structure TokenBucketLimits where
  capacity : Nat
  maxBuckets : Nat
  refillIntervalMs : Nat
  refillTokens : Nat
  someCapacity : 0 < capacity
  someInterval : 0 < refillIntervalMs
  someTokens : 0 < refillTokens

def TokenBucketOptions.limits (options : TokenBucketOptions) : TokenBucketLimits where
  capacity := atLeastOne options.capacity
  maxBuckets := atLeastOne options.maxBuckets
  refillIntervalMs := atLeastOne options.refillIntervalMs
  refillTokens := atLeastOne options.refillTokens
  someCapacity := atLeastOne_pos _
  someInterval := atLeastOne_pos _
  someTokens := atLeastOne_pos _

structure TokenBucket where
  lastRefillMs : Int
  tokens : Int
  deriving DecidableEq

abbrev TokenBuckets := OrderedMap Text TokenBucket

namespace TokenBucketLimits

variable (limits : TokenBucketLimits)

def refill (nowMs : Int) (bucket : TokenBucket) : TokenBucket :=
  if nowMs ≤ bucket.lastRefillMs then bucket
  else
    let elapsedIntervals := (nowMs - bucket.lastRefillMs) / limits.refillIntervalMs
    if elapsedIntervals ≤ 0 then bucket
    else
      { lastRefillMs := bucket.lastRefillMs + elapsedIntervals * limits.refillIntervalMs
        tokens := min limits.capacity (bucket.tokens + elapsedIntervals * limits.refillTokens) }

def pruneIfNeeded (buckets : TokenBuckets) : TokenBuckets := buckets.trimOldest limits.maxBuckets

def freshBucket (nowMs : Int) : TokenBucket := { lastRefillMs := nowMs, tokens := limits.capacity }

def takeToken (bucket : Option TokenBucket) (hit : Hit) : TokenBucket × RateLimitResult :=
  let refilled := limits.refill hit.nowMs (bucket.getD (limits.freshBucket hit.nowMs))
  if refilled.tokens ≤ 0 then
    let retryAfterMs := max 1 (refilled.lastRefillMs + limits.refillIntervalMs - hit.nowMs)
    (refilled, .denied (ceilSeconds retryAfterMs))
  else ({ refilled with tokens := refilled.tokens - 1 }, .allowed)

def hit (buckets : TokenBuckets) (hit : Hit) : TokenBuckets × RateLimitResult :=
  let taken := limits.takeToken (buckets.get? hit.key) hit
  (limits.pruneIfNeeded (buckets.touch hit.key taken.1), taken.2)

def limiter : Machine TokenBuckets Hit RateLimitResult where
  start := OrderedMap.empty
  step := limits.hit

def ownBucket : Machine (Option TokenBucket) Hit RateLimitResult where
  start := none
  step := fun bucket hit =>
    let taken := limits.takeToken bucket hit
    (some taken.1, taken.2)

/-- Nondecreasing times, and no more keys than there are buckets. -/
structure Valid (hits : List Hit) : Prop where
  chronological : Chronological hits
  fewKeys : (keysOf hits).length ≤ limits.maxBuckets

variable {limits}

theorem Valid.sublist {hits others : List Hit} (valid : limits.Valid hits)
    (within : others.Sublist hits) : limits.Valid others where
  chronological := valid.chronological.sublist within
  fewKeys := (keysOf_length_le within.subset).trans valid.fewKeys

theorem Valid.shorter (hits : List Hit) (hit : Hit) (valid : limits.Valid (hits ++ [hit])) :
    limits.Valid hits :=
  valid.sublist (List.sublist_append_left hits [hit])

structure Refines (hits : List Hit) (buckets : TokenBuckets)
    (own : Text → Option TokenBucket) : Prop where
  held : ∀ key, buckets.get? key = own key
  known : ∀ key ∈ buckets.keys, ∃ hit ∈ hits, hit.key = key

variable {hits : List Hit} {hit : Hit} {buckets : TokenBuckets}
  {states : Text → Option TokenBucket}

theorem pruneIfNeeded_eq (valid : limits.Valid hits)
    (known : ∀ key ∈ buckets.keys, ∃ hit ∈ hits, hit.key = key) :
    limits.pruneIfNeeded buckets = buckets := by
  refine OrderedMap.trimOldest_of_le ((OrderedMap.size_le_of_keys_subset ?_).trans valid.fewKeys)
  exact fun key member => mem_keysOf.mpr (known key member)

theorem known_touch (known : ∀ key ∈ buckets.keys, ∃ hit ∈ hits, hit.key = key)
    (bucket : TokenBucket) :
    ∀ key ∈ (buckets.touch hit.key bucket).keys, ∃ earlier ∈ hits ++ [hit], earlier.key = key := by
  intro key member
  rw [OrderedMap.touch, OrderedMap.mem_keys_set, OrderedMap.mem_keys_delete] at member
  rcases member with rfl | ⟨-, before⟩
  · exact ⟨hit, by simp, rfl⟩
  · obtain ⟨earlier, isHit, isKey⟩ := known key before
    exact ⟨earlier, List.mem_append_left _ isHit, isKey⟩

theorem Refines.start : Refines [] limits.limiter.start (limits.ownBucket.keyed Hit.key).start where
  held := fun _ => rfl
  known := by simp [limiter]

theorem Refines.step (refines : Refines hits buckets states) (valid : limits.Valid (hits ++ [hit])) :
    (limits.limiter.step buckets hit).2 =
        ((limits.ownBucket.keyed Hit.key).step states hit).2 ∧
      Refines (hits ++ [hit]) (limits.limiter.step buckets hit).1
        ((limits.ownBucket.keyed Hit.key).step states hit).1 := by
  simp only [limiter, ownBucket, keyed, TokenBucketLimits.hit]
  rw [refines.held]
  have known := @known_touch _ hit _ refines.known
    (limits.takeToken (states hit.key) hit).1
  rw [pruneIfNeeded_eq valid known]
  refine ⟨rfl, ?_, known⟩
  intro key
  rw [OrderedMap.get?_touch]
  by_cases isKey : key = hit.key
  · subst isKey
    rw [if_pos rfl, Function.update_self]
  · rw [if_neg isKey, Function.update_of_ne isKey, refines.held]

theorem limiter_simulates (valid : limits.Valid hits) :
    (limits.limiter.run hits).answers = ((limits.ownBucket.keyed Hit.key).run hits).answers ∧
      Refines hits (limits.limiter.run hits).state
        ((limits.ownBucket.keyed Hit.key).run hits).state :=
  run_simulates limits.limiter (limits.ownBucket.keyed Hit.key) Valid.shorter Refines
    Refines.start (fun _ _ _ _ valid _ refines => refines.step valid) valid

theorem limiter_get? (valid : limits.Valid hits) (key : Text) :
    (limits.limiter.run hits).state.get? key =
      (limits.ownBucket.run (own Hit.key key hits)).state := by
  rw [(limiter_simulates valid).2.held, keyed_state]

theorem limiter_reply (valid : limits.Valid (hits ++ [hit])) :
    limits.limiter.reply hits hit = limits.ownBucket.reply (own Hit.key hit.key hits) hit := by
  have refines := (limiter_simulates (Valid.shorter hits hit valid)).2
  rw [← keyed_reply]
  exact (refines.step valid).1

theorem limiter_own (valid : limits.Valid hits) (key : Text) :
    ownAnswers Hit.key key (limits.limiter.run hits).answers =
      (limits.ownBucket.run (own Hit.key key hits)).answers := by
  rw [(limiter_simulates valid).1, keyed_answers]

theorem limiter_independent (valid : limits.Valid hits) (key : Text) :
    ownAnswers Hit.key key (limits.limiter.run hits).answers =
      (limits.limiter.run (own Hit.key key hits)).answers := by
  rw [limiter_own valid, (limiter_simulates (valid.sublist (own_sublist _ _ _))).1,
    keyed_answers_own]

theorem limiter_size_le (hits : List Hit) :
    (limits.limiter.run hits).state.size ≤ limits.maxBuckets := by
  induction hits using List.reverseRecOn with
  | nil => exact Nat.zero_le _
  | append_singleton hits hit ih =>
    rw [state_append_one]
    exact OrderedMap.size_trimOldest_le _ _

end TokenBucketLimits

end Metidos.RateLimit

/-!
What the token-bucket limiter guarantees over every sequence of hits: no stretch of time lets
through more hits than a full bucket and the refills that fall into it.
-/

namespace Metidos.RateLimit

open Machine

namespace TokenBucketLimits

variable {limits : TokenBucketLimits} {bucket : TokenBucket} {nowMs : Int}

structure InBounds (limits : TokenBucketLimits) (bucket : TokenBucket) : Prop where
  nonneg : 0 ≤ bucket.tokens
  atMost : bucket.tokens ≤ limits.capacity

structure Refilled (limits : TokenBucketLimits) (nowMs : Int) (bucket refilled : TokenBucket) :
    Prop where
  intervals : ∃ elapsed : Int, 0 ≤ elapsed ∧
    refilled.lastRefillMs = bucket.lastRefillMs + elapsed * limits.refillIntervalMs ∧
      refilled.tokens ≤ bucket.tokens + elapsed * limits.refillTokens ∧
        (0 < elapsed → refilled.tokens =
          min (limits.capacity : Int) (bucket.tokens + elapsed * limits.refillTokens)) ∧
          (elapsed = 0 → refilled = bucket)
  notLater : bucket.lastRefillMs ≤ nowMs → refilled.lastRefillMs ≤ nowMs
  within : nowMs < refilled.lastRefillMs + limits.refillIntervalMs

theorem refill_refilled (nowMs : Int) (bucket : TokenBucket) :
    limits.Refilled nowMs bucket (limits.refill nowMs bucket) := by
  have positive : (0 : Int) < limits.refillIntervalMs := Int.natCast_pos.mpr limits.someInterval
  have whole := Int.ediv_mul_le (nowMs - bucket.lastRefillMs) (ne_of_gt positive)
  have part := Int.lt_ediv_add_one_mul_self (nowMs - bucket.lastRefillMs) positive
  rw [refill]
  dsimp only
  split
  · exact ⟨⟨0, by simp⟩, id, by omega⟩
  · rename_i passed
    split
    · rename_i none
      have zero : (nowMs - bucket.lastRefillMs) / (limits.refillIntervalMs : Int) = 0 :=
        le_antisymm none (Int.ediv_nonneg (by omega) positive.le)
      rw [zero] at part
      exact ⟨⟨0, by simp⟩, id, by omega⟩
    · rename_i some'
      refine ⟨⟨_, (not_le.mp some').le, rfl, min_le_right _ _, fun _ => rfl, ?_⟩, ?_, ?_⟩
      · exact fun zero => absurd zero.le some'
      · show _ → bucket.lastRefillMs + _ ≤ nowMs
        omega
      · show nowMs < bucket.lastRefillMs + _ + _
        rw [add_mul, one_mul] at part
        omega

theorem refill_inBounds (inBounds : limits.InBounds bucket) (nowMs : Int) :
    limits.InBounds (limits.refill nowMs bucket) := by
  obtain ⟨elapsed, nonneg, -, -, later, same⟩ := (@refill_refilled limits nowMs bucket).intervals
  rcases nonneg.eq_or_lt with zero | positive
  · rw [same zero.symm]
    exact inBounds
  · have added : 0 ≤ elapsed * (limits.refillTokens : Int) :=
      mul_nonneg nonneg (Int.natCast_nonneg _)
    have tokens := later positive
    have held := inBounds.nonneg
    exact ⟨by omega, by omega⟩

theorem refill_tokens_pos (inBounds : limits.InBounds bucket)
    (passed : bucket.lastRefillMs + limits.refillIntervalMs ≤ nowMs) :
    0 < (limits.refill nowMs bucket).tokens := by
  have refilled := @refill_refilled limits nowMs bucket
  obtain ⟨elapsed, nonneg, last, -, later, -⟩ := refilled.intervals
  rcases nonneg.eq_or_lt with zero | positive
  · have within := refilled.within
    rw [last, ← zero, zero_mul] at within
    omega
  · have tokens := later positive
    have some' : 0 < elapsed * (limits.refillTokens : Int) :=
      mul_pos positive (Int.natCast_pos.mpr limits.someTokens)
    have capacity := limits.someCapacity
    have held := inBounds.nonneg
    omega

theorem freshBucket_inBounds (nowMs : Int) : limits.InBounds (limits.freshBucket nowMs) :=
  ⟨Int.natCast_nonneg _, le_refl _⟩

variable {hits : List Hit} {hit : Hit} {state : Option TokenBucket}

def found (limits : TokenBucketLimits) (state : Option TokenBucket) (hit : Hit) : TokenBucket :=
  limits.refill hit.nowMs (state.getD (limits.freshBucket hit.nowMs))

theorem takeToken_empty (empty : (limits.found state hit).tokens ≤ 0) :
    limits.takeToken state hit = (limits.found state hit, .denied (ceilSeconds
      (max 1 ((limits.found state hit).lastRefillMs + limits.refillIntervalMs - hit.nowMs)))) :=
  if_pos empty

theorem takeToken_some (some' : 0 < (limits.found state hit).tokens) :
    limits.takeToken state hit = ({ limits.found state hit with
      tokens := (limits.found state hit).tokens - 1 }, .allowed) :=
  if_neg (not_le.mpr some')

theorem found_inBounds (inBounds : ∀ bucket, state = some bucket → limits.InBounds bucket)
    (hit : Hit) : limits.InBounds (limits.found state hit) := by
  refine refill_inBounds ?_ hit.nowMs
  cases state with
  | none => exact freshBucket_inBounds hit.nowMs
  | some bucket => exact inBounds bucket rfl

theorem takeToken_inBounds (inBounds : ∀ bucket, state = some bucket → limits.InBounds bucket)
    (hit : Hit) : limits.InBounds (limits.takeToken state hit).1 := by
  have found := found_inBounds inBounds hit
  by_cases empty : (limits.found state hit).tokens ≤ 0
  · rw [takeToken_empty empty]
    exact found
  · rw [takeToken_some (not_le.mp empty)]
    have atMost := found.atMost
    exact ⟨by show 0 ≤ _ - 1; omega, by show _ - 1 ≤ _; omega⟩

def since (first : Int) (times : List Int) : List Int := times.filter fun time => first ≤ time

def during (first last : Int) (times : List Int) : List Int :=
  times.filter fun time => first ≤ time ∧ time ≤ last

theorem length_during_le (first last : Int) (times : List Int) :
    (during first last times).length ≤ (since first times).length := by
  refine (List.monotone_filter_right times fun time inside => ?_).length_le
  rw [decide_eq_true_iff] at inside ⊢
  exact inside.1

def refills (limits : TokenBucketLimits) (first : Int) (bucket : TokenBucket) : Int :=
  -((first - bucket.lastRefillMs) / limits.refillIntervalMs)

theorem refills_le {first last : Int} (notLater : bucket.lastRefillMs ≤ last) :
    limits.refills first bucket ≤ (last - first) / limits.refillIntervalMs + 1 := by
  have positive : (0 : Int) < limits.refillIntervalMs := Int.natCast_pos.mpr limits.someInterval
  have before := Int.lt_ediv_add_one_mul_self (first - bucket.lastRefillMs) positive
  have after := Int.lt_ediv_add_one_mul_self (last - first) positive
  rw [refills]
  generalize (first - bucket.lastRefillMs) / (limits.refillIntervalMs : Int) = x at *
  generalize (last - first) / (limits.refillIntervalMs : Int) = y at *
  have sum : 0 < (x + 1 + (y + 1)) * (limits.refillIntervalMs : Int) := by
    rw [add_mul]
    omega
  have some' := (mul_pos_iff_of_pos_right positive).mp sum
  omega

theorem refills_nonneg {first : Int} (within : first < bucket.lastRefillMs + limits.refillIntervalMs) :
    0 ≤ limits.refills first bucket := by
  have positive : (0 : Int) < limits.refillIntervalMs := Int.natCast_pos.mpr limits.someInterval
  have small : (first - bucket.lastRefillMs) / (limits.refillIntervalMs : Int) < 1 := by
    rw [Int.ediv_lt_iff_lt_mul positive]
    omega
  rw [refills]
  omega

/-- A bucket within its bounds, last refilled no later than the last hit, which has paid for every
stretch of time up to now: the tokens taken in it and the tokens left come from a full bucket and
the refills. -/
structure BucketSound (limits : TokenBucketLimits) (hits : List Hit)
    (run : Run (Option TokenBucket) Hit RateLimitResult) : Prop where
  idle : run.state = none → hits = []
  inBounds : ∀ bucket, run.state = some bucket → limits.InBounds bucket
  hitAt : ∀ time ∈ allowedTimes run.answers, ∃ hit ∈ hits, hit.nowMs = time
  notLater : ∀ bucket, run.state = some bucket → ∃ hit ∈ hits, bucket.lastRefillMs ≤ hit.nowMs
  paid : ∀ bucket, run.state = some bucket → ∀ first,
    0 < (since first (allowedTimes run.answers)).length →
      ((since first (allowedTimes run.answers)).length : Int) + bucket.tokens ≤
        limits.capacity + limits.refillTokens * limits.refills first bucket

variable {run : Run (Option TokenBucket) Hit RateLimitResult}

theorem since_append (first : Int) (times : List Int) (time : Int) :
    (since first (times ++ [time])).length =
      (since first times).length + if first ≤ time then 1 else 0 := by
  rw [since, List.filter_append, List.length_append]
  split
  · rename_i inside
    rw [List.filter_cons_of_pos (by simpa using inside)]
    rfl
  · rename_i outside
    rw [List.filter_cons_of_neg (by simpa using outside)]
    rfl

theorem refills_refilled {refilled : TokenBucket} {elapsed : Int} (first : Int)
    (last : refilled.lastRefillMs = bucket.lastRefillMs + elapsed * limits.refillIntervalMs) :
    limits.refills first refilled = limits.refills first bucket + elapsed := by
  have positive : (0 : Int) < limits.refillIntervalMs := Int.natCast_pos.mpr limits.someInterval
  have shifted : first - refilled.lastRefillMs =
      first - bucket.lastRefillMs + -elapsed * limits.refillIntervalMs := by
    rw [last, neg_mul]
    omega
  rw [refills, refills, shifted, Int.add_mul_ediv_right _ _ (ne_of_gt positive)]
  omega

theorem BucketSound.paid_found (sound : limits.BucketSound hits run) (first : Int)
    (begun : 0 < (since first (allowedTimes run.answers)).length ∨ first ≤ hit.nowMs) :
    ((since first (allowedTimes run.answers)).length : Int) +
        (limits.found run.state hit).tokens ≤
      limits.capacity + limits.refillTokens *
        limits.refills first (limits.found run.state hit) := by
  have inBounds := found_inBounds sound.inBounds hit
  by_cases none : (since first (allowedTimes run.answers)).length = 0
  · have within := (@refill_refilled limits hit.nowMs
      (run.state.getD (limits.freshBucket hit.nowMs))).within
    have nonneg : 0 ≤ limits.refills first (limits.found run.state hit) :=
      refills_nonneg (lt_of_le_of_lt (begun.resolve_left (by omega)) within)
    have added := mul_nonneg (Int.natCast_nonneg limits.refillTokens) nonneg
    have atMost := inBounds.atMost
    omega
  · cases isState : run.state with
    | none =>
      have empty : allowedTimes run.answers = [] := by
        refine List.eq_nil_iff_forall_not_mem.mpr fun time member => ?_
        obtain ⟨earlier, isHit, -⟩ := sound.hitAt time member
        rw [sound.idle isState] at isHit
        exact List.not_mem_nil isHit
      rw [empty] at none
      exact absurd rfl none
    | some bucket =>
      have paid := sound.paid bucket isState first (by omega)
      obtain ⟨elapsed, -, last, tokens, -⟩ :=
        (@refill_refilled limits hit.nowMs bucket).intervals
      have more := refills_refilled first last
      have whole : limits.found (some bucket) hit = limits.refill hit.nowMs bucket := rfl
      rw [whole, more, mul_add, mul_comm _ elapsed]
      omega

theorem found_notLater (sound : limits.BucketSound hits run)
    (chronological : Chronological (hits ++ [hit])) :
    (limits.found run.state hit).lastRefillMs ≤ hit.nowMs := by
  refine (refill_refilled hit.nowMs _).notLater ?_
  cases isState : run.state with
  | none => exact le_refl _
  | some bucket =>
    obtain ⟨earlier, isHit, before⟩ := sound.notLater bucket isState
    exact before.trans (chronological.le_last isHit)

theorem BucketSound.step (sound : limits.BucketSound hits run)
    (chronological : Chronological (hits ++ [hit])) :
    limits.BucketSound (hits ++ [hit]) (limits.ownBucket.advance run hit) := by
  have state : (limits.ownBucket.advance run hit).state =
      some (limits.takeToken run.state hit).1 := rfl
  have answers : (limits.ownBucket.advance run hit).answers =
      run.answers ++ [(hit, (limits.takeToken run.state hit).2)] := rfl
  have notLater := found_notLater sound chronological
  refine ⟨by simp [state], ?_, ?_, ?_, ?_⟩
  · rw [state]
    rintro _ ⟨⟩
    exact takeToken_inBounds sound.inBounds hit
  · intro time member
    rw [answers, allowedTimes_append, List.mem_append] at member
    rcases member with before | isNow
    · obtain ⟨earlier, isHit, isTime⟩ := sound.hitAt time before
      exact ⟨earlier, List.mem_append_left _ isHit, isTime⟩
    · refine ⟨hit, by simp, ?_⟩
      simp only [allowedTimes, List.mem_map, List.mem_filter, List.mem_singleton] at isNow
      obtain ⟨answer, ⟨rfl, -⟩, isTime⟩ := isNow
      exact isTime
  · rw [state]
    rintro _ ⟨⟩
    refine ⟨hit, by simp, ?_⟩
    by_cases empty : (limits.found run.state hit).tokens ≤ 0
    · rw [takeToken_empty empty]
      exact notLater
    · rw [takeToken_some (not_le.mp empty)]
      exact notLater
  · rw [state, answers, allowedTimes_append]
    rintro _ ⟨⟩ first begun
    by_cases empty : (limits.found run.state hit).tokens ≤ 0
    · rw [takeToken_empty empty] at begun ⊢
      have none : allowedTimes [(hit, RateLimitResult.denied (ceilSeconds (max 1
          ((limits.found run.state hit).lastRefillMs + limits.refillIntervalMs -
            hit.nowMs))))] = [] := rfl
      rw [none, List.append_nil] at begun ⊢
      exact sound.paid_found first (Or.inl begun)
    · rw [takeToken_some (not_le.mp empty)] at begun ⊢
      have one : allowedTimes [(hit, RateLimitResult.allowed)] = [hit.nowMs] := rfl
      rw [one, since_append] at begun ⊢
      by_cases inside : first ≤ hit.nowMs
      · have paid := sound.paid_found first (Or.inr inside)
        rw [if_pos inside, Nat.cast_add, Nat.cast_one]
        show _ + 1 + ((limits.found run.state hit).tokens - 1) ≤
          _ + _ * limits.refills first (limits.found run.state hit)
        omega
      · rw [if_neg inside, Nat.add_zero] at begun ⊢
        have paid := @BucketSound.paid_found _ _ hit _ sound first (Or.inl begun)
        show _ + ((limits.found run.state hit).tokens - 1) ≤
          _ + _ * limits.refills first (limits.found run.state hit)
        omega

theorem bucket_sound (chronological : Chronological hits) :
    limits.BucketSound hits (limits.ownBucket.run hits) := by
  refine run_invariant limits.ownBucket (fun _ _ => Chronological.shorter) limits.BucketSound
    ?_ (fun _ _ ordered sound => sound.step ordered) chronological
  exact ⟨fun _ => rfl, by simp [run_nil, ownBucket], by simp [run_nil, allowedTimes],
    by simp [run_nil, ownBucket], by simp [run_nil, ownBucket]⟩

theorem during_append (first last : Int) (times : List Int) (time : Int) :
    (during first last (times ++ [time])).length =
      (during first last times).length + if first ≤ time ∧ time ≤ last then 1 else 0 := by
  rw [during, List.filter_append, List.length_append]
  split
  · rename_i inside
    rw [List.filter_cons_of_pos (by simpa using inside)]
    rfl
  · rename_i outside
    rw [List.filter_cons_of_neg (by simpa using outside)]
    rfl

theorem BucketSound.during_le (sound : limits.BucketSound hits run) {first last : Int}
    (begun : 0 < (since first (allowedTimes run.answers)).length)
    (ended : ∀ hit ∈ hits, hit.nowMs ≤ last) :
    ((during first last (allowedTimes run.answers)).length : Int) ≤
      limits.capacity + limits.refillTokens * ((last - first) / limits.refillIntervalMs + 1) := by
  cases isState : run.state with
  | none =>
    obtain ⟨time, member⟩ := List.exists_mem_of_length_pos begun
    obtain ⟨hit, isHit, -⟩ := sound.hitAt time (List.mem_filter.mp member).1
    rw [sound.idle isState] at isHit
    exact absurd isHit List.not_mem_nil
  | some bucket =>
    have fewer := length_during_le first last (allowedTimes run.answers)
    have paid := sound.paid bucket isState first begun
    have nonneg := (sound.inBounds bucket isState).nonneg
    obtain ⟨hit, isHit, before⟩ := sound.notLater bucket isState
    have atMost := mul_le_mul_of_nonneg_left
      (@refills_le limits _ first _ (before.trans (ended hit isHit)))
      (Int.natCast_nonneg limits.refillTokens)
    omega

theorem ownBucket_during_le (chronological : Chronological hits) (first : Int) (length : Nat) :
    (during first (first + length) (allowedTimes (limits.ownBucket.run hits).answers)).length ≤
      limits.capacity + limits.refillTokens * (length / limits.refillIntervalMs + 1) := by
  induction hits using List.reverseRecOn with
  | nil => exact Nat.zero_le _
  | append_singleton hits hit ih =>
    have before := ih chronological.shorter
    have answers := answers_append_one limits.ownBucket hits hit
    cases answer : limits.ownBucket.reply hits hit with
    | denied seconds =>
      have none : allowedTimes [(hit, RateLimitResult.denied seconds)] = [] := rfl
      rw [answers, allowedTimes_append, answer, none, List.append_nil]
      exact before
    | allowed =>
      have one : allowedTimes [(hit, RateLimitResult.allowed)] = [hit.nowMs] := rfl
      rw [answer] at answers
      by_cases inside : first ≤ hit.nowMs ∧ hit.nowMs ≤ first + length
      · have sound := @bucket_sound limits _ chronological
        have begun : 0 < (since first
            (allowedTimes (limits.ownBucket.run (hits ++ [hit])).answers)).length := by
          rw [answers, allowedTimes_append, one, since_append, if_pos inside.1]
          exact Nat.succ_pos _
        have ended : ∀ earlier ∈ hits ++ [hit], earlier.nowMs ≤ first + length :=
          fun earlier member => (chronological.le_now member).trans inside.2
        have bound := sound.during_le begun ended
        have stretch : first + (length : Int) - first = length := by omega
        rw [stretch] at bound
        exact_mod_cast bound
      · rw [answers, allowedTimes_append, one, during_append, if_neg inside]
        exact before

theorem ownBucket_reply : limits.ownBucket.reply hits hit =
    (limits.takeToken (limits.ownBucket.run hits).state hit).2 := rfl

theorem ownBucket_denied_iff : (∃ seconds, limits.ownBucket.reply hits hit = .denied seconds) ↔
    (limits.found (limits.ownBucket.run hits).state hit).tokens ≤ 0 := by
  rw [ownBucket_reply]
  constructor
  · rintro ⟨seconds, denied⟩
    refine not_lt.mp fun some' => ?_
    rw [takeToken_some some'] at denied
    exact absurd denied (by simp)
  · intro empty
    rw [takeToken_empty empty]
    exact ⟨_, rfl⟩

theorem ownBucket_retry {again : Hit} {seconds : Int}
    (chronological : Chronological (hits ++ [hit]))
    (denied : limits.ownBucket.reply hits hit = .denied seconds)
    (late : hit.nowMs + 1000 * seconds ≤ again.nowMs) :
    limits.ownBucket.reply (hits ++ [hit]) again = .allowed := by
  have sound := @bucket_sound limits _ chronological.shorter
  have empty := ownBucket_denied_iff.mp ⟨seconds, denied⟩
  have state : (limits.ownBucket.run (hits ++ [hit])).state =
      some (limits.found (limits.ownBucket.run hits).state hit) := by
    rw [state_append_one]
    exact congrArg (fun taken => some taken.1) (takeToken_empty empty)
  rw [ownBucket_reply, takeToken_empty empty] at denied
  injection denied with isSeconds
  have enough := le_ceilSeconds (max 1 ((limits.found (limits.ownBucket.run hits).state
    hit).lastRefillMs + limits.refillIntervalMs - hit.nowMs))
  rw [ownBucket_reply, state, takeToken_some]
  rw [found, Option.getD_some]
  exact refill_tokens_pos (found_inBounds sound.inBounds hit) (by omega)

theorem limiter_denied_iff (valid : limits.Valid (hits ++ [hit])) :
    (∃ seconds, limits.limiter.reply hits hit = .denied seconds) ↔
      ∃ bucket, (limits.limiter.run hits).state.get? hit.key = some bucket ∧
        (limits.refill hit.nowMs bucket).tokens = 0 := by
  have shorter := Valid.shorter hits hit valid
  have chronological : Chronological (own Hit.key hit.key hits) :=
    shorter.chronological.sublist (own_sublist _ _ _)
  have sound := @bucket_sound limits _ chronological
  rw [limiter_reply valid, ownBucket_denied_iff, limiter_get? shorter]
  cases isState : (limits.ownBucket.run (own Hit.key hit.key hits)).state with
  | none =>
    have full : (limits.found none hit).tokens = limits.capacity := by
      rw [found, Option.getD_none, refill,
        if_pos (show hit.nowMs ≤ (limits.freshBucket hit.nowMs).lastRefillMs from le_refl _)]
      rfl
    have capacity := limits.someCapacity
    rw [full]
    constructor
    · intro empty
      omega
    · rintro ⟨bucket, ⟨⟩, -⟩
  | some bucket =>
    have nonneg := (found_inBounds sound.inBounds hit).nonneg
    rw [isState] at nonneg
    constructor
    · exact fun empty => ⟨bucket, rfl, le_antisymm empty nonneg⟩
    · rintro ⟨_, ⟨⟩, empty⟩
      exact empty.le

theorem limiter_retry {others : List Hit} {again : Hit} {seconds : Int}
    (valid : limits.Valid (hits ++ [hit] ++ others ++ [again]))
    (denied : limits.limiter.reply hits hit = .denied seconds)
    (others_other : ∀ other ∈ others, other.key ≠ hit.key) (isKey : again.key = hit.key)
    (late : hit.nowMs + 1000 * seconds ≤ again.nowMs) :
    limits.limiter.reply (hits ++ [hit] ++ others) again = .allowed := by
  have first : limits.Valid (hits ++ [hit]) :=
    valid.sublist ((List.sublist_append_left _ others).trans (List.sublist_append_left _ [again]))
  have chronological : Chronological (own Hit.key hit.key (hits ++ [hit])) :=
    first.chronological.sublist (own_sublist _ _ _)
  rw [own_append, own_self] at chronological
  rw [limiter_reply first] at denied
  rw [limiter_reply valid, isKey, own_append_others hits hit others_other]
  exact ownBucket_retry chronological denied late

theorem limiter_inBounds (hits : List Hit) {key : Text} {bucket : TokenBucket}
    (present : (limits.limiter.run hits).state.get? key = some bucket) :
    limits.InBounds bucket := by
  induction hits using List.reverseRecOn generalizing key bucket with
  | nil => simp [run_nil, limiter] at present
  | append_singleton hits hit ih =>
    rw [state_append_one] at present
    have touched := OrderedMap.get?_iterate_deleteOldest _ present
    rw [OrderedMap.get?_touch] at touched
    split at touched
    · rw [← Option.some.inj touched]
      exact takeToken_inBounds (fun bucket found => ih found) hit
    · exact ih touched

structure Correct (limits : TokenBucketLimits) (hits : List Hit) : Prop where
  bounded : ∀ key first (length : Nat), (during first (first + length)
    (allowedTimes (ownAnswers Hit.key key (limits.limiter.run hits).answers))).length ≤
      limits.capacity + limits.refillTokens * (length / limits.refillIntervalMs + 1)
  exact : ∀ before answer after, (limits.limiter.run hits).answers = before ++ answer :: after →
    ((∃ seconds, answer.2 = .denied seconds) ↔
      ∃ bucket, (limits.limiter.run (before.map Prod.fst)).state.get? answer.1.key = some bucket ∧
        (limits.refill answer.1.nowMs bucket).tokens = 0)
  independent : ∀ key, ownAnswers Hit.key key (limits.limiter.run hits).answers =
    (limits.limiter.run (own Hit.key key hits)).answers
  retried : ∀ earlier hit others again seconds, hits = earlier ++ [hit] ++ others ++ [again] →
    limits.limiter.reply earlier hit = .denied seconds → (∀ other ∈ others, other.key ≠ hit.key) →
      again.key = hit.key → hit.nowMs + 1000 * seconds ≤ again.nowMs →
        limits.limiter.reply (earlier ++ [hit] ++ others) again = .allowed

theorem limiter_correct (valid : limits.Valid hits) : limits.Correct hits where
  bounded := by
    intro key first length
    rw [limiter_own valid]
    exact ownBucket_during_le (valid.chronological.sublist (own_sublist _ _ _)) first length
  exact := by
    intro before answer after split
    have isReply := (answers_split split).2
    have whole := map_fst_answers limits.limiter hits
    rw [split, List.map_append, List.map_cons] at whole
    have first : limits.Valid (before.map Prod.fst ++ [answer.1]) := by
      refine valid.sublist ?_
      rw [← whole]
      exact List.Sublist.append_left (by simp) _
    rw [isReply, limiter_denied_iff first]
  independent := limiter_independent valid
  retried := by
    rintro earlier hit others again seconds rfl denied others_other isKey late
    exact limiter_retry valid denied others_other isKey late

end TokenBucketLimits

/-- The limiter that the options make holds its limits over every sequence of hits; its table and
its buckets stay within bounds whatever the hits are. -/
theorem createTokenBucketRateLimiter_correct (options : TokenBucketOptions) (hits : List Hit) :
    (options.limits.limiter.run hits).state.size ≤ options.limits.maxBuckets ∧
      (∀ key bucket, (options.limits.limiter.run hits).state.get? key = some bucket →
        0 ≤ bucket.tokens ∧ bucket.tokens ≤ options.limits.capacity) ∧
          (options.limits.Valid hits → options.limits.Correct hits) := by
  refine ⟨TokenBucketLimits.limiter_size_le hits, fun key bucket present => ?_,
    TokenBucketLimits.limiter_correct⟩
  have inBounds := TokenBucketLimits.limiter_inBounds hits present
  exact ⟨inBounds.nonneg, inBounds.atMost⟩

def oneEachSecond : TokenBucketOptions :=
  { capacity := 1, maxBuckets := 2, refillIntervalMs := 1000, refillTokens := 1 }

def deniedThenLater : List Hit :=
  [{ key := ['a'], nowMs := 0 }, { key := ['b'], nowMs := 300 }, { key := ['a'], nowMs := 400 },
    { key := ['a'], nowMs := 1400 }]

theorem deniedThenLater_valid : oneEachSecond.limits.Valid deniedThenLater where
  chronological := by simp [Chronological, deniedThenLater]
  fewKeys := by
    have buckets : oneEachSecond.limits.maxBuckets = 2 := by
      simp [TokenBucketOptions.limits, oneEachSecond, atLeastOne]
    rw [buckets]
    decide

theorem createTokenBucketRateLimiter_correct_deniedThenLater :
    (oneEachSecond.limits.limiter.run deniedThenLater).state.size ≤
        oneEachSecond.limits.maxBuckets ∧ oneEachSecond.limits.Correct deniedThenLater :=
  (createTokenBucketRateLimiter_correct oneEachSecond deniedThenLater).imp id
    fun rest => rest.2 deniedThenLater_valid

end Metidos.RateLimit
