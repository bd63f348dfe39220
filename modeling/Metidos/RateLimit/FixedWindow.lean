import Metidos.Library.BoundedTable
import Metidos.Library.Machine
import Metidos.Library.SlidingWindow
import Metidos.RateLimit.LimiterHits

/-!
The bounded in-memory rate limiter of `src/bun/fixed-window-rate-limit.ts`, and the refinement
by it of one sliding window for each key.
-/

namespace Metidos.RateLimit

open SlidingWindow Machine

structure FixedWindowOptions where
  maxBuckets : Rat
  maxRequests : Rat
  windowMs : Rat

structure FixedWindowLimits where
  maxBuckets : Nat
  maxRequests : Nat
  windowMs : Nat
  someRequests : 0 < maxRequests
  someBuckets : 0 < maxBuckets
  someWindow : 0 < windowMs

def FixedWindowOptions.limits (options : FixedWindowOptions) : FixedWindowLimits where
  maxBuckets := atLeastOne options.maxBuckets
  maxRequests := atLeastOne options.maxRequests
  windowMs := atLeastOne options.windowMs
  someRequests := atLeastOne_pos _
  someBuckets := atLeastOne_pos _
  someWindow := atLeastOne_pos _

abbrev WindowBuckets := OrderedMap Text (List Int)

def prunedBucket (cutoffMs : Int) (_ : Text) (timestamps : List Int) : Option (List Int) :=
  let recentTimestamps := timestamps.dropWhile fun timestamp => timestamp ≤ cutoffMs
  if recentTimestamps = [] then none else some recentTimestamps

namespace FixedWindowLimits

variable (limits : FixedWindowLimits)

def sweep (nowMs : Int) (buckets : WindowBuckets) : WindowBuckets :=
  buckets.filterMapValues (prunedBucket (nowMs - limits.windowMs))

def prune (nowMs : Int) (buckets : WindowBuckets) : WindowBuckets :=
  (limits.sweep nowMs buckets).trimOldest limits.maxBuckets

def hit (buckets : WindowBuckets) (hit : Hit) : WindowBuckets × RateLimitResult :=
  let pruned := limits.prune hit.nowMs buckets
  let recentTimestamps := (pruned.get? hit.key).getD []
  if limits.maxRequests ≤ recentTimestamps.length then
    let oldest := recentTimestamps.head?.getD hit.nowMs
    (pruned, .denied (max 1 (ceilSeconds (oldest + limits.windowMs - hit.nowMs))))
  else
    (limits.prune hit.nowMs (pruned.touch hit.key (recentTimestamps ++ [hit.nowMs])), .allowed)

def limiter : Machine WindowBuckets Hit RateLimitResult where
  start := OrderedMap.empty
  step := limits.hit

def decideHit (times : List Int) (hit : Hit) : List Int × RateLimitResult :=
  let recentTimes := recent (limits.windowMs : Int) hit.nowMs times
  if limits.maxRequests ≤ recentTimes.length then
    let oldest := recentTimes.head?.getD hit.nowMs
    (times, .denied (max 1 (ceilSeconds (oldest + limits.windowMs - hit.nowMs))))
  else (times ++ [hit.nowMs], .allowed)

def window : Machine (List Int) Hit RateLimitResult where
  start := []
  step := limits.decideHit

def hitsWithin (first last : Int) (hits : List Hit) : List Hit :=
  hits.filter fun hit => first < hit.nowMs ∧ hit.nowMs ≤ last

/-- Nondecreasing times, and no more keys in a window than there are buckets. -/
structure Valid (hits : List Hit) : Prop where
  chronological : Chronological hits
  fewKeys : ∀ first,
    (keysOf (hitsWithin first (first + limits.windowMs) hits)).length ≤ limits.maxBuckets

variable {limits}

theorem Valid.sublist {hits others : List Hit} (valid : limits.Valid hits)
    (within : others.Sublist hits) : limits.Valid others where
  chronological := valid.chronological.sublist within
  fewKeys := fun first =>
    (keysOf_length_le (within.filter _).subset).trans (valid.fewKeys first)

theorem Valid.shorter (hits : List Hit) (hit : Hit) (valid : limits.Valid (hits ++ [hit])) :
    limits.Valid hits :=
  valid.sublist (List.sublist_append_left hits [hit])

theorem Valid.le_last {hits : List Hit} {hit earlier : Hit} (valid : limits.Valid (hits ++ [hit]))
    (member : earlier ∈ hits) : earlier.nowMs ≤ hit.nowMs :=
  valid.chronological.le_last member

def liveBucket (limits : FixedWindowLimits) (nowMs : Int) (times : List Int) : Option (List Int) :=
  let recentTimes := recent (limits.windowMs : Int) nowMs times
  if recentTimes = [] then none else some recentTimes

theorem liveBucket_getD (nowMs : Int) (times : List Int) :
    (limits.liveBucket nowMs times).getD [] = recent (limits.windowMs : Int) nowMs times := by
  rw [liveBucket]
  split
  · rename_i empty
    rw [empty, Option.getD_none]
  · rfl

theorem prunedBucket_eq {nowMs : Int} {times : List Int} (key : Text)
    (chronological : times.Pairwise (· ≤ ·)) :
    prunedBucket (nowMs - limits.windowMs) key times = limits.liveBucket nowMs times := by
  rw [prunedBucket, liveBucket, dropWhile_expired chronological]

theorem liveBucket_bind {nowMs later : Int} {times : List Int} (key : Text)
    (chronological : times.Pairwise (· ≤ ·)) (passed : nowMs ≤ later) :
    (limits.liveBucket nowMs times).bind (prunedBucket (later - limits.windowMs) key) =
      limits.liveBucket later times := by
  have still := @recent_recent _ _ _ _ (limits.windowMs : Int) _ _ times passed
  rw [liveBucket]
  split
  · rename_i empty
    rw [empty] at still
    rw [Option.bind_none, liveBucket, ← still]
    rfl
  · rw [Option.bind_some, prunedBucket_eq key (chronological.sublist (recent_sublist times)),
      liveBucket, still, liveBucket]

/-- Once swept at a time after the hits, the table holds what is live of every key's
admissions, and these were made by hits of the key. -/
structure Refines (limits : FixedWindowLimits) (hits : List Hit) (buckets : WindowBuckets)
    (times : Text → List Int) : Prop where
  swept : ∀ later, (∀ hit ∈ hits, hit.nowMs ≤ later) → ∀ key,
    (limits.sweep later buckets).get? key = limits.liveBucket later (times key)
  hitAt : ∀ key, ∀ time ∈ times key, { key := key, nowMs := time : Hit } ∈ hits
  ordered : ∀ key, (times key).Pairwise (· ≤ ·)

variable {hits : List Hit} {hit : Hit} {buckets : WindowBuckets} {times : Text → List Int}

theorem mem_hitsWithin {first last : Int} {earlier : Hit} :
    earlier ∈ hitsWithin first last hits ↔
      earlier ∈ hits ∧ first < earlier.nowMs ∧ earlier.nowMs ≤ last := by
  simp [hitsWithin]

theorem Refines.fits (refines : limits.Refines hits buckets times) (valid : limits.Valid hits)
    {nowMs : Int} (notEarlier : ∀ hit ∈ hits, hit.nowMs ≤ nowMs) :
    (limits.sweep nowMs buckets).size ≤ limits.maxBuckets := by
  refine (OrderedMap.size_le_of_keys_subset fun key member => ?_).trans
    (valid.fewKeys (nowMs - limits.windowMs))
  obtain ⟨bucket, present⟩ := Option.ne_none_iff_exists'.mp
    (mt (OrderedMap.get?_eq_none_iff _ key).mp (not_not_intro member))
  rw [refines.swept nowMs notEarlier, liveBucket] at present
  split at present
  · exact absurd present (by simp)
  · rename_i some'
    obtain ⟨time, inWindow⟩ := List.exists_mem_of_ne_nil _ some'
    obtain ⟨isTime, live⟩ := mem_recent.mp inWindow
    have hitThen := refines.hitAt key time isTime
    have notLater : time ≤ nowMs := notEarlier _ hitThen
    refine mem_keysOf.mpr ⟨_, mem_hitsWithin.mpr ⟨hitThen, live, ?_⟩, rfl⟩
    show time ≤ _
    omega

theorem Refines.prune_eq (refines : limits.Refines hits buckets times)
    (valid : limits.Valid hits) {nowMs : Int} (notEarlier : ∀ hit ∈ hits, hit.nowMs ≤ nowMs) :
    limits.prune nowMs buckets = limits.sweep nowMs buckets :=
  OrderedMap.trimOldest_of_le (refines.fits valid notEarlier)

theorem get?_sweep (later : Int) (key : Text) : (limits.sweep later buckets).get? key =
    (buckets.get? key).bind (prunedBucket (later - limits.windowMs) key) :=
  OrderedMap.get?_filterMapValues _ _ _

theorem Refines.sweep (refines : limits.Refines hits buckets times) {more : List Hit}
    (among : hits ⊆ more) {nowMs : Int} (notEarlier : ∀ hit ∈ hits, hit.nowMs ≤ nowMs)
    (come : ∃ hit ∈ more, nowMs ≤ hit.nowMs) :
    limits.Refines more (limits.sweep nowMs buckets) times where
  swept := by
    intro later notBefore key
    obtain ⟨hit, isHit, reached⟩ := come
    rw [get?_sweep, refines.swept nowMs notEarlier,
      liveBucket_bind key (refines.ordered key) (reached.trans (notBefore hit isHit))]
  hitAt := fun key time member => among (refines.hitAt key time member)
  ordered := refines.ordered

theorem Refines.last (refines : limits.Refines hits buckets times)
    (valid : limits.Valid (hits ++ [hit])) (key : Text) :
    (times key ++ [hit.nowMs]).Pairwise (· ≤ ·) := by
  refine List.pairwise_append.mpr ⟨refines.ordered key, List.pairwise_singleton _ _, ?_⟩
  intro time member other isNow
  rw [List.mem_singleton.mp isNow]
  exact valid.le_last (refines.hitAt key time member)

theorem Refines.allowed (refines : limits.Refines hits buckets times)
    (valid : limits.Valid (hits ++ [hit])) :
    limits.Refines (hits ++ [hit])
      ((limits.sweep hit.nowMs buckets).touch hit.key
        (recent (limits.windowMs : Int) hit.nowMs (times hit.key) ++ [hit.nowMs]))
      (Function.update times hit.key (times hit.key ++ [hit.nowMs])) where
  swept := by
    intro later notEarlier key
    have passed : hit.nowMs ≤ later := notEarlier hit (by simp)
    rw [get?_sweep, OrderedMap.get?_touch]
    by_cases isKey : key = hit.key
    · subst isKey
      have chronological := refines.last valid hit.key
      have fewer : (recent (limits.windowMs : Int) hit.nowMs (times hit.key) ++
          [hit.nowMs]).Pairwise (· ≤ ·) :=
        chronological.sublist ((recent_sublist _).append_right _)
      rw [if_pos rfl, Option.bind_some, prunedBucket_eq hit.key fewer, Function.update_self,
        liveBucket, liveBucket, recent_append, recent_append, recent_recent passed]
    · rw [if_neg isKey, Function.update_of_ne isKey,
        refines.swept hit.nowMs (fun earlier => valid.le_last),
        liveBucket_bind key (refines.ordered key) passed]
  hitAt := by
    intro key time member
    by_cases isKey : key = hit.key
    · subst isKey
      rw [Function.update_self, List.mem_append] at member
      rcases member with earlier | isNow
      · exact List.mem_append_left _ (refines.hitAt _ time earlier)
      · rw [List.mem_singleton.mp isNow]
        exact List.mem_append_right _ (List.mem_singleton_self hit)
    · rw [Function.update_of_ne isKey] at member
      exact List.mem_append_left _ (refines.hitAt key time member)
  ordered := by
    intro key
    by_cases isKey : key = hit.key
    · subst isKey
      rw [Function.update_self]
      exact refines.last valid hit.key
    · rw [Function.update_of_ne isKey]
      exact refines.ordered key

theorem Refines.start : limits.Refines [] limits.limiter.start fun _ => [] where
  swept := fun _ _ _ => rfl
  hitAt := by simp
  ordered := fun _ => List.Pairwise.nil

theorem Refines.step (refines : limits.Refines hits buckets times)
    (valid : limits.Valid (hits ++ [hit])) :
    (limits.limiter.step buckets hit).2 =
        ((limits.window.keyed Hit.key).step times hit).2 ∧
      limits.Refines (hits ++ [hit]) (limits.limiter.step buckets hit).1
        ((limits.window.keyed Hit.key).step times hit).1 := by
  have notEarlier : ∀ earlier ∈ hits, earlier.nowMs ≤ hit.nowMs := fun _ => valid.le_last
  have kept : ((limits.sweep hit.nowMs buckets).get? hit.key).getD [] =
      recent (limits.windowMs : Int) hit.nowMs (times hit.key) := by
    rw [refines.swept hit.nowMs notEarlier, liveBucket_getD]
  simp only [limiter, window, keyed, decideHit, FixedWindowLimits.hit,
    refines.prune_eq (Valid.shorter hits hit valid) notEarlier, kept]
  split
  · rename_i full
    refine ⟨rfl, ?_⟩
    rw [Function.update_eq_self]
    exact refines.sweep (List.subset_append_left hits [hit]) notEarlier ⟨hit, by simp, le_refl _⟩
  · refine ⟨rfl, ?_⟩
    have added := refines.allowed valid
    have notAfter : ∀ earlier ∈ hits ++ [hit], earlier.nowMs ≤ hit.nowMs :=
      fun _ => valid.chronological.le_now
    rw [added.prune_eq valid notAfter]
    exact added.sweep (List.Subset.refl _) notAfter ⟨hit, by simp, le_refl _⟩

end FixedWindowLimits

end Metidos.RateLimit

/-!
What the fixed-window limiter guarantees over every sequence of hits.
-/

namespace Metidos.RateLimit

open SlidingWindow Machine

namespace FixedWindowLimits

variable {limits : FixedWindowLimits} {hits : List Hit} {hit : Hit}

theorem decideHit_full {times : List Int}
    (full : limits.maxRequests ≤ (recent (limits.windowMs : Int) hit.nowMs times).length) :
    limits.decideHit times hit = (times, .denied (max 1 (ceilSeconds
      ((recent (limits.windowMs : Int) hit.nowMs times).head?.getD hit.nowMs + limits.windowMs -
        hit.nowMs)))) := if_pos full

theorem decideHit_room {times : List Int}
    (room : (recent (limits.windowMs : Int) hit.nowMs times).length < limits.maxRequests) :
    limits.decideHit times hit = (times ++ [hit.nowMs], .allowed) := if_neg (Nat.not_le_of_lt room)

structure WindowSound (limits : FixedWindowLimits) (hits : List Hit)
    (run : Run (List Int) Hit RateLimitResult) : Prop where
  remembered : allowedTimes run.answers = run.state
  admitted : Admitted (limits.windowMs : Int) limits.maxRequests run.state
  hitAt : ∀ time ∈ run.state, ∃ hit ∈ hits, hit.nowMs = time

theorem WindowSound.notLater {run : Run (List Int) Hit RateLimitResult}
    (sound : limits.WindowSound hits run) (chronological : Chronological (hits ++ [hit])) :
    ∀ time ∈ run.state, time ≤ hit.nowMs := by
  intro time member
  obtain ⟨first, isHit, rfl⟩ := sound.hitAt time member
  exact chronological.le_last isHit

theorem WindowSound.step {run : Run (List Int) Hit RateLimitResult}
    (sound : limits.WindowSound hits run) (chronological : Chronological (hits ++ [hit])) :
    limits.WindowSound (hits ++ [hit]) (limits.window.advance run hit) := by
  have stepped : limits.window.step run.state hit = limits.decideHit run.state hit := rfl
  rw [advance, stepped]
  by_cases full : limits.maxRequests ≤
      (recent (limits.windowMs : Int) hit.nowMs run.state).length
  · rw [decideHit_full full]
    refine ⟨?_, sound.admitted, fun time member => ?_⟩
    · rw [allowedTimes_append, sound.remembered]
      simp [allowedTimes]
    · obtain ⟨first, isHit, isTime⟩ := sound.hitAt time member
      exact ⟨first, List.mem_append_left _ isHit, isTime⟩
  · have room := Nat.lt_of_not_le full
    rw [decideHit_room room]
    refine ⟨?_, .next sound.admitted (sound.notLater chronological) room,
      fun time member => ?_⟩
    · rw [allowedTimes_append, sound.remembered]
      simp [allowedTimes]
    · rcases List.mem_append.mp member with before | isNow
      · obtain ⟨first, isHit, isTime⟩ := sound.hitAt time before
        exact ⟨first, List.mem_append_left _ isHit, isTime⟩
      · exact ⟨hit, by simp, (List.mem_singleton.mp isNow).symm⟩

theorem window_sound (chronological : Chronological hits) :
    limits.WindowSound hits (limits.window.run hits) := by
  refine run_invariant limits.window (fun _ _ => Chronological.shorter) limits.WindowSound
    ⟨rfl, .nil, by simp [run_nil, window]⟩ ?_ chronological
  intro earlier hit ordered sound
  exact sound.step ordered

theorem window_denied_iff : (∃ seconds, limits.window.reply hits hit = .denied seconds) ↔
    limits.maxRequests ≤
      (recent (limits.windowMs : Int) hit.nowMs (limits.window.run hits).state).length := by
  have decided : limits.window.reply hits hit =
      (limits.decideHit (limits.window.run hits).state hit).2 := rfl
  rw [decided]
  constructor
  · rintro ⟨seconds, denied⟩
    refine Nat.le_of_not_lt fun room => ?_
    rw [decideHit_room room] at denied
    exact absurd denied (by simp)
  · intro full
    rw [decideHit_full full]
    exact ⟨_, rfl⟩

theorem window_allowed (room :
    (recent (limits.windowMs : Int) hit.nowMs (limits.window.run hits).state).length <
      limits.maxRequests) : limits.window.reply hits hit = .allowed :=
  congrArg Prod.snd (decideHit_room room)

theorem window_retry {again : Hit} {seconds : Int}
    (chronological : Chronological (hits ++ [hit]))
    (denied : limits.window.reply hits hit = .denied seconds)
    (late : hit.nowMs + 1000 * seconds ≤ again.nowMs) :
    limits.window.reply (hits ++ [hit]) again = .allowed := by
  have full := window_denied_iff.mp ⟨seconds, denied⟩
  have sound := @window_sound limits _ chronological.shorter
  have atMost := sound.admitted.recent_le (sound.notLater chronological)
  have unchanged : (limits.window.run (hits ++ [hit])).state =
      (limits.window.run hits).state := by
    rw [state_append_one]
    exact congrArg Prod.fst (decideHit_full full)
  have decided : limits.window.reply hits hit = _ := congrArg Prod.snd (decideHit_full full)
  refine window_allowed ?_
  rw [unchanged]
  rw [decided] at denied
  generalize (limits.window.run hits).state = times at *
  have some' : 0 < (recent (limits.windowMs : Int) hit.nowMs times).length :=
    limits.someRequests.trans_le full
  obtain ⟨oldest, isOldest⟩ : ∃ oldest,
      (recent (limits.windowMs : Int) hit.nowMs times).head? = some oldest := by
    cases head : (recent (limits.windowMs : Int) hit.nowMs times).head? with
    | none => simp [List.head?_eq_none_iff.mp head] at some'
    | some oldest => exact ⟨oldest, rfl⟩
  rw [isOldest, Option.getD_some] at denied
  injection denied with isSeconds
  have enough := le_ceilSeconds (oldest + limits.windowMs - hit.nowMs)
  have fewer := @recent_length_lt _ _ _ _ _ _ again.nowMs _ _ (by omega) isOldest (by omega)
  omega

theorem limiter_simulates (valid : limits.Valid hits) :
    (limits.limiter.run hits).answers = ((limits.window.keyed Hit.key).run hits).answers ∧
      limits.Refines hits (limits.limiter.run hits).state
        ((limits.window.keyed Hit.key).run hits).state :=
  run_simulates limits.limiter (limits.window.keyed Hit.key) Valid.shorter limits.Refines
    Refines.start (fun _ _ _ _ valid _ refines => refines.step valid) valid

theorem limiter_reply (valid : limits.Valid (hits ++ [hit])) :
    limits.limiter.reply hits hit = limits.window.reply (own Hit.key hit.key hits) hit := by
  have refines := (limiter_simulates (Valid.shorter hits hit valid)).2
  rw [← keyed_reply]
  exact (refines.step valid).1

theorem limiter_own (valid : limits.Valid hits) (key : Text) :
    ownAnswers Hit.key key (limits.limiter.run hits).answers =
      (limits.window.run (own Hit.key key hits)).answers := by
  rw [(limiter_simulates valid).1, keyed_answers]

theorem limiter_independent (valid : limits.Valid hits) (key : Text) :
    ownAnswers Hit.key key (limits.limiter.run hits).answers =
      (limits.limiter.run (own Hit.key key hits)).answers := by
  rw [limiter_own valid, (limiter_simulates (valid.sublist (own_sublist _ _ _))).1,
    keyed_answers_own]

theorem Chronological.own (chronological : Chronological hits) (key : Text) :
    Chronological (own Hit.key key hits) :=
  chronological.sublist (own_sublist _ _ _)

theorem limiter_admitted (valid : limits.Valid hits) (key : Text) :
    Admitted (limits.windowMs : Int) limits.maxRequests
      (allowedTimes (ownAnswers Hit.key key (limits.limiter.run hits).answers)) := by
  have sound := @window_sound limits _ (Chronological.own valid.chronological key)
  rw [limiter_own valid, sound.remembered]
  exact sound.admitted

theorem limiter_denied_iff (valid : limits.Valid (hits ++ [hit])) :
    (∃ seconds, limits.limiter.reply hits hit = .denied seconds) ↔
      (recent (limits.windowMs : Int) hit.nowMs
        (allowedTimes (ownAnswers Hit.key hit.key (limits.limiter.run hits).answers))).length =
          limits.maxRequests := by
  have shorter := Valid.shorter hits hit valid
  have chronological := Chronological.own valid.chronological hit.key
  rw [own_append, own_self] at chronological
  have sound := @window_sound limits _ chronological.shorter
  have atMost := sound.admitted.recent_le (sound.notLater chronological)
  rw [limiter_reply valid, window_denied_iff, limiter_own shorter, sound.remembered]
  omega

theorem limiter_retry {others : List Hit} {again : Hit} {seconds : Int}
    (valid : limits.Valid (hits ++ [hit] ++ others ++ [again]))
    (denied : limits.limiter.reply hits hit = .denied seconds)
    (others_other : ∀ other ∈ others, other.key ≠ hit.key) (isKey : again.key = hit.key)
    (late : hit.nowMs + 1000 * seconds ≤ again.nowMs) :
    limits.limiter.reply (hits ++ [hit] ++ others) again = .allowed := by
  have first : limits.Valid (hits ++ [hit]) :=
    valid.sublist ((List.sublist_append_left _ others).trans (List.sublist_append_left _ [again]))
  have chronological := Chronological.own first.chronological hit.key
  rw [own_append, own_self] at chronological
  rw [limiter_reply first] at denied
  rw [limiter_reply valid, isKey, own_append_others hits hit others_other]
  exact window_retry chronological denied late

theorem size_prune_le (nowMs : Int) (buckets : WindowBuckets) :
    (limits.prune nowMs buckets).size ≤ limits.maxBuckets :=
  OrderedMap.size_trimOldest_le _ _

theorem limiter_size_le (hits : List Hit) :
    (limits.limiter.run hits).state.size ≤ limits.maxBuckets := by
  induction hits using List.reverseRecOn with
  | nil => exact Nat.zero_le _
  | append_singleton hits hit ih =>
    rw [state_append_one]
    simp only [limiter, FixedWindowLimits.hit]
    split
    · exact size_prune_le _ _
    · exact size_prune_le _ _

structure Correct (limits : FixedWindowLimits) (hits : List Hit) : Prop where
  bounded : ∀ key (first : Int), (between first (first + limits.windowMs)
    (allowedTimes (ownAnswers Hit.key key (limits.limiter.run hits).answers))).length ≤
      limits.maxRequests
  boundedAfter : ∀ key (first : Int), (within first (first + limits.windowMs)
    (allowedTimes (ownAnswers Hit.key key (limits.limiter.run hits).answers))).length ≤
      limits.maxRequests
  exact : ∀ before answer after, (limits.limiter.run hits).answers = before ++ answer :: after →
    ((∃ seconds, answer.2 = .denied seconds) ↔
      (recent (limits.windowMs : Int) answer.1.nowMs
        (allowedTimes (ownAnswers Hit.key answer.1.key before))).length = limits.maxRequests)
  independent : ∀ key, ownAnswers Hit.key key (limits.limiter.run hits).answers =
    (limits.limiter.run (own Hit.key key hits)).answers
  retried : ∀ earlier hit others again seconds, hits = earlier ++ [hit] ++ others ++ [again] →
    limits.limiter.reply earlier hit = .denied seconds → (∀ other ∈ others, other.key ≠ hit.key) →
      again.key = hit.key → hit.nowMs + 1000 * seconds ≤ again.nowMs →
        limits.limiter.reply (earlier ++ [hit] ++ others) again = .allowed

theorem limiter_correct (valid : limits.Valid hits) : limits.Correct hits where
  bounded := fun key first => (limiter_admitted valid key).between_le first
  boundedAfter := fun key first => (limiter_admitted valid key).within_le first
  exact := by
    intro before answer after split
    obtain ⟨answers, isReply⟩ := answers_split split
    have whole := map_fst_answers limits.limiter hits
    rw [split, List.map_append, List.map_cons] at whole
    have first : limits.Valid (before.map Prod.fst ++ [answer.1]) := by
      refine valid.sublist ?_
      rw [← whole]
      exact List.Sublist.append_left (by simp) _
    rw [isReply, limiter_denied_iff first, answers]
  independent := limiter_independent valid
  retried := by
    rintro earlier hit others again seconds rfl denied others_other isKey late
    exact limiter_retry valid denied others_other isKey late

end FixedWindowLimits

/-- The limiter that the options make holds its limits over every sequence of hits, and its table
stays small whatever the hits are. -/
theorem createFixedWindowRateLimiter_correct (options : FixedWindowOptions) (hits : List Hit) :
    (options.limits.limiter.run hits).state.size ≤ options.limits.maxBuckets ∧
      (options.limits.Valid hits → options.limits.Correct hits) :=
  ⟨FixedWindowLimits.limiter_size_le hits, FixedWindowLimits.limiter_correct⟩

def twoPerSecond : FixedWindowOptions := { maxBuckets := 2, maxRequests := 2, windowMs := 1000 }

def threeThenLater : List Hit :=
  [{ key := ['a'], nowMs := 0 }, { key := ['a'], nowMs := 400 }, { key := ['b'], nowMs := 900 },
    { key := ['a'], nowMs := 999 }, { key := ['a'], nowMs := 1999 }]

theorem threeThenLater_valid : twoPerSecond.limits.Valid threeThenLater where
  chronological := by simp [Chronological, threeThenLater]
  fewKeys := by
    intro first
    refine (keysOf_length_le List.filter_sublist.subset).trans ?_
    have buckets : twoPerSecond.limits.maxBuckets = 2 := by
      simp [FixedWindowOptions.limits, twoPerSecond, atLeastOne]
    rw [buckets]
    decide

theorem createFixedWindowRateLimiter_correct_threeThenLater :
    (twoPerSecond.limits.limiter.run threeThenLater).state.size ≤
        twoPerSecond.limits.maxBuckets ∧ twoPerSecond.limits.Correct threeThenLater :=
  (createFixedWindowRateLimiter_correct twoPerSecond threeThenLater).imp id
    fun correct => correct threeThenLater_valid

end Metidos.RateLimit
