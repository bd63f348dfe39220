import Metidos.Library.Machine
import Metidos.Library.SlidingWindow
import Metidos.RateLimit.LimiterHits

/-!
The notification limit of `src/bun/plugin/notifications.ts`: one table of sent times for all
plugins and recipients, from which the budgets of a minute and of a day are counted.
-/

namespace Metidos.RateLimit

open SlidingWindow Machine

def pluginNotificationMinuteWindowMs : Int := 60000

def pluginNotificationDayWindowMs : Int := 24 * 60 * 60 * 1000

structure NotificationSettings where
  enabled : Bool
  perDayLimit : Nat
  perMinuteLimit : Nat
  deriving DecidableEq

def defaultPluginNotificationRateLimits : NotificationSettings where
  enabled := true
  perDayLimit := 25
  perMinuteLimit := 3

/-- Settings as the controls give them, where a field may be missing or of another type. -/
structure NotificationControls where
  enabled : Option Bool
  perDayLimit : Option Rat
  perMinuteLimit : Option Rat
  deriving DecidableEq

def limitOr (default : Nat) : Option Rat → Nat
  | some value => if value.den = 1 ∧ 0 < value then value.num.toNat else default
  | none => default

def normalizedNotificationSettings (settings : Option NotificationControls) :
    NotificationSettings where
  enabled := (settings.bind NotificationControls.enabled).getD
    defaultPluginNotificationRateLimits.enabled
  perDayLimit := limitOr defaultPluginNotificationRateLimits.perDayLimit
    (settings.bind NotificationControls.perDayLimit)
  perMinuteLimit := limitOr defaultPluginNotificationRateLimits.perMinuteLimit
    (settings.bind NotificationControls.perMinuteLimit)

structure SentNotification where
  pluginId : Text
  recipient : Text
  sentAtMs : Int
  deriving DecidableEq

structure NotificationAttempt where
  nowMs : Int
  pluginId : Text
  recipient : Text
  controls : Option NotificationControls
  deriving DecidableEq

inductive NotificationDecision
  | disabled
  | rateLimited
  | admitted
  deriving DecidableEq

def NotificationAttempt.settings (attempt : NotificationAttempt) : NotificationSettings :=
  normalizedNotificationSettings attempt.controls

def NotificationAttempt.pair (attempt : NotificationAttempt) : Text × Text :=
  (attempt.pluginId, attempt.recipient)

def NotificationAttempt.sent (attempt : NotificationAttempt) : SentNotification where
  pluginId := attempt.pluginId
  recipient := attempt.recipient
  sentAtMs := attempt.nowMs

def deleteExpired (dayCutoff : Int) (rows : List SentNotification) : List SentNotification :=
  rows.filter fun row => dayCutoff < row.sentAtMs

def rowsOf (pluginId recipient : Text) (rows : List SentNotification) : List SentNotification :=
  rows.filter fun row => row.pluginId = pluginId ∧ row.recipient = recipient

def isPluginNotificationRateLimited (rows : List SentNotification)
    (attempt : NotificationAttempt) (settings : NotificationSettings) :
    List SentNotification × Bool :=
  let dayCutoff := attempt.nowMs - pluginNotificationDayWindowMs
  let minuteCutoff := attempt.nowMs - pluginNotificationMinuteWindowMs
  let kept := deleteExpired dayCutoff rows
  let counted := rowsOf attempt.pluginId attempt.recipient kept
  let perDayCount := counted.length
  let perMinuteCount := (counted.filter fun row => minuteCutoff < row.sentAtMs).length
  if settings.perMinuteLimit ≤ perMinuteCount ∨ settings.perDayLimit ≤ perDayCount then
    (kept, true)
  else
    (kept ++ [attempt.sent], false)

/-- The checks that `sendPluginNotificationThroughUserOutlets` makes first. -/
def checkNotification (rows : List SentNotification) (attempt : NotificationAttempt) :
    List SentNotification × NotificationDecision :=
  let settings := attempt.settings
  if settings.enabled = false then (rows, .disabled)
  else
    let checked := isPluginNotificationRateLimited rows attempt settings
    (checked.1, if checked.2 then .rateLimited else .admitted)

def notificationLimiter : Machine (List SentNotification) NotificationAttempt NotificationDecision where
  start := []
  step := checkNotification

def BudgetFull (times : List Int) (attempt : NotificationAttempt) : Prop :=
  attempt.settings.perMinuteLimit ≤
      (recent pluginNotificationMinuteWindowMs attempt.nowMs times).length ∨
    attempt.settings.perDayLimit ≤
      (recent pluginNotificationDayWindowMs attempt.nowMs times).length

instance (times : List Int) (attempt : NotificationAttempt) :
    Decidable (BudgetFull times attempt) :=
  inferInstanceAs (Decidable (_ ∨ _))

def decideNotification (times : List Int) (attempt : NotificationAttempt) :
    List Int × NotificationDecision :=
  if attempt.settings.enabled = false then (times, .disabled)
  else if BudgetFull times attempt then (times, .rateLimited)
  else (times ++ [attempt.nowMs], .admitted)

def ownBudget : Machine (List Int) NotificationAttempt NotificationDecision where
  start := []
  step := decideNotification

def InOrder (attempts : List NotificationAttempt) : Prop :=
  attempts.Pairwise fun earlier later => earlier.nowMs ≤ later.nowMs

theorem InOrder.shorter (attempts : List NotificationAttempt) (attempt : NotificationAttempt)
    (inOrder : InOrder (attempts ++ [attempt])) : InOrder attempts :=
  (List.pairwise_append.mp inOrder).1

theorem InOrder.le_last {attempts : List NotificationAttempt}
    {attempt earlier : NotificationAttempt} (inOrder : InOrder (attempts ++ [attempt]))
    (member : earlier ∈ attempts) : earlier.nowMs ≤ attempt.nowMs :=
  (List.pairwise_append.mp inOrder).2.2 earlier member attempt (List.mem_singleton_self attempt)

theorem InOrder.own {attempts : List NotificationAttempt} (inOrder : InOrder attempts)
    (pair : Text × Text) : InOrder (own NotificationAttempt.pair pair attempts) :=
  inOrder.sublist (own_sublist _ _ _)

def timesOf (pair : Text × Text) (rows : List SentNotification) : List Int :=
  (rowsOf pair.1 pair.2 rows).map SentNotification.sentAtMs

theorem timesOf_append (pair : Text × Text) (rows others : List SentNotification) :
    timesOf pair (rows ++ others) = timesOf pair rows ++ timesOf pair others := by
  simp [timesOf, rowsOf]

theorem timesOf_deleteExpired (pair : Text × Text) (nowMs : Int) (rows : List SentNotification) :
    timesOf pair (deleteExpired (nowMs - pluginNotificationDayWindowMs) rows) =
      recent pluginNotificationDayWindowMs nowMs (timesOf pair rows) := by
  rw [timesOf, timesOf, rowsOf, rowsOf, deleteExpired, recent, List.filter_filter, List.filter_map,
    List.filter_filter]
  refine congrArg (List.map SentNotification.sentAtMs) (List.filter_congr fun row _ => ?_)
  rw [Bool.and_comm]
  rfl

def SameDays (attempts : List NotificationAttempt) (rows : List SentNotification)
    (times : Text × Text → List Int) : Prop :=
  ∀ later, (∀ attempt ∈ attempts, attempt.nowMs ≤ later) → ∀ pair,
    recent pluginNotificationDayWindowMs later (timesOf pair rows) =
      recent pluginNotificationDayWindowMs later (times pair)

variable {attempts : List NotificationAttempt} {attempt : NotificationAttempt}
  {rows : List SentNotification} {times : Text × Text → List Int}

theorem SameDays.later (same : SameDays attempts rows times) :
    SameDays (attempts ++ [attempt]) rows times :=
  fun later notEarlier pair => same later (fun earlier member =>
    notEarlier earlier (List.mem_append_left _ member)) pair

theorem SameDays.swept (same : SameDays attempts rows times) :
    SameDays (attempts ++ [attempt])
      (deleteExpired (attempt.nowMs - pluginNotificationDayWindowMs) rows) times := by
  intro later notEarlier pair
  rw [timesOf_deleteExpired, recent_recent (notEarlier attempt (by simp))]
  exact same.later later notEarlier pair

theorem SameDays.budgetFull_iff (same : SameDays attempts rows times)
    (inOrder : InOrder (attempts ++ [attempt])) :
    BudgetFull (timesOf attempt.pair
        (deleteExpired (attempt.nowMs - pluginNotificationDayWindowMs) rows))
        attempt ↔
      BudgetFull (times attempt.pair) attempt := by
  have day := same attempt.nowMs (fun _ => inOrder.le_last) attempt.pair
  have shorter : pluginNotificationMinuteWindowMs ≤ pluginNotificationDayWindowMs := by decide
  have minute := congrArg (recent pluginNotificationMinuteWindowMs attempt.nowMs) day
  rw [recent_recent_shorter shorter, recent_recent_shorter shorter] at minute
  rw [BudgetFull, BudgetFull, timesOf_deleteExpired, recent_recent_shorter shorter,
    recent_recent (le_refl _), day, minute]

theorem limited_iff (rows : List SentNotification) (attempt : NotificationAttempt) :
    (attempt.settings.perMinuteLimit ≤ ((rowsOf attempt.pluginId attempt.recipient
        (deleteExpired (attempt.nowMs - pluginNotificationDayWindowMs) rows)).filter fun row =>
          attempt.nowMs - pluginNotificationMinuteWindowMs < row.sentAtMs).length ∨
      attempt.settings.perDayLimit ≤ (rowsOf attempt.pluginId attempt.recipient
        (deleteExpired (attempt.nowMs - pluginNotificationDayWindowMs) rows)).length) ↔
      BudgetFull (timesOf attempt.pair
        (deleteExpired (attempt.nowMs - pluginNotificationDayWindowMs) rows)) attempt := by
  have day : (recent pluginNotificationDayWindowMs attempt.nowMs (timesOf attempt.pair
      (deleteExpired (attempt.nowMs - pluginNotificationDayWindowMs) rows))).length =
      (rowsOf attempt.pluginId attempt.recipient
        (deleteExpired (attempt.nowMs - pluginNotificationDayWindowMs) rows)).length := by
    rw [timesOf_deleteExpired, recent_recent (le_refl _), ← timesOf_deleteExpired, timesOf,
      List.length_map]
    rfl
  have minute : (recent pluginNotificationMinuteWindowMs attempt.nowMs (timesOf attempt.pair
      (deleteExpired (attempt.nowMs - pluginNotificationDayWindowMs) rows))).length =
      ((rowsOf attempt.pluginId attempt.recipient
        (deleteExpired (attempt.nowMs - pluginNotificationDayWindowMs) rows)).filter fun row =>
          attempt.nowMs - pluginNotificationMinuteWindowMs < row.sentAtMs).length := by
    rw [timesOf, recent, List.filter_map, List.length_map]
    rfl
  rw [BudgetFull, day, minute]

theorem SameDays.added (same : SameDays (attempts ++ [attempt]) rows times) :
    SameDays (attempts ++ [attempt]) (rows ++ [attempt.sent])
      (Function.update times attempt.pair (times attempt.pair ++ [attempt.nowMs])) := by
  intro later notEarlier pair
  rw [timesOf_append, recent_append, same later notEarlier pair]
  by_cases isPair : pair = attempt.pair
  · subst isPair
    rw [Function.update_self, recent_append]
    simp [timesOf, rowsOf, NotificationAttempt.pair, NotificationAttempt.sent]
  · rw [Function.update_of_ne isPair]
    have other : timesOf pair [attempt.sent] = [] := by
      have apart : ¬(attempt.pluginId = pair.1 ∧ attempt.recipient = pair.2) :=
        fun both => isPair (Prod.ext both.1.symm both.2.symm)
      simpa [timesOf, rowsOf, NotificationAttempt.sent] using apart
    rw [other, recent, recent, List.filter_nil, List.append_nil]

theorem SameDays.step (same : SameDays attempts rows times)
    (inOrder : InOrder (attempts ++ [attempt])) :
    (notificationLimiter.step rows attempt).2 =
        ((ownBudget.keyed NotificationAttempt.pair).step times attempt).2 ∧
      SameDays (attempts ++ [attempt]) (notificationLimiter.step rows attempt).1
        ((ownBudget.keyed NotificationAttempt.pair).step times attempt).1 := by
  simp only [notificationLimiter, checkNotification, keyed, ownBudget, decideNotification]
  by_cases off : attempt.settings.enabled = false
  · rw [if_pos off, if_pos off, Function.update_eq_self]
    exact ⟨rfl, same.later⟩
  · rw [if_neg off, if_neg off, isPluginNotificationRateLimited]
    simp only [limited_iff, same.budgetFull_iff inOrder]
    by_cases full : BudgetFull (times attempt.pair) attempt
    · rw [if_pos full, if_pos full, Function.update_eq_self]
      exact ⟨rfl, same.swept⟩
    · rw [if_neg full, if_neg full]
      exact ⟨rfl, same.swept.added⟩

variable {pair : Text × Text}

theorem notificationLimiter_simulates (inOrder : InOrder attempts) :
    (notificationLimiter.run attempts).answers =
        ((ownBudget.keyed NotificationAttempt.pair).run attempts).answers ∧
      SameDays attempts (notificationLimiter.run attempts).state
        ((ownBudget.keyed NotificationAttempt.pair).run attempts).state :=
  run_simulates notificationLimiter (ownBudget.keyed NotificationAttempt.pair) InOrder.shorter
    SameDays (fun _ _ _ => rfl) (fun _ _ _ _ inOrder _ same => same.step inOrder) inOrder

theorem notificationLimiter_reply (inOrder : InOrder (attempts ++ [attempt])) :
    notificationLimiter.reply attempts attempt =
      ownBudget.reply (own NotificationAttempt.pair attempt.pair attempts) attempt := by
  have same := (notificationLimiter_simulates (InOrder.shorter attempts attempt inOrder)).2
  rw [← keyed_reply]
  exact (same.step inOrder).1

theorem notificationLimiter_own (inOrder : InOrder attempts) (pair : Text × Text) :
    ownAnswers NotificationAttempt.pair pair (notificationLimiter.run attempts).answers =
      (ownBudget.run (own NotificationAttempt.pair pair attempts)).answers := by
  rw [(notificationLimiter_simulates inOrder).1, keyed_answers]

theorem notificationLimiter_independent (inOrder : InOrder attempts) (pair : Text × Text) :
    ownAnswers NotificationAttempt.pair pair (notificationLimiter.run attempts).answers =
      (notificationLimiter.run (own NotificationAttempt.pair pair attempts)).answers := by
  rw [notificationLimiter_own inOrder, (notificationLimiter_simulates (inOrder.own pair)).1,
    keyed_answers_own]

def admittedTimes (answers : List (NotificationAttempt × NotificationDecision)) : List Int :=
  (answers.filter fun answer => answer.2 = .admitted).map fun answer => answer.1.nowMs

theorem admittedTimes_append (answers others : List (NotificationAttempt × NotificationDecision)) :
    admittedTimes (answers ++ others) = admittedTimes answers ++ admittedTimes others := by
  simp [admittedTimes]

structure BudgetSound (attempts : List NotificationAttempt)
    (run : Run (List Int) NotificationAttempt NotificationDecision) : Prop where
  remembered : admittedTimes run.answers = run.state
  attempted : ∀ time ∈ run.state, ∃ attempt ∈ attempts, attempt.nowMs = time

variable {run : Run (List Int) NotificationAttempt NotificationDecision}

theorem decideNotification_cases (times : List Int) (attempt : NotificationAttempt) :
    ((decideNotification times attempt).2 ≠ .admitted ∧
        (decideNotification times attempt).1 = times) ∨
      (¬ BudgetFull times attempt ∧
        decideNotification times attempt = (times ++ [attempt.nowMs], .admitted)) := by
  rw [decideNotification]
  split
  · exact Or.inl ⟨by simp, rfl⟩
  · split
    · exact Or.inl ⟨by simp, rfl⟩
    · rename_i room
      exact Or.inr ⟨room, rfl⟩

theorem BudgetSound.step (sound : BudgetSound attempts run) :
    BudgetSound (attempts ++ [attempt]) (ownBudget.advance run attempt) := by
  have state : (ownBudget.advance run attempt).state =
      (decideNotification run.state attempt).1 := rfl
  have answers : (ownBudget.advance run attempt).answers =
      run.answers ++ [(attempt, (decideNotification run.state attempt).2)] := rfl
  rcases decideNotification_cases run.state attempt with ⟨refused, unchanged⟩ | ⟨-, admitted⟩
  · refine ⟨?_, fun time member => ?_⟩
    · rw [state, answers, admittedTimes_append, sound.remembered, unchanged]
      simp [admittedTimes, refused]
    · rw [state, unchanged] at member
      obtain ⟨earlier, isAttempt, isTime⟩ := sound.attempted time member
      exact ⟨earlier, List.mem_append_left _ isAttempt, isTime⟩
  · refine ⟨?_, fun time member => ?_⟩
    · rw [state, answers, admittedTimes_append, sound.remembered, admitted]
      simp [admittedTimes]
    · rw [state, admitted] at member
      rcases List.mem_append.mp member with before | isNow
      · obtain ⟨earlier, isAttempt, isTime⟩ := sound.attempted time before
        exact ⟨earlier, List.mem_append_left _ isAttempt, isTime⟩
      · exact ⟨attempt, by simp, (List.mem_singleton.mp isNow).symm⟩

theorem budget_sound (attempts : List NotificationAttempt) :
    BudgetSound attempts (ownBudget.run attempts) :=
  @run_invariant _ _ _ ownBudget (fun _ => True) (fun _ _ _ => trivial) BudgetSound
    ⟨rfl, by simp [run_nil, ownBudget]⟩ (fun _ _ _ sound => sound.step) _ trivial

theorem ownBudget_admitted {window : Int} {limit : Nat} (inOrder : InOrder attempts)
    (room : ∀ attempt ∈ attempts, ∀ times : List Int, ¬ BudgetFull times attempt →
      (recent window attempt.nowMs times).length < limit) :
    Admitted window limit (ownBudget.run attempts).state := by
  induction attempts using List.reverseRecOn with
  | nil => exact .nil
  | append_singleton attempts attempt ih =>
    have before := ih (InOrder.shorter attempts attempt inOrder) fun earlier member =>
      room earlier (List.mem_append_left _ member)
    have sound := budget_sound attempts
    rw [state_append_one]
    show Admitted window limit (decideNotification _ attempt).1
    rcases decideNotification_cases (ownBudget.run attempts).state attempt with
      ⟨-, unchanged⟩ | ⟨notFull, admitted⟩
    · rw [unchanged]
      exact before
    · rw [admitted]
      refine .next before (fun time member => ?_) (room attempt (by simp) _ notFull)
      obtain ⟨earlier, isAttempt, rfl⟩ := sound.attempted time member
      exact inOrder.le_last isAttempt

theorem minute_room {times : List Int} {limit : Nat}
    (atMost : attempt.settings.perMinuteLimit ≤ limit) (notFull : ¬ BudgetFull times attempt) :
    (recent pluginNotificationMinuteWindowMs attempt.nowMs times).length < limit :=
  (Nat.lt_of_not_le fun full => notFull (Or.inl full)).trans_le atMost

theorem day_room {times : List Int} {limit : Nat}
    (atMost : attempt.settings.perDayLimit ≤ limit) (notFull : ¬ BudgetFull times attempt) :
    (recent pluginNotificationDayWindowMs attempt.nowMs times).length < limit :=
  (Nat.lt_of_not_le fun full => notFull (Or.inr full)).trans_le atMost

theorem ownBudget_limited_iff : ownBudget.reply attempts attempt = .rateLimited ↔
    attempt.settings.enabled = true ∧ BudgetFull (ownBudget.run attempts).state attempt := by
  have decided : ownBudget.reply attempts attempt =
      (decideNotification (ownBudget.run attempts).state attempt).2 := rfl
  rw [decided, decideNotification]
  split
  · rename_i off
    simp [off]
  · rename_i enabled
    rw [Bool.not_eq_false] at enabled
    split
    · rename_i full
      exact ⟨fun _ => ⟨enabled, full⟩, fun _ => rfl⟩
    · rename_i notFull
      exact ⟨by simp, fun both => absurd both.2 notFull⟩

def admittedFor (pair : Text × Text) (answers : List (NotificationAttempt × NotificationDecision)) :
    List Int :=
  admittedTimes (ownAnswers NotificationAttempt.pair pair answers)

theorem admittedFor_eq (inOrder : InOrder attempts) (pair : Text × Text) :
    admittedFor pair (notificationLimiter.run attempts).answers =
      (ownBudget.run (own NotificationAttempt.pair pair attempts)).state := by
  rw [admittedFor, notificationLimiter_own inOrder, (budget_sound _).remembered]

theorem notificationLimiter_limited_iff (inOrder : InOrder (attempts ++ [attempt])) :
    notificationLimiter.reply attempts attempt = .rateLimited ↔
      attempt.settings.enabled = true ∧
        BudgetFull (admittedFor attempt.pair (notificationLimiter.run attempts).answers)
          attempt := by
  rw [notificationLimiter_reply inOrder, ownBudget_limited_iff,
    admittedFor_eq (InOrder.shorter attempts attempt inOrder)]

structure NotificationLimitCorrect (attempts : List NotificationAttempt) : Prop where
  perMinute : ∀ pair limit, (∀ attempt ∈ attempts, attempt.pair = pair →
    attempt.settings.perMinuteLimit ≤ limit) → ∀ first : Int,
      (between first (first + pluginNotificationMinuteWindowMs)
        (admittedFor pair (notificationLimiter.run attempts).answers)).length ≤ limit
  perDay : ∀ pair limit, (∀ attempt ∈ attempts, attempt.pair = pair →
    attempt.settings.perDayLimit ≤ limit) → ∀ first : Int,
      (between first (first + pluginNotificationDayWindowMs)
        (admittedFor pair (notificationLimiter.run attempts).answers)).length ≤ limit
  exact : ∀ before answer after,
    (notificationLimiter.run attempts).answers = before ++ answer :: after →
      (answer.2 = .rateLimited ↔ answer.1.settings.enabled = true ∧
        BudgetFull (admittedFor answer.1.pair before) answer.1)
  independent : ∀ pair,
    ownAnswers NotificationAttempt.pair pair (notificationLimiter.run attempts).answers =
      (notificationLimiter.run (own NotificationAttempt.pair pair attempts)).answers

theorem mem_own {member : NotificationAttempt}
    (isOwn : member ∈ own NotificationAttempt.pair pair attempts) :
    member ∈ attempts ∧ member.pair = pair := by
  simpa [own] using isOwn

/-- At times that do not go back, no plugin and recipient get more than their budgets, none is
refused with room left in them, and none changes the answers of another. -/
theorem notification_limit_correct (inOrder : InOrder attempts) :
    NotificationLimitCorrect attempts where
  perMinute := by
    intro pair limit atMost first
    rw [admittedFor_eq inOrder]
    refine (ownBudget_admitted (inOrder.own pair) fun attempt isOwn times notFull => ?_).between_le
      first
    exact minute_room (atMost attempt (mem_own isOwn).1 (mem_own isOwn).2) notFull
  perDay := by
    intro pair limit atMost first
    rw [admittedFor_eq inOrder]
    refine (ownBudget_admitted (inOrder.own pair) fun attempt isOwn times notFull => ?_).between_le
      first
    exact day_room (atMost attempt (mem_own isOwn).1 (mem_own isOwn).2) notFull
  exact := by
    intro before answer after split
    obtain ⟨answers, isReply⟩ := answers_split split
    have whole := map_fst_answers notificationLimiter attempts
    rw [split, List.map_append, List.map_cons] at whole
    have first : InOrder (before.map Prod.fst ++ [answer.1]) := by
      refine inOrder.sublist ?_
      rw [← whole]
      exact List.Sublist.append_left (by simp) _
    rw [isReply, notificationLimiter_limited_iff first, answers]
  independent := notificationLimiter_independent inOrder

def twoAttempts : List NotificationAttempt :=
  [{ nowMs := 0, pluginId := ['p'], recipient := ['u'],
     controls := some { enabled := none, perDayLimit := none, perMinuteLimit := some 1 } },
    { nowMs := 59999, pluginId := ['p'], recipient := ['u'],
      controls := some { enabled := none, perDayLimit := none, perMinuteLimit := some 1 } }]

theorem notification_limit_correct_twoAttempts : NotificationLimitCorrect twoAttempts :=
  notification_limit_correct (by simp [InOrder, twoAttempts])

end Metidos.RateLimit
