import Metidos.Plugin.DataQuota

/-!
The total size of the `.data` area along runs of writes, copies, moves, deletions and garbage
collections: it stays within the quota where no operation writes on measurements that are out of
date.
-/

namespace Metidos.Plugin

open Transition

namespace DataArea

variable {area : DataArea} {path : DataPath}

@[simp] theorem bytes_nil : bytes [] = 0 := rfl

@[simp] theorem bytes_cons (file : DataFile) (area : DataArea) :
    bytes (file :: area) = file.bytes + bytes area := by
  simp [bytes]

@[simp] theorem bytes_append (left right : DataArea) :
    bytes (left ++ right) = bytes left + bytes right := by
  simp [bytes]

theorem bytes_filter_add (test : DataFile → Bool) (area : DataArea) :
    bytes (area.filter test) + bytes (area.filter fun file => !test file) = bytes area := by
  induction area with
  | nil => rfl
  | cons file area ih =>
    cases passes : test file with
    | true =>
      simp only [List.filter_cons, passes, Bool.not_true, Bool.false_eq_true, if_true, if_false,
        bytes_cons]
      omega
    | false =>
      simp only [List.filter_cons, passes, Bool.not_false, Bool.false_eq_true, if_true,
        if_false, bytes_cons]
      omega

theorem bytes_filter_le (test : DataFile → Bool) (area : DataArea) :
    bytes (area.filter test) ≤ bytes area := by
  have whole := bytes_filter_add test area
  omega

theorem bytes_under_add_outside (area : DataArea) (path : DataPath) :
    bytes (area.under path) + bytes (area.outside path) = bytes area :=
  bytes_filter_add _ area

theorem outside_put {target : DataPath} (below : target.isPrefixOf path = true) (bytes : Nat) :
    (area.put path bytes).outside target = area.outside target := by
  rw [outside, put, List.filter_append, List.filter_filter]
  have none' : [({ path := path, bytes := bytes } : DataFile)].filter
      (fun file => !target.isPrefixOf file.path) = [] := by simp [below]
  rw [none', List.append_nil]
  refine List.filter_congr fun file _ => ?_
  by_cases same : file.path = path
  · simp [same, below]
  · simp [same]

theorem bytes_rename_le (area : DataArea) (source target : DataPath) :
    bytes (area.rename source target) ≤ bytes area := by
  have moved : ∀ files : DataArea, bytes (files.map fun file =>
      { file with path := target ++ file.path.drop source.length }) = bytes files := by
    intro files
    simp [bytes, Function.comp_def]
  have rest : bytes ((area.outside source).outside target) ≤ bytes (area.outside source) :=
    bytes_filter_le _ _
  have whole := bytes_under_add_outside area source
  rw [rename, bytes_append, moved]
  omega

theorem bytes_reduce_le (area : DataArea) (path : DataPath) (size : Option Nat) :
    bytes (area.reduce path size) ≤ bytes area := by
  cases size with
  | none => exact bytes_filter_le _ area
  | some size =>
    rw [reduce]
    induction area with
    | nil => exact Nat.le_refl _
    | cons file area ih =>
      rw [List.map_cons, bytes_cons, bytes_cons]
      refine Nat.add_le_add ?_ ih
      split
      · exact Nat.min_le_left _ _
      · exact Nat.le_refl _

end DataArea

variable {quota : PluginDataQuotaSettings} {runGc : Bool}

def AdmittedWithin (quota : PluginDataQuotaSettings) (running : RunningOperation) : Prop :=
  running.phase = .admitted →
    running.total.bytes + running.added.bytes ≤ quota.maxDataBytes + running.replaced.bytes

theorem notAdmitted {running : RunningOperation} (other : running.phase ≠ .admitted) :
    AdmittedWithin quota running :=
  fun admitted => absurd admitted other

theorem planned_within {current added replaced : PluginDataQuotaUsage} {largest : Nat}
    (passed : assertQuotaForPlannedStorageChange quota current added replaced largest = none) :
    current.bytes + added.bytes ≤ quota.maxDataBytes + replaced.bytes := by
  rw [assertQuotaForPlannedStorageChange] at passed
  split at passed
  · exact absurd passed nofun
  · split at passed
    · exact absurd passed nofun
    · rename_i within
      omega

theorem admitted_of_afterTotal {retried : Bool} {running : RunningOperation}
    {total : PluginDataQuotaUsage} :
    AdmittedWithin quota
      { running with phase := QuotaState.afterTotal quota runGc retried running total, total } := by
  intro admitted
  simp only [QuotaState.afterTotal] at admitted
  split at admitted
  · rename_i passed
    exact planned_within passed
  · split at admitted <;> exact absurd admitted nofun

namespace QuotaState

variable {state next : QuotaState}

/-- A write on measurements that are still good: the area outside the operation's target is no
larger than it was measured, and the target holds no more than the operation was to add. -/
def Clean (state : QuotaState) : QuotaEvent → Prop
  | .put index path bytes => ∀ running, state.operations[index]? = some running →
      (state.area.outside running.target).bytes + running.replaced.bytes ≤ running.total.bytes ∧
        ((state.area.put path bytes).under running.target).bytes ≤ running.added.bytes
  | _ => True

def Sound (quota : PluginDataQuotaSettings) (state : QuotaState) : Prop :=
  ∀ running ∈ state.operations, AdmittedWithin quota running

theorem writes_below {operation : DataOperation} {path : DataPath} {bytes : Nat}
    (writes : operation.writes path bytes = true) : operation.target.isPrefixOf path = true := by
  cases operation with
  | write target contents =>
    simp only [DataOperation.writes, Bool.and_eq_true, decide_eq_true_eq] at writes
    rw [writes.1]
    exact List.isPrefixOf_iff_prefix.mpr (List.prefix_refl target)
  | copy source target => exact writes
  | move source target =>
    cases source with
    | data path => exact absurd writes (by simp [DataOperation.writes])
    | project isDirectory => exact writes

structure Effect (quota : PluginDataQuotaSettings) (state : QuotaState) (event : QuotaEvent)
    (next : QuotaState) : Prop where
  operations : ∀ running ∈ next.operations, running ∈ state.operations ∨
    AdmittedWithin quota running
  area : next.area.bytes ≤ state.area.bytes ∨
    ∃ index path bytes running, event = .put index path bytes ∧
      state.operations[index]? = some running ∧ running.phase = .admitted ∧
      running.operation.writes path bytes = true ∧ next.area = state.area.put path bytes

theorem Effect.set {event : QuotaEvent} {index : Nat} {running : RunningOperation}
    (within : AdmittedWithin quota running)
    (operations : next.operations = state.operations.set index running)
    (area : next.area.bytes ≤ state.area.bytes) : Effect quota state event next where
  operations := by
    intro other member
    rw [operations] at member
    rcases List.mem_or_eq_of_mem_set member with older | rfl
    · exact Or.inl older
    · exact Or.inr within
  area := Or.inl area

theorem step_effect {event : QuotaEvent} (stepped : step quota runGc state event = some next) :
    Effect quota state event next := by
  cases event with
  | start operation =>
    obtain rfl := Option.some.inj stepped
    refine ⟨fun running member => ?_, Or.inl (Nat.le_refl _)⟩
    rcases List.mem_append.mp member with older | isNew
    · exact Or.inl older
    · rw [List.mem_singleton.mp isNew]
      exact Or.inr nofun
  | measured index source replaced =>
    obtain ⟨running, -, stepped⟩ := Option.bind_eq_some_iff.mp stepped
    split at stepped
    · split at stepped
      · exact Option.some.inj stepped ▸ Effect.set (notAdmitted (by simp)) rfl (Nat.le_refl _)
      · exact Option.some.inj stepped ▸ Effect.set (notAdmitted (by simp)) rfl (Nat.le_refl _)
    · exact absurd stepped nofun
  | acquire index =>
    obtain ⟨running, -, stepped⟩ := Option.bind_eq_some_iff.mp stepped
    split at stepped
    · exact Option.some.inj stepped ▸ Effect.set (notAdmitted (by simp)) rfl (Nat.le_refl _)
    · exact absurd stepped nofun
  | totalled index total =>
    obtain ⟨running, -, stepped⟩ := Option.bind_eq_some_iff.mp stepped
    split at stepped
    · split at stepped
      · exact Option.some.inj stepped ▸ Effect.set admitted_of_afterTotal rfl (Nat.le_refl _)
      · exact absurd stepped nofun
    · exact absurd stepped nofun
  | collected index =>
    obtain ⟨running, -, stepped⟩ := Option.bind_eq_some_iff.mp stepped
    split at stepped
    · exact Option.some.inj stepped ▸ Effect.set (notAdmitted (by simp)) rfl (Nat.le_refl _)
    · exact absurd stepped nofun
  | put index path bytes =>
    obtain ⟨running, isRunning, stepped⟩ := Option.bind_eq_some_iff.mp stepped
    split at stepped
    · rename_i admitted
      rw [Bool.and_eq_true, decide_eq_true_eq] at admitted
      obtain rfl := Option.some.inj stepped
      exact ⟨fun _ => Or.inl, Or.inr
        ⟨index, path, bytes, running, rfl, isRunning, admitted.1, admitted.2, rfl⟩⟩
    · exact absurd stepped nofun
  | rename index =>
    obtain ⟨running, -, stepped⟩ := Option.bind_eq_some_iff.mp stepped
    split at stepped
    · split at stepped
      · exact Option.some.inj stepped ▸
          Effect.set (notAdmitted (by simp)) rfl (DataArea.bytes_rename_le _ _ _)
      · exact absurd stepped nofun
    · exact absurd stepped nofun
  | finish index =>
    obtain ⟨running, -, stepped⟩ := Option.bind_eq_some_iff.mp stepped
    split at stepped
    · exact absurd stepped nofun
    · exact Option.some.inj stepped ▸ Effect.set (notAdmitted (by simp)) rfl (Nat.le_refl _)
  | reduce path bytes =>
    exact Option.some.inj stepped ▸
      ⟨fun _ => Or.inl, Or.inl (DataArea.bytes_reduce_le _ _ _)⟩

theorem Sound.step {event : QuotaEvent} (sound : Sound quota state)
    (stepped : step quota runGc state event = some next) : Sound quota next := by
  intro running member
  rcases (step_effect stepped).operations running member with older | within
  · exact sound running older
  · exact within

theorem within_step {event : QuotaEvent} (sound : Sound quota state) (clean : Clean state event)
    (stepped : step quota runGc state event = some next)
    (within : state.area.bytes ≤ quota.maxDataBytes) : next.area.bytes ≤ quota.maxDataBytes := by
  rcases (step_effect stepped).area with
    shrunk | ⟨index, path, bytes, running, rfl, isRunning, admitted, writes, area⟩
  · exact Nat.le_trans shrunk within
  · obtain ⟨outside, under⟩ := clean running isRunning
    have checked := sound running (List.mem_of_getElem? isRunning) admitted
    have same : (state.area.put path bytes).outside running.target =
        state.area.outside running.target := DataArea.outside_put (writes_below writes) bytes
    have whole := DataArea.bytes_under_add_outside (state.area.put path bytes) running.target
    rw [same] at whole
    rw [area]
    omega

def idle (area : DataArea) : QuotaState where
  area := area
  version := 0
  operations := []
  queue := []

theorem sound_of_reaches {area : DataArea}
    (reached : Reaches (step quota runGc) Clean (idle area) state) : Sound quota state :=
  reached.invariant (Sound quota) (fun _ member => absurd member List.not_mem_nil)
    fun _ _ _ sound _ stepped => sound.step stepped

instance decidableClean (state : QuotaState) : (event : QuotaEvent) → Decidable (Clean state event)
  | .put index path bytes =>
    inferInstanceAs (Decidable (∀ running ∈ state.operations[index]?,
      (state.area.outside running.target).bytes + running.replaced.bytes ≤ running.total.bytes ∧
        ((state.area.put path bytes).under running.target).bytes ≤ running.added.bytes))
  | .start _ | .measured _ _ _ | .acquire _ | .totalled _ _ | .collected _ | .rename _
  | .finish _ | .reduce _ _ => inferInstanceAs (Decidable True)

namespace Sample

def smallQuota : PluginDataQuotaSettings where
  maxDataBytes := 100
  maxFileBytes := 100
  maxFiles := 10

def first : DataPath := [units "a"]

def second : DataPath := [units "b"]

def writeEvents : List QuotaEvent :=
  [.start (.write first 60), .measured 0 (fileQuotaUsage 60) emptyQuotaUsage, .acquire 0,
    .totalled 0 emptyQuotaUsage, .put 0 first 60]

def raceEvents : List QuotaEvent :=
  [.start (.write first 60), .start (.write second 60),
    .measured 0 (fileQuotaUsage 60) emptyQuotaUsage,
    .measured 1 (fileQuotaUsage 60) emptyQuotaUsage,
    .acquire 0, .totalled 0 emptyQuotaUsage, .acquire 1, .totalled 1 emptyQuotaUsage,
    .put 0 first 60, .put 1 second 60]

end Sample

end QuotaState

end Metidos.Plugin
