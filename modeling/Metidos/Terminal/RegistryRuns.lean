import Metidos.Library.Transition
import Metidos.Terminal.TerminalRegistry
import Metidos.Terminal.TerminalRuns

/-!
Runs of the terminal registry: the caps hold, and the array of slots finds each session under its
index and nothing else.
-/

namespace Metidos.Terminal

open SlotTable TerminalRegistry Transition

structure Registered (limitConfig : TerminalLimitConfig) (registry : TerminalRegistry) :
    Prop where
  limits : registry.limitConfig = limitConfig
  ids : ∀ terminalId session, registry.sessions.get? terminalId = some session →
    session.terminalId = terminalId
  fresh : ∀ terminalId ∈ registry.sessions.keys, terminalId < registry.created
  places : Places registry.terminalOrder registry.sessions.get? RegisteredSession.terminalIndex
  global : registry.sessions.size ≤ limitConfig.maxGlobalTerminals
  owner : registry.sessions.size ≤ limitConfig.maxTerminalsPerOwner

theorem initial_registered (limitConfig : TerminalLimitConfig) :
    Registered limitConfig (initial limitConfig) where
  limits := rfl
  ids := fun _ _ present => by cases present
  fresh := fun _ member => absurd member List.not_mem_nil
  places := places_empty _
  global := Nat.zero_le _
  owner := Nat.zero_le _

variable {limitConfig : TerminalLimitConfig} {registry next : TerminalRegistry}

theorem Registered.rewrite (registered : Registered limitConfig registry) {terminalId : Nat}
    {before after : RegisteredSession}
    (present : registry.sessions.get? terminalId = some before)
    (sameId : after.terminalId = before.terminalId)
    (sameIndex : after.terminalIndex = before.terminalIndex) :
    Registered limitConfig { registry with sessions := registry.sessions.set terminalId after } := by
  have size := OrderedMap.size_set_of_present registry.sessions after present
  refine ⟨registered.limits, ?_, ?_, ?_, size ▸ registered.global, size ▸ registered.owner⟩
  · intro other session found
    rw [OrderedMap.get?_set] at found
    split at found
    · rename_i same
      cases found
      rw [sameId, same]
      exact registered.ids terminalId before present
    · exact registered.ids other session found
  · intro other member
    rw [OrderedMap.keys_set_of_present registry.sessions after present] at member
    exact registered.fresh other member
  · intro index other
    rw [registered.places index other, OrderedMap.get?_set]
    split
    · rename_i same
      subst same
      simp only [present, Option.some.injEq, exists_eq_left', sameIndex]
    · exact Iff.rfl

theorem Registered.removeSession (registered : Registered limitConfig registry) {terminalId : Nat}
    {session : RegisteredSession} (present : registry.sessions.get? terminalId = some session) :
    Registered limitConfig (registry.removeSession session) := by
  have isId := registered.ids terminalId session present
  subst isId
  have size := OrderedMap.size_delete_of_present registry.sessions present
  have global := registered.global
  have owner := registered.owner
  refine ⟨registered.limits, ?_, ?_, ?_, ?_, ?_⟩
  · intro other found isFound
    rw [TerminalRegistry.removeSession, OrderedMap.get?_delete] at isFound
    split at isFound
    · cases isFound
    · exact registered.ids other found isFound
  · intro other member
    exact registered.fresh other ((OrderedMap.mem_keys_delete _ _ _).mp member).2
  · intro index other
    simp only [TerminalRegistry.removeSession]
    rw [release_holds, registered.places index other, OrderedMap.get?_delete]
    split
    · rename_i same
      subst same
      simp only [present, Option.some.injEq, exists_eq_left', and_true, reduceCtorEq, false_and,
        exists_false, iff_false, not_and, not_not]
      exact Eq.symm
    · rename_i different
      simp only [different, and_false, not_false_eq_true, and_true]
  · simp only [TerminalRegistry.removeSession]
    omega
  · simp only [TerminalRegistry.removeSession]
    omega

theorem Registered.apply (registered : Registered limitConfig registry) (now : Int)
    (step : Nat × SessionOperation) : Registered limitConfig (registry.apply now step) := by
  rw [TerminalRegistry.apply]
  cases present : registry.sessions.get? step.1 with
  | none => exact registered
  | some session =>
    simp only
    split
    · exact registered.rewrite present rfl rfl
    · exact registered.removeSession present

theorem Registered.applyAll (registered : Registered limitConfig registry) (now : Int)
    (steps : List (Nat × SessionOperation)) :
    Registered limitConfig (steps.foldl (fun registry step => registry.apply now step) registry) := by
  induction steps generalizing registry with
  | nil => exact registered
  | cons step rest ih => exact ih (registered.apply now step)

theorem Registered.terminalIds (registered : Registered limitConfig registry) :
    registry.sessions.values.map RegisteredSession.terminalId = registry.sessions.keys := by
  rw [OrderedMap.values, List.map_map, OrderedMap.keys]
  refine List.map_congr_left ?_
  intro entry member
  exact registered.ids entry.1 entry.2 ((OrderedMap.get?_eq_some_iff _ _ _).mpr member)

theorem Registered.removeAll (registered : Registered limitConfig registry)
    {sessions : List RegisteredSession}
    (present : ∀ session ∈ sessions, registry.sessions.get? session.terminalId = some session)
    (distinct : (sessions.map RegisteredSession.terminalId).Nodup) :
    Registered limitConfig (sessions.foldl TerminalRegistry.removeSession registry) := by
  induction sessions generalizing registry with
  | nil => exact registered
  | cons session rest ih =>
    rw [List.map_cons, List.nodup_cons] at distinct
    refine ih (registered.removeSession (present session List.mem_cons_self)) ?_ distinct.2
    intro later member
    have different : later.terminalId ≠ session.terminalId :=
      fun same => distinct.1 (same ▸ List.mem_map_of_mem member)
    rw [TerminalRegistry.removeSession, OrderedMap.get?_delete, if_neg different]
    exact present later (List.mem_cons_of_mem _ member)

theorem Registered.expired (registered : Registered limitConfig registry) (now : Int) :
    (∀ session ∈ registry.sessions.values.filter (registry.isExpired now),
      registry.sessions.get? session.terminalId = some session) ∧
    ((registry.sessions.values.filter (registry.isExpired now)).map
      RegisteredSession.terminalId).Nodup := by
  refine ⟨?_, ?_⟩
  · intro session member
    obtain ⟨terminalId, present⟩ :=
      (OrderedMap.mem_values_iff _ _).mp (List.mem_of_mem_filter member)
    rw [registered.ids terminalId session present]
    exact present
  · have kept := (List.filter_sublist (l := registry.sessions.values)
      (p := registry.isExpired now)).map RegisteredSession.terminalId
    rw [registered.terminalIds] at kept
    exact registry.sessions.keys_nodup.sublist kept

theorem Registered.prune (registered : Registered limitConfig registry) (now : Int) :
    Registered limitConfig (registry.pruneExpiredExitedSessions now) :=
  registered.removeAll (registered.expired now).1 (registered.expired now).2

theorem Registered.register (registered : Registered limitConfig registry) (input : TerminalCreateInput)
    (now : Int) (global : registry.sessions.size < limitConfig.maxGlobalTerminals)
    (owner : registry.sessions.size < limitConfig.maxTerminalsPerOwner) :
    Registered limitConfig (registry.register input now) := by
  have absent : registry.sessions.get? registry.created = none := by
    refine (OrderedMap.get?_eq_none_iff _ _).mpr fun member => ?_
    exact absurd (registered.fresh registry.created member) (Nat.lt_irrefl _)
  refine ⟨registered.limits, ?_, ?_, ?_, ?_, ?_⟩
  · intro terminalId session found
    simp only [TerminalRegistry.register, nextTerminalIndex, OrderedMap.get?_set] at found
    split at found
    · rename_i same
      cases found
      exact same.symm
    · exact registered.ids terminalId session found
  · intro terminalId member
    simp only [TerminalRegistry.register, nextTerminalIndex, OrderedMap.mem_keys_set] at member
    rcases member with rfl | old
    · exact Nat.lt_succ_self _
    · exact (registered.fresh terminalId old).trans (Nat.lt_succ_self _)
  · intro index terminalId
    simp only [TerminalRegistry.register, nextTerminalIndex, OrderedMap.get?_set]
    rw [claim_holds, registered.places index terminalId]
    split
    · rename_i same
      subst same
      simp only [absent, reduceCtorEq, false_and, exists_false, and_true, false_or,
        Option.some.injEq, exists_eq_left']
      exact eq_comm
    · rename_i different
      simp only [different, and_false, or_false]
  · simp only [TerminalRegistry.register, nextTerminalIndex]
    rw [OrderedMap.size_set_of_absent _ _ absent]
    exact global
  · simp only [TerminalRegistry.register, nextTerminalIndex]
    rw [OrderedMap.size_set_of_absent _ _ absent]
    exact owner

theorem Registered.createTerminal (registered : Registered limitConfig registry) (input : TerminalCreateInput)
    (now : Int) : Registered limitConfig (registry.createTerminal input now).2 := by
  have pruned := registered.prune now
  rw [TerminalRegistry.createTerminal, enforceTerminalCaps]
  simp only
  split
  · rename_i message later capped
    split at capped
    · cases capped
      exact pruned
    · split at capped
      · cases capped
        exact pruned
      · cases capped
  · rename_i later capped
    split at capped
    · cases capped
    · rename_i global
      split at capped
      · cases capped
      · rename_i owner
        cases capped
        split
        · exact pruned
        · rw [pruned.limits] at global owner
          have new := pruned.register input now (Nat.lt_of_not_le global) (Nat.lt_of_not_le owner)
          split
          · exact new
          · exact new.apply now _

theorem Registered.step (registered : Registered limitConfig registry) {event : RegistryEvent × Int}
    (step : registryStep registry event = some next) : Registered limitConfig next := by
  obtain ⟨event, now⟩ := event
  cases event with
  | createTerminal input =>
    cases step
    exact registered.createTerminal input now
  | killTerminalByIndex terminalIndex access =>
    cases step
    simp only [TerminalRegistry.killTerminalByIndex]
    split
    · exact registered
    · split
      · exact registered.apply now _
      · exact registered
  | touch terminalId =>
    cases step
    simp only [TerminalRegistry.touch, OrderedMap.modify]
    split
    · exact registered
    · rename_i session present
      exact registered.rewrite present rfl rfl
  | session event =>
    cases event with
    | createTerminal ownerSessionId replayBufferBytes startupError => cases step
    | openSocket data =>
      cases step
      have opened : Registered limitConfig { registry with opened := registry.opened ++ [data] } :=
        ⟨registered.limits, registered.ids, registered.fresh, registered.places, registered.global,
          registered.owner⟩
      exact opened.applyAll now _
    | _ =>
      cases step
      exact registered.applyAll now _

theorem Registered.resolve_iff (registered : Registered limitConfig registry)
    (terminalIndex : Int) (session : RegisteredSession) :
    registry.resolveTerminalByIndex terminalIndex = .ok session ↔
      session ∈ registry.sessions.values ∧ (session.terminalIndex : Int) = terminalIndex := by
  rw [OrderedMap.mem_values_iff]
  constructor
  · intro resolved
    simp only [resolveTerminalByIndex] at resolved
    split at resolved
    · cases resolved
    · rename_i found isFound
      cases resolved
      split at isFound
      · cases isFound
      · rename_i natural
        obtain ⟨terminalId, held, present⟩ := Option.bind_eq_some_iff.mp isFound
        have slot := Option.join_eq_some_iff.mp held
        obtain ⟨other, isOther, atIndex⟩ :=
          (registered.places terminalIndex.toNat terminalId).mp slot
        rw [present, Option.some.injEq] at isOther
        subst isOther
        exact ⟨⟨terminalId, present⟩, by omega⟩
  · rintro ⟨⟨terminalId, present⟩, rfl⟩
    have held := (registered.places session.terminalIndex terminalId).mpr
      ⟨session, present, rfl⟩
    have natural : ¬(session.terminalIndex : Int) < 0 := by omega
    simp only [resolveTerminalByIndex, if_neg natural, Int.toNat_natCast, held, Option.join_some,
      Option.bind_some, present]

theorem Registered.listed (registered : Registered limitConfig registry) :
    (registry.listTerminals none).Perm registry.sessions.values ∧
      (registry.listTerminals none).Pairwise
        fun left right => left.terminalIndex < right.terminalIndex := by
  have all : registry.listTerminals none =
      registry.terminalOrder.filterMap fun slot => slot.bind registry.sessions.get? :=
    List.filter_eq_self.mpr fun _ _ => rfl
  have sorted := registered.places.listed_sorted
  rw [← all] at sorted
  refine ⟨?_, sorted⟩
  have listedOnce : (registry.listTerminals none).Nodup :=
    sorted.imp fun before same => absurd (same ▸ before) (Nat.lt_irrefl _)
  have storedOnce : registry.sessions.values.Nodup := by
    refine List.Nodup.of_map RegisteredSession.terminalId ?_
    rw [registered.terminalIds]
    exact registry.sessions.keys_nodup
  refine (List.perm_ext_iff_of_nodup listedOnce storedOnce).mpr fun session => ?_
  rw [all, registered.places.mem_listed, OrderedMap.mem_values_iff]

/-- In every run the caps hold, no index is used twice, an index resolves to the session that has
it and to nothing else, and the list has each session once, in the order of the indices. -/
theorem terminal_registry_correct (limitConfig : TerminalLimitConfig)
    (registry : TerminalRegistry)
    (reached : Reaches registryStep Unrestricted (initial limitConfig) registry) :
    registry.sessions.size ≤ limitConfig.maxGlobalTerminals ∧
      registry.sessions.size ≤ limitConfig.maxTerminalsPerOwner ∧
      (registry.sessions.values.map RegisteredSession.terminalIndex).Nodup ∧
      (∀ terminalIndex session,
        registry.resolveTerminalByIndex terminalIndex = .ok session ↔
          session ∈ registry.sessions.values ∧
            (session.terminalIndex : Int) = terminalIndex) ∧
      (∀ terminalIndex : Int,
        (∀ session ∈ registry.sessions.values, (session.terminalIndex : Int) ≠ terminalIndex) →
          registry.resolveTerminalByIndex terminalIndex =
            .error ("Terminal " ++ toString terminalIndex ++ " was not found.")) ∧
      (registry.listTerminals none).Perm registry.sessions.values ∧
      (registry.listTerminals none).Pairwise
        fun left right => left.terminalIndex < right.terminalIndex := by
  have registered := reached.invariant (Registered limitConfig) (initial_registered limitConfig)
    fun _ _ _ registered _ step => registered.step step
  obtain ⟨listed, sorted⟩ := registered.listed
  refine ⟨registered.global, registered.owner, ?_, registered.resolve_iff, ?_, listed, sorted⟩
  · refine (listed.map RegisteredSession.terminalIndex).nodup_iff.mp ?_
    exact List.pairwise_map.mpr (sorted.imp Nat.ne_of_lt)
  · intro terminalIndex free
    cases resolved : registry.resolveTerminalByIndex terminalIndex with
    | ok session =>
      obtain ⟨member, isIndex⟩ := (registered.resolve_iff terminalIndex session).mp resolved
      exact absurd isIndex (free session member)
    | error message =>
      simp only [resolveTerminalByIndex] at resolved
      split at resolved
      · cases resolved
        rfl
      · cases resolved

namespace Sample

def anyTerminal : TerminalCreateInput where
  ownerSessionId := none
  createdFromThreadId := none
  replayBufferBytes := 1024
  cwdIsInside := true
  startupError := none

def registryEvents : List (RegistryEvent × Int) :=
  [(.createTerminal anyTerminal, 1), (.createTerminal anyTerminal, 2),
    (.createTerminal anyTerminal, 3), (.session (.ptyExit 1 none), 4),
    (.killTerminalByIndex 1 none, 5), (.killTerminalByIndex 2 none, 6),
    (.session (.closeTimerFires 2), 7), (.createTerminal anyTerminal, 8)]

end Sample

theorem terminal_registry_correct_reused :
    ∃ registry : TerminalRegistry,
      (registry.sessions.values.map fun session =>
        (session.terminalId, session.terminalIndex)) = [(0, 0), (3, 1)] ∧
      (registry.sessions.values.map RegisteredSession.terminalIndex).Nodup := by
  have ran : (Transition.run registryStep (fun _ _ => true) (initial ⟨1000, 8, 8⟩)
      Sample.registryEvents).any (fun registry => decide
        ((registry.sessions.values.map fun session =>
          (session.terminalId, session.terminalIndex)) = [(0, 0), (3, 1)])) = true := by
    decide +kernel
  obtain ⟨registry, isRun, indices⟩ := (Option.any_eq_true _ _).mp ran
  exact ⟨registry, of_decide_eq_true indices,
    (terminal_registry_correct ⟨1000, 8, 8⟩ registry
      (reaches_of_run isRun).unrestricted).2.2.1⟩

end Metidos.Terminal

/-!
The registry refines the manager: without its indices and its times, each of its steps is a run
of the manager, in which an expired session goes by its cleanup timer.
-/

namespace Metidos.Terminal

open TerminalRegistry TerminalTrace Transition

variable {limitConfig : TerminalLimitConfig} {registry next : TerminalRegistry}
  {trace : TerminalTrace}

theorem toManager_removeSession (session : RegisteredSession) :
    (registry.removeSession session).toManager =
      { registry.toManager with
        sessions := registry.toManager.sessions.delete session.terminalId } := by
  simp only [toManager, TerminalRegistry.removeSession, OrderedMap.transform_delete]

theorem toManager_apply (registered : Registered limitConfig registry) (now : Int)
    (step : Nat × SessionOperation) :
    (registry.apply now step).toManager = (registry.toManager.apply step.1 step.2).1 := by
  have projected : registry.toManager.sessions.get? step.1 =
      (registry.sessions.get? step.1).map RegisteredSession.session :=
    OrderedMap.get?_transform ..
  rw [TerminalRegistry.apply, TerminalManager.apply, projected]
  cases present : registry.sessions.get? step.1 with
  | none => rfl
  | some session =>
    simp only [Option.map_some]
    cases result : step.2.run session.session with
    | mk after sent =>
      cases after with
      | some after => simp only [toManager, OrderedMap.transform_set]
      | none =>
        simp only
        rw [toManager_removeSession, registered.ids step.1 session present]

theorem toManager_applyAll (registered : Registered limitConfig registry) (now : Int)
    (steps : List (Nat × SessionOperation)) (same : trace.manager = registry.toManager) :
    (steps.foldl TerminalTrace.apply trace).manager =
      (steps.foldl (fun registry step => registry.apply now step) registry).toManager := by
  induction steps generalizing registry trace with
  | nil => exact same
  | cons step rest ih =>
    refine ih (registered.apply now step) ?_
    rw [apply_manager, same, toManager_apply registered]

theorem event_simulated (now : Int) (event : TerminalEvent) {entered : TerminalRegistry}
    (registered : Registered limitConfig entered) (same : trace.manager = registry.toManager)
    (enters : registry.toManager.enter event = entered.toManager) :
    ∃ later, Reaches terminalStep Unrestricted trace later ∧
      later.manager = ((registry.toManager.operations event).foldl
        (fun registry step => registry.apply now step) entered).toManager := by
  refine ⟨_, (Reaches.refl trace).tail (show Unrestricted trace event from trivial) rfl, ?_⟩
  rw [← same]
  refine toManager_applyAll registered now _ ?_
  rw [TerminalTrace.enter, same, enters]

theorem removeAll_simulated (registered : Registered limitConfig registry)
    {sessions : List RegisteredSession}
    (present : ∀ session ∈ sessions, registry.sessions.get? session.terminalId = some session)
    (distinct : (sessions.map RegisteredSession.terminalId).Nodup)
    (ended : ∀ session ∈ sessions,
      session.session.status = .exited ∨ session.session.status = .error)
    (same : trace.manager = registry.toManager) :
    ∃ later, Reaches terminalStep Unrestricted trace later ∧
      later.manager = (sessions.foldl TerminalRegistry.removeSession registry).toManager := by
  induction sessions generalizing registry trace with
  | nil => exact ⟨trace, Reaches.refl trace, same⟩
  | cons session rest ih =>
    rw [List.map_cons, List.nodup_cons] at distinct
    have here := present session List.mem_cons_self
    have guard : registry.toManager.operations (.exitedCleanupFires session.terminalId) =
        [(session.terminalId, .removeSession)] := by
      have isEnded := ended session List.mem_cons_self
      rw [TerminalManager.operations, TerminalManager.guarded]
      simp only [toManager, OrderedMap.get?_transform, here, Option.map_some]
      simp [isEnded]
    obtain ⟨first, reachesFirst, sameFirst⟩ :=
      event_simulated 0 (.exitedCleanupFires session.terminalId) registered same rfl
    rw [guard, List.foldl_cons, List.foldl_nil] at sameFirst
    have removed : registry.apply 0 (session.terminalId, .removeSession) =
        registry.removeSession session := by
      rw [TerminalRegistry.apply, here]
      rfl
    rw [removed] at sameFirst
    obtain ⟨later, reachesLater, sameLater⟩ := ih (registered.removeSession here)
      (by
        intro other member
        have different : other.terminalId ≠ session.terminalId :=
          fun equal => distinct.1 (equal ▸ List.mem_map_of_mem member)
        rw [TerminalRegistry.removeSession, OrderedMap.get?_delete, if_neg different]
        exact present other (List.mem_cons_of_mem _ member))
      distinct.2 (fun other member => ended other (List.mem_cons_of_mem _ member)) sameFirst
    exact ⟨later, reachesFirst.trans reachesLater, sameLater⟩

theorem prune_simulated (registered : Registered limitConfig registry) (now : Int)
    (same : trace.manager = registry.toManager) :
    ∃ later, Reaches terminalStep Unrestricted trace later ∧
      later.manager = (registry.pruneExpiredExitedSessions now).toManager := by
  refine removeAll_simulated registered (registered.expired now).1 (registered.expired now).2 ?_
    same
  intro session member
  have expired := List.of_mem_filter member
  simp only [isExpired, Bool.and_eq_true, Bool.or_eq_true, decide_eq_true_eq] at expired
  exact expired.1

theorem create_simulated (registered : Registered limitConfig registry)
    (input : TerminalCreateInput) (now : Int) (same : trace.manager = registry.toManager) :
    ∃ later, Reaches terminalStep Unrestricted trace later ∧
      later.manager = (registry.createTerminal input now).2.toManager := by
  obtain ⟨pruned, reached, samePruned⟩ := prune_simulated registered now same
  have stillRegistered := registered.prune now
  rw [TerminalRegistry.createTerminal, enforceTerminalCaps]
  simp only
  split
  · rename_i message later capped
    split at capped
    · cases capped
      exact ⟨pruned, reached, samePruned⟩
    · split at capped
      · cases capped
        exact ⟨pruned, reached, samePruned⟩
      · cases capped
  · rename_i later capped
    split at capped
    · cases capped
    · rename_i global
      split at capped
      · cases capped
      · rename_i owner
        cases capped
        split
        · exact ⟨pruned, reached, samePruned⟩
        · rw [stillRegistered.limits] at global owner
          have new := stillRegistered.register input now (Nat.lt_of_not_le global)
            (Nat.lt_of_not_le owner)
          have enters : ((registry.pruneExpiredExitedSessions now).toManager.enter
              (.createTerminal input.ownerSessionId input.replayBufferBytes
                input.startupError)) =
              ((registry.pruneExpiredExitedSessions now).register input now).toManager := by
            simp only [toManager, TerminalManager.enter, register, nextTerminalIndex,
              OrderedMap.transform_set]
          obtain ⟨created, reachedCreated, sameCreated⟩ := event_simulated now _ new samePruned
            enters
          refine ⟨created, reached.trans reachedCreated, sameCreated.trans ?_⟩
          cases started : input.startupError with
          | none => rfl
          | some message => rfl

theorem touch_toManager (terminalId : Nat) (now : Int) :
    (registry.touch terminalId now).toManager = registry.toManager := by
  have hidden : ∀ session : RegisteredSession,
      RegisteredSession.session { session with updatedAt := now } = session.session :=
    fun _ => rfl
  simp only [toManager, TerminalRegistry.touch, OrderedMap.transform_modify hidden]

theorem step_simulated (registered : Registered limitConfig registry)
    {event : RegistryEvent × Int} (step : registryStep registry event = some next)
    (same : trace.manager = registry.toManager) :
    ∃ later, Reaches terminalStep Unrestricted trace later ∧ later.manager = next.toManager := by
  obtain ⟨event, now⟩ := event
  cases event with
  | createTerminal input =>
    cases step
    exact create_simulated registered input now same
  | killTerminalByIndex terminalIndex access =>
    cases step
    simp only [TerminalRegistry.killTerminalByIndex]
    split
    · exact ⟨trace, Reaches.refl trace, same⟩
    · rename_i session resolved
      split
      · exact event_simulated now (.closeTerminal session.terminalId) registered same rfl
      · exact ⟨trace, Reaches.refl trace, same⟩
  | touch terminalId =>
    cases step
    exact ⟨trace, Reaches.refl trace, same.trans (touch_toManager terminalId now).symm⟩
  | session event =>
    cases event with
    | createTerminal ownerSessionId replayBufferBytes startupError => cases step
    | openSocket data =>
      cases step
      have opened : Registered limitConfig
          { registry with opened := registry.opened ++ [data] } :=
        ⟨registered.limits, registered.ids, registered.fresh, registered.places,
          registered.global, registered.owner⟩
      exact event_simulated now (.openSocket data) opened same rfl
    | _ =>
      cases step
      exact event_simulated now _ registered same rfl

theorem registry_refines_manager
    (reached : Reaches registryStep Unrestricted (initial limitConfig) registry) :
    Registered limitConfig registry ∧ ∃ trace,
      Reaches terminalStep Unrestricted TerminalTrace.initial trace ∧
        trace.manager = registry.toManager := by
  refine reached.invariant (fun registry => Registered limitConfig registry ∧ ∃ trace,
      Reaches terminalStep Unrestricted TerminalTrace.initial trace ∧
        trace.manager = registry.toManager)
    ⟨initial_registered limitConfig, _, Reaches.refl _, rfl⟩ ?_
  rintro before event after ⟨registered, trace, reachedTrace, same⟩ - step
  obtain ⟨later, reachedLater, sameLater⟩ := step_simulated registered step same
  exact ⟨registered.step step, later, reachedTrace.trans reachedLater, sameLater⟩

theorem registry_refines_manager_capped : ∃ registry trace,
    Registered ⟨0, 1, 1⟩ registry ∧ Reaches terminalStep Unrestricted TerminalTrace.initial trace ∧
      trace.manager = registry.toManager ∧ registry.created = 1 ∧ registry.sessions.keys = [0] := by
  have ran : run registryStep (fun _ _ => true) (initial ⟨0, 1, 1⟩)
      [(.createTerminal ⟨none, none, 8, true, none⟩, 0),
        (.createTerminal ⟨none, none, 8, true, none⟩, 1), (.killTerminalByIndex 0 none, 2)] =
        some _ := rfl
  obtain ⟨registered, trace, reached, same⟩ :=
    registry_refines_manager (reaches_of_run ran).unrestricted
  exact ⟨_, trace, registered, reached, same, by decide, by decide⟩

end Metidos.Terminal
