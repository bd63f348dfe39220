import Metidos.Auth.Lockout
import Metidos.Auth.RecoveryCodes

/-!
One-shot credentials over runs.  A websocket ticket is consumed by a conditional update before its
upgrade is granted, and a consumed or deleted ticket never comes back; with the recovery codes of
the module before, each of the two admits its bearer at most once.
-/

namespace Metidos.Auth

open Transition

structure NothingNew (after before : SessionStore) : Prop where
  tickets : ∀ ticketId ticket, after.database.authWebSocketTickets.get? ticketId = some ticket →
    ∃ earlier, before.database.authWebSocketTickets.get? ticketId = some earlier ∧
      ticket.sessionId = earlier.sessionId ∧ ticket.expiresAt = earlier.expiresAt ∧
      (earlier.consumedAt.isSome = true → ticket.consumedAt.isSome = true)
  sessions : ∀ sessionId, (after.database.authSessions.get? sessionId).isSome = true →
    (before.database.authSessions.get? sessionId).isSome = true
  touches : ∀ sessionId,
    (after.caches.authSessionLastTouchedAt.get? sessionId).isSome = true →
      (before.caches.authSessionLastTouchedAt.get? sessionId).isSome = true ∨
        (before.database.authSessions.get? sessionId).isSome = true
  agree : CachesAgree before → CachesAgree after

namespace NothingNew

variable {before middle after : SessionStore}

theorem trans (second : NothingNew after middle) (first : NothingNew middle before) :
    NothingNew after before where
  tickets := by
    intro ticketId ticket found
    obtain ⟨between, betweenFound, session, expiry, consumed⟩ :=
      second.tickets ticketId ticket found
    obtain ⟨earlier, earlierFound, earlierSession, earlierExpiry, earlierConsumed⟩ :=
      first.tickets ticketId between betweenFound
    exact ⟨earlier, earlierFound, session.trans earlierSession, expiry.trans earlierExpiry,
      fun isConsumed => consumed (earlierConsumed isConsumed)⟩
  sessions := fun sessionId present => first.sessions sessionId (second.sessions sessionId present)
  touches := by
    intro sessionId touched
    rcases second.touches sessionId touched with between | present
    · exact first.touches sessionId between
    · exact .inr (first.sessions sessionId present)
  agree := fun agree => second.agree (first.agree agree)

theorem of_get? {κ ν : Type} [DecidableEq κ] {small large : OrderedMap κ ν}
    (within : small.Within large) {key : κ} (present : (small.get? key).isSome = true) :
    (large.get? key).isSome = true := by
  obtain ⟨value, found⟩ := Option.isSome_iff_exists.mp present
  rw [within key value found]
  rfl

theorem ofFewer (tickets : after.database.authWebSocketTickets.Within
      before.database.authWebSocketTickets) (fewer : Fewer after before) :
    NothingNew after before where
  tickets := fun ticketId ticket found =>
    ⟨ticket, tickets ticketId ticket found, rfl, rfl, fun consumed => consumed⟩
  sessions := by
    intro sessionId present
    obtain ⟨row, found⟩ := Option.isSome_iff_exists.mp present
    obtain ⟨earlier, earlierFound, _⟩ := fewer.sessions sessionId row found
    rw [earlierFound]
    rfl
  touches := fun sessionId touched => .inl (of_get? fewer.touches touched)
  agree := fun agree => agree.fewer fewer

theorem ofNarrower (narrower : Narrower after before) : NothingNew after before :=
  ofFewer narrower.tickets narrower.fewer

theorem refl (store : SessionStore) : NothingNew store store := ofNarrower (.refl store)

theorem ofSame (tickets : after.database.authWebSocketTickets = before.database.authWebSocketTickets)
    (sessions : after.database.authSessions = before.database.authSessions)
    (caches : after.caches = before.caches) : NothingNew after before := by
  refine ofFewer (by rw [tickets]; exact .refl _) ⟨by rw [caches]; exact .refl _, ?_⟩
  intro sessionId row found
  rw [sessions] at found
  exact ⟨row, found, rfl, rfl⟩

theorem ofRevoked (tickets : after.database.authWebSocketTickets = .empty)
    (sessions : after.database.authSessions = .empty)
    (touches : after.caches.authSessionLastTouchedAt.Within
      before.caches.authSessionLastTouchedAt) : NothingNew after before := by
  refine ofFewer (by rw [tickets]; exact .empty _) ⟨touches, ?_⟩
  intro sessionId row found
  rw [sessions] at found
  exact absurd found (by simp)

theorem ofResolve {sessionId : SessionId} {nowMs : Nat} {touch : Bool}
    {answer : Option AuthSessionRecord}
    (effect : ResolveEffect before sessionId nowMs touch answer after) :
    NothingNew after before := by
  cases effect with
  | refused narrower => exact ofNarrower narrower
  | served narrower => exact ofNarrower narrower
  | @touched middle caches session narrower live kept touching refreshed touches =>
    refine trans ?_ (ofNarrower narrower)
    refine ⟨fun ticketId ticket found => ⟨ticket, found, rfl, rfl, fun consumed => consumed⟩,
      ?_, ?_, ?_⟩
    · intro other present
      simp only [OrderedMap.get?_modify] at present
      split at present
      · rename_i same
        rw [same, kept]
        rfl
      · exact present
    · intro other touched
      obtain ⟨touchedAt, found⟩ := Option.isSome_iff_exists.mp touched
      rcases touches other touchedAt found with ⟨same, _⟩ | ⟨_, earlier⟩
      · rw [same, kept]
        exact .inr rfl
      · rw [earlier]
        exact .inl rfl
    · intro agree other touchedAt row touched stored
      simp only [OrderedMap.get?_modify] at stored
      rcases touches other touchedAt touched with ⟨same, now⟩ | ⟨different, earlier⟩
      · rw [if_pos same, kept, Option.map_some] at stored
        cases Option.some.inj stored
        exact now
      · rw [if_neg different] at stored
        exact agree other touchedAt row earlier stored

theorem resolveSession {store : SessionStore} (agree : CachesAgree store)
    (input : ResolveSessionInput) : NothingNew (store.resolveSession input).2 store :=
  ofResolve (resolveSession_spec agree input).1

end NothingNew

section Upgrades

variable {store : SessionStore}

theorem liveSession_of_narrower {before after : SessionStore} (narrower : Narrower after before)
    {sessionId : SessionId} {nowMs : Nat} {session : AuthSessionRecord}
    (live : after.database.liveSession sessionId nowMs = some session) :
    before.database.liveSession sessionId nowMs = some session := by
  rw [AuthDatabase.liveSession, Option.filter_eq_some_iff] at live ⊢
  refine ⟨?_, live.2⟩
  have found := live.1
  simp only [AuthDatabase.getAuthSession, Option.bind_eq_bind, Option.bind_eq_some_iff] at found ⊢
  obtain ⟨row, stored, user, known, result⟩ := found
  refine ⟨row, narrower.sessions sessionId row stored, user, ?_, result⟩
  rw [AuthDatabase.getUserById, ← narrower.users]
  exact known

theorem answer_eq_some {database : AuthDatabase} {sessionId : SessionId} {nowMs : Nat}
    {touch : Bool} {session : AuthSessionRecord}
    (answered : database.answer { sessionId := some sessionId, nowMs, touch } = some session) :
    session.id = sessionId ∧
      ∃ live, database.liveSession sessionId nowMs = some live := by
  simp only [AuthDatabase.answer] at answered
  split at answered
  · exact absurd answered (by simp)
  · obtain ⟨live, isLive, result⟩ := Option.map_eq_some_iff.mp answered
    have named := (getAuthSession_eq_some (liveSession_eq_some isLive).1).1
    refine ⟨?_, live, isLive⟩
    rw [← result, ← named, AuthSessionRecord.refreshed]
    split <;> rfl

structure Consumed (before : SessionStore) (sessionId : SessionId) (ticketId : TicketId)
    (now : Nat) (after : SessionStore) (ticket : AuthWebSocketTicket) : Prop where
  stored : before.database.authWebSocketTickets.get? ticketId = some ticket
  owner : ticket.sessionId = sessionId
  fresh : ticket.consumedAt = none
  unexpired : now < ticket.expiresAt
  live : ∃ session, before.database.liveSession sessionId now = some session
  consumed : ∀ later, after.database.authWebSocketTickets.get? ticketId = some later →
    later.consumedAt.isSome = true

theorem validateAndConsumeWebSocketTicket_spec (agree : CachesAgree store)
    (sessionId : SessionId) (ticketId : TicketId) (now : Nat) :
    NothingNew (store.validateAndConsumeWebSocketTicket sessionId ticketId now).2 store ∧
      ((store.validateAndConsumeWebSocketTicket sessionId ticketId now).1 = true →
        (∃ ticket, Consumed store sessionId ticketId now
          (store.validateAndConsumeWebSocketTicket sessionId ticketId now).2 ticket) ∧
        ∀ nowMs session, (store.validateAndConsumeWebSocketTicket sessionId ticketId
            now).2.database.liveSession sessionId nowMs = some session →
          store.database.liveSession sessionId nowMs = some session) := by
  obtain ⟨effect, answered⟩ := resolveSession_spec agree
    { sessionId := some sessionId, nowMs := now, touch := false }
  rw [SessionStore.validateAndConsumeWebSocketTicket]
  split
  · rename_i middle resolved
    rw [resolved] at effect
    exact ⟨.ofResolve effect, fun accepted => absurd accepted (by simp)⟩
  rename_i session middle resolved
  rw [resolved] at effect answered
  have kept : NothingNew middle store := .ofResolve effect
  obtain ⟨named, isLive⟩ := answer_eq_some answered.symm
  -- without a touch the session is served as it is stored
  have narrower : Narrower middle store := by
    cases effect with
    | served narrower => exact narrower
    | touched _ _ _ touching => exact absurd touching (by simp)
  split
  · exact ⟨kept, fun accepted => absurd accepted (by simp)⟩
  rename_i ticket found
  split
  · exact ⟨kept, fun accepted => absurd accepted (by simp)⟩
  rename_i valid
  simp only [Bool.or_eq_true, decide_eq_true_eq, not_or, Bool.not_eq_true,
    Option.isSome_eq_false_iff, Option.isNone_iff_eq_none, ne_eq, not_not] at valid
  obtain ⟨⟨owner, fresh⟩, unexpired⟩ := valid
  split
  · exact ⟨kept, fun accepted => absurd accepted (by simp)⟩
  rename_i database consuming
  rw [AuthDatabase.consumeAuthWebSocketTicket] at consuming
  split at consuming
  · cases consuming
    refine ⟨NothingNew.trans ?_ kept, fun _ => ⟨⟨ticket, ?_⟩,
      fun nowMs session live => liveSession_of_narrower narrower live⟩⟩
    · refine ⟨?_, fun _ present => present, fun _ touched => .inl touched, fun agree => agree⟩
      intro other later laterFound
      simp only [OrderedMap.get?_modify] at laterFound
      split at laterFound
      · rename_i same
        obtain ⟨earlier, earlierFound, result⟩ := Option.map_eq_some_iff.mp laterFound
        subst result
        exact ⟨earlier, same ▸ earlierFound, rfl, rfl, fun _ => rfl⟩
      · exact ⟨later, laterFound, rfl, rfl, fun consumed => consumed⟩
    · refine ⟨narrower.tickets ticketId ticket found, ?_, fresh, by omega, isLive, ?_⟩
      · rw [owner, named]
      · intro later laterFound
        simp only [OrderedMap.get?_modify, if_true] at laterFound
        obtain ⟨earlier, _, result⟩ := Option.map_eq_some_iff.mp laterFound
        subst result
        rfl
  · exact absurd consuming (by simp)

theorem upgradeWebSocket_spec (agree : CachesAgree store) (sessionId : SessionId)
    (ticketId : TicketId) (now resolvedAt : Nat) :
    NothingNew (store.upgradeWebSocket sessionId ticketId now resolvedAt).2 store ∧
      ∀ session,
        (store.upgradeWebSocket sessionId ticketId now resolvedAt).1 = some session →
        session.id = sessionId ∧
          (∃ ticket, Consumed store sessionId ticketId now
            (store.upgradeWebSocket sessionId ticketId now resolvedAt).2 ticket) ∧
          ∃ live, store.database.liveSession sessionId resolvedAt = some live := by
  have validated := validateAndConsumeWebSocketTicket_spec agree sessionId ticketId now
  rw [SessionStore.upgradeWebSocket]
  split
  · rename_i middle refused
    rw [refused] at validated
    exact ⟨validated.1, fun session granted => absurd granted (by simp)⟩
  rename_i middle accepted
  rw [accepted] at validated
  obtain ⟨kept, consumed⟩ := validated
  obtain ⟨⟨ticket, consumed⟩, liveBefore⟩ := consumed rfl
  obtain ⟨effect, answered⟩ := resolveSession_spec (kept.agree agree)
    { sessionId := some sessionId, nowMs := resolvedAt, touch := true }
  have resolved : NothingNew (middle.resolveSession
      { sessionId := some sessionId, nowMs := resolvedAt, touch := true }).2 middle :=
    .ofResolve effect
  refine ⟨resolved.trans kept, ?_⟩
  intro session granted
  obtain ⟨named, live, isLive⟩ := answer_eq_some (answered.symm.trans granted)
  refine ⟨named, ⟨ticket, ?_⟩, live, liveBefore resolvedAt live isLive⟩
  refine ⟨consumed.stored, consumed.owner, consumed.fresh, consumed.unexpired, consumed.live, ?_⟩
  intro later found
  obtain ⟨earlier, earlierFound, _, _, stillConsumed⟩ := resolved.tickets ticketId later found
  exact stillConsumed (consumed.consumed earlier earlierFound)

end Upgrades

/-- Stored tickets are the issued ones, and the ticket of an upgrade was issued to its session and
is not stored as fresh. -/
structure TicketsInvariant (system : AuthSystem) : Prop where
  agree : CachesAgree system.store
  rowsIssued : ∀ sessionId,
    (system.store.database.authSessions.get? sessionId).isSome = true →
      sessionId ∈ system.log.issuedSessions
  touchesIssued : ∀ sessionId,
    (system.store.caches.authSessionLastTouchedAt.get? sessionId).isSome = true →
      sessionId ∈ system.log.issuedSessions
  issued : ∀ ticketId ticket,
    system.store.database.authWebSocketTickets.get? ticketId = some ticket →
      ∃ first, system.log.issuedTickets.get? ticketId = some first ∧
        ticket.sessionId = first.sessionId ∧ ticket.expiresAt = first.expiresAt
  granted : ∀ upgrade ∈ system.log.upgrades,
    ∃ first, system.log.issuedTickets.get? upgrade.ticketId = some first ∧
      first.sessionId = upgrade.sessionId
  spent : ∀ upgrade ∈ system.log.upgrades, ∀ ticket,
    system.store.database.authWebSocketTickets.get? upgrade.ticketId = some ticket →
      ticket.consumedAt.isSome = true
  grantedOnce : (system.log.upgrades.map (·.ticketId)).Nodup

section Steps

variable {environment : AuthEnvironment} {before middle after : AuthSystem}

theorem TicketsInvariant.kept (holds : TicketsInvariant before)
    (nothingNew : NothingNew after.store before.store)
    (sessions : after.log.issuedSessions = before.log.issuedSessions)
    (tickets : after.log.issuedTickets = before.log.issuedTickets)
    (upgrades : after.log.upgrades = before.log.upgrades) : TicketsInvariant after where
  agree := nothingNew.agree holds.agree
  rowsIssued := by
    intro sessionId present
    rw [sessions]
    exact holds.rowsIssued sessionId (nothingNew.sessions sessionId present)
  touchesIssued := by
    intro sessionId touched
    rw [sessions]
    rcases nothingNew.touches sessionId touched with earlier | present
    · exact holds.touchesIssued sessionId earlier
    · exact holds.rowsIssued sessionId present
  issued := by
    intro ticketId ticket found
    obtain ⟨earlier, earlierFound, session, expiry, _⟩ := nothingNew.tickets ticketId ticket found
    obtain ⟨first, isFirst, firstSession, firstExpiry⟩ :=
      holds.issued ticketId earlier earlierFound
    rw [tickets]
    exact ⟨first, isFirst, session.trans firstSession, expiry.trans firstExpiry⟩
  granted := by
    rw [upgrades, tickets]
    exact holds.granted
  spent := by
    intro upgrade member ticket found
    rw [upgrades] at member
    obtain ⟨earlier, earlierFound, _, _, consumed⟩ :=
      nothingNew.tickets upgrade.ticketId ticket found
    exact consumed (holds.spent upgrade member earlier earlierFound)
  grantedOnce := by
    rw [upgrades]
    exact holds.grantedOnce

theorem createSessionRecord_tickets (store : SessionStore) (sessionId : SessionId)
    (userId : UserId) (sessionLifetimeDays now : Nat) :
    (store.createSessionRecord sessionId userId sessionLifetimeDays
      now).database.authWebSocketTickets.Within store.database.authWebSocketTickets := by
  rw [SessionStore.createSessionRecord]
  exact (OrderedMap.Within.filter _ _).trans (OrderedMap.Within.filter _ _)

theorem TicketsInvariant.createSession (holds : TicketsInvariant before) {sessionId : SessionId}
    (fresh : sessionId ∉ before.log.issuedSessions) (userId : UserId)
    (sessionLifetimeDays nowMs : Nat) :
    TicketsInvariant (before.createSession sessionId userId sessionLifetimeDays nowMs) where
  agree := by
    intro other touchedAt row touched stored
    simp only [AuthSystem.createSession, SessionStore.createSessionRecord,
      AuthDatabase.createAuthSession, OrderedMap.get?_set] at touched stored
    split at stored
    · rename_i same
      refine absurd (holds.touchesIssued sessionId ?_) fresh
      rw [← same, touched]
      rfl
    · exact holds.agree other touchedAt row touched (OrderedMap.Within.filter _ _ other row stored)
  rowsIssued := by
    intro other present
    simp only [AuthSystem.createSession, SessionStore.createSessionRecord,
      AuthDatabase.createAuthSession, OrderedMap.get?_set] at present ⊢
    split at present
    · rename_i same
      rw [same]
      exact List.mem_append_right _ List.mem_cons_self
    · exact List.mem_append_left _
        (holds.rowsIssued other (NothingNew.of_get? (OrderedMap.Within.filter _ _) present))
  touchesIssued := by
    intro other touched
    exact List.mem_append_left _ (holds.touchesIssued other touched)
  issued := by
    intro ticketId ticket found
    exact holds.issued ticketId ticket
      (createSessionRecord_tickets before.store sessionId userId sessionLifetimeDays nowMs ticketId
        ticket found)
  granted := holds.granted
  spent := by
    intro upgrade member ticket found
    exact holds.spent upgrade member ticket
      (createSessionRecord_tickets before.store sessionId userId sessionLifetimeDays nowMs _ ticket
        found)
  grantedOnce := holds.grantedOnce

theorem TicketsInvariant.issueWebSocketTicket (holds : TicketsInvariant before)
    {sessionId : SessionId} {ticketId : TicketId} (nowMs : Nat)
    (fresh : before.log.issuedTickets.get? ticketId = none) :
    TicketsInvariant (before.issueWebSocketTicket sessionId ticketId nowMs) := by
  have resolved := NothingNew.resolveSession holds.agree
    { sessionId := some sessionId, nowMs, touch := true }
  rw [AuthSystem.issueWebSocketTicket, SessionStore.issueWebSocketTicket]
  cases answered : before.store.resolveSession
      { sessionId := some sessionId, nowMs, touch := true } with
  | mk answer store =>
    rw [answered] at resolved
    have middleHolds : TicketsInvariant { before with store } :=
      holds.kept resolved rfl rfl rfl
    cases answer with
    | none => exact middleHolds
    | some session =>
      have notGranted : ∀ upgrade ∈ before.log.upgrades, upgrade.ticketId ≠ ticketId := by
        intro upgrade member same
        obtain ⟨first, isFirst, _⟩ := holds.granted upgrade member
        rw [same, fresh] at isFirst
        exact absurd isFirst (by simp)
      refine ⟨middleHolds.agree, middleHolds.rowsIssued, middleHolds.touchesIssued, ?_, ?_, ?_,
        holds.grantedOnce⟩
      · intro other ticket found
        simp only [AuthDatabase.createAuthWebSocketTicket, OrderedMap.get?_set] at found ⊢
        split at found
        · rename_i same
          cases Option.some.inj found
          rw [if_pos same]
          exact ⟨_, rfl, rfl, rfl⟩
        · rename_i different
          rw [if_neg different]
          exact middleHolds.issued other ticket (OrderedMap.Within.filter _ _ other ticket found)
      · intro upgrade member
        simp only [OrderedMap.get?_set, notGranted upgrade member, if_false]
        exact holds.granted upgrade member
      · intro upgrade member ticket found
        simp only [AuthDatabase.createAuthWebSocketTicket, OrderedMap.get?_set,
          notGranted upgrade member, if_false] at found
        exact middleHolds.spent upgrade member ticket
          (OrderedMap.Within.filter _ _ _ ticket found)

structure Grants (system : AuthSystem) (sessionId : SessionId) (ticketId : TicketId)
    (resolvedAt : Nat) : Prop where
  issued : ∃ ticket, system.log.issuedTickets.get? ticketId = some ticket ∧
    ticket.sessionId = sessionId ∧ system.clock < ticket.expiresAt
  unused : ticketId ∉ system.log.upgrades.map (·.ticketId)
  live : ∃ session, system.store.database.liveSession sessionId system.clock = some session
  stillLive : ∃ session, system.store.database.liveSession sessionId resolvedAt = some session

theorem TicketsInvariant.upgradeWebSocket (holds : TicketsInvariant before)
    (sessionId : SessionId) (ticketId : TicketId) (resolvedAt : Nat) :
    TicketsInvariant (before.upgradeWebSocket sessionId ticketId resolvedAt) ∧
      ((before.upgradeWebSocket sessionId ticketId resolvedAt).log.upgrades =
          before.log.upgrades ∨
        (before.upgradeWebSocket sessionId ticketId resolvedAt).log.upgrades =
            before.log.upgrades ++ [⟨ticketId, sessionId⟩] ∧
          Grants before sessionId ticketId resolvedAt) := by
  have upgraded := upgradeWebSocket_spec holds.agree sessionId ticketId before.clock resolvedAt
  rw [AuthSystem.upgradeWebSocket]
  split
  · rename_i store refused
    rw [refused] at upgraded
    exact ⟨holds.kept upgraded.1 rfl rfl rfl, .inl rfl⟩
  rename_i session store granted
  rw [granted] at upgraded
  obtain ⟨nothingNew, facts⟩ := upgraded
  obtain ⟨named, ⟨ticket, consumed⟩, stillLive⟩ := facts session rfl
  have middleHolds : TicketsInvariant { before with store, clock := resolvedAt } :=
    holds.kept nothingNew rfl rfl rfl
  obtain ⟨first, isFirst, firstSession, firstExpiry⟩ :=
    holds.issued ticketId ticket consumed.stored
  have unused : ticketId ∉ before.log.upgrades.map (·.ticketId) := by
    intro member
    obtain ⟨upgrade, isUpgrade, same⟩ := List.mem_map.mp member
    have spent := holds.spent upgrade isUpgrade ticket (same ▸ consumed.stored)
    rw [consumed.fresh] at spent
    exact absurd spent (by simp)
  have owner : first.sessionId = session.id := by
    rw [named, ← consumed.owner, firstSession]
  refine ⟨⟨middleHolds.agree, middleHolds.rowsIssued, middleHolds.touchesIssued,
    middleHolds.issued, ?_, ?_, ?_⟩, .inr ⟨?_, ?_⟩⟩
  · intro upgrade member
    rcases List.mem_append.mp member with earlier | new
    · exact holds.granted upgrade earlier
    · rw [List.mem_singleton.mp new]
      exact ⟨first, isFirst, owner⟩
  · intro upgrade member later found
    rcases List.mem_append.mp member with earlier | new
    · exact middleHolds.spent upgrade earlier later found
    · rw [List.mem_singleton.mp new] at found
      exact consumed.consumed later found
  · rw [List.map_append]
    refine List.nodup_append.mpr ⟨holds.grantedOnce, List.nodup_singleton _, ?_⟩
    intro earlier member last isLast same
    rw [same, List.mem_singleton.mp isLast] at member
    exact unused member
  · rw [named]
  · exact ⟨⟨first, isFirst, owner.trans named, firstExpiry ▸ consumed.unexpired⟩, unused,
      consumed.live, stillLive⟩

structure Quiet (after before : AuthSystem) : Prop where
  store : NothingNew after.store before.store
  sessions : after.log.issuedSessions = before.log.issuedSessions
  tickets : after.log.issuedTickets = before.log.issuedTickets
  upgrades : after.log.upgrades = before.log.upgrades

theorem Quiet.trans (second : Quiet after middle) (first : Quiet middle before) :
    Quiet after before :=
  ⟨second.store.trans first.store, second.sessions.trans first.sessions,
    second.tickets.trans first.tickets, second.upgrades.trans first.upgrades⟩

theorem Quiet.sameStore (store : after.store = before.store)
    (sessions : after.log.issuedSessions = before.log.issuedSessions)
    (tickets : after.log.issuedTickets = before.log.issuedTickets)
    (upgrades : after.log.upgrades = before.log.upgrades) : Quiet after before :=
  ⟨store ▸ .refl _, sessions, tickets, upgrades⟩

theorem Quiet.setDatabase (before : AuthSystem) {database : AuthDatabase}
    (tickets : database.authWebSocketTickets = before.store.database.authWebSocketTickets)
    (sessions : database.authSessions = before.store.database.authSessions) :
    Quiet (before.setDatabase database) before :=
  ⟨.ofSame tickets sessions rfl, rfl, rfl, rfl⟩

theorem Quiet.ofFailures (before : AuthSystem) {database : AuthDatabase}
    (only : FailuresOnly database before.store.database) :
    Quiet (before.setDatabase database) before :=
  .setDatabase before only.authWebSocketTickets only.authSessions

theorem TicketsInvariant.quiet (holds : TicketsInvariant before) (quiet : Quiet after before) :
    TicketsInvariant after := holds.kept quiet.store quiet.sessions quiet.tickets quiet.upgrades

theorem clearFailures_quiet (system : AuthSystem) : Quiet system.clearFailures system :=
  .ofFailures system (.reset _)

theorem countFailure_quiet (system : AuthSystem) (context : AttemptContext)
    (failure : AuthFailure) : Quiet (system.countFailure context failure).1 system := by
  rw [AuthSystem.countFailure]
  split
  · exact .sameStore rfl rfl rfl rfl
  · rename_i counted
    have quiet := Quiet.ofFailures system (incrementFailedAttempts_spec counted).1
    exact ⟨quiet.store, rfl, rfl, rfl⟩
  · rename_i counted
    exact .ofFailures system (incrementFailedAttempts_spec counted).1

theorem TotpEffect.quiet {attempt : Attempt} {system : AuthSystem}
    (checked : TotpEffect environment system attempt middle) : Quiet middle system := by
  cases checked with
  | refused => exact .sameStore rfl rfl rfl rfl
  | accepted => exact ⟨.ofSame rfl rfl rfl, rfl, rfl, rfl⟩

theorem AttemptEffect.tickets {attempt next : Attempt} {context : AttemptContext}
    {resumption : Resumption} (holds : TicketsInvariant before)
    (fresh : resumption.sessionId ∉ before.log.issuedSessions)
    (effect : AttemptEffect environment before attempt context resumption after next) :
    TicketsInvariant after ∧ after.log.upgrades = before.log.upgrades := by
  have ofQuiet : ∀ {state : AuthSystem}, Quiet state before →
      TicketsInvariant state ∧ state.log.upgrades = before.log.upgrades :=
    fun quiet => ⟨holds.quiet quiet, quiet.upgrades⟩
  cases effect with
  | waits => exact ⟨holds, rfl⟩
  | refused => exact ⟨holds, rfl⟩
  | @failed middle failure deciding notHolding checked =>
    exact ofQuiet ((countFailure_quiet middle context failure).trans checked.quiet)
  | @verified middle _ deciding same notHolding holdsNone checksNone checked =>
    exact ofQuiet ((clearFailures_quiet middle).trans checked.quiet)
  | @recovered codeHash _ deciding same notHolding isHeld checksNone unused =>
    have marked : Quiet (before.setDatabase { before.store.database with
        authRecoveryCodes := before.store.database.authRecoveryCodes.set codeHash
          (some context.nowMs) }) before := .setDatabase before rfl rfl
    exact ofQuiet ((clearFailures_quiet _).trans marked)
  | @steppedUp middle sessionId _ deciding notHolding checked =>
    have granted : Quiet { middle.clearFailures with
        store := middle.clearFailures.store.recordStepUp sessionId context.nowMs }
        middle.clearFailures :=
      ⟨.ofFewer (.refl _) (recordStepUp_fewer _ sessionId context.nowMs), rfl, rfl, rfl⟩
    exact ofQuiet (granted.trans ((clearFailures_quiet middle).trans checked.quiet))
  | created =>
    have created := holds.createSession fresh context.user.id
      context.settings.sessionLifetimeDays context.nowMs
    exact ⟨created.quiet (.sameStore rfl rfl rfl rfl), rfl⟩

theorem SetupEffect.tickets {id : Nat} {context : SetupContext} {phase : SetupPhase}
    {next : Setup} (holds : TicketsInvariant before)
    (effect : SetupEffect environment before id context phase after next) :
    TicketsInvariant after ∧ after.log.upgrades = before.log.upgrades := by
  cases effect with
  | refused => exact ⟨holds, rfl⟩
  | @failed counted otherwise =>
    have quiet := countFailure_quiet before counted otherwise
    exact ⟨holds.quiet quiet, quiet.upgrades⟩
  | waits => exact ⟨holds, rfl⟩
  | hashed => exact ⟨holds.quiet (.sameStore rfl rfl rfl rfl), rfl⟩
  | @opened matchedCounter material user database queued free rechecked =>
    have quiet : Quiet (before.setDatabase database) before := by
      obtain ⟨_, ⟨_, only, _⟩ | ⟨_, created⟩⟩ := recheckSetup_spec rechecked
      · exact .ofFailures before only
      · rw [created]
        exact .setDatabase before rfl rfl
    exact ⟨(holds.quiet quiet).quiet (.sameStore rfl rfl rfl rfl), rfl⟩
  | @committed matchedCounter material user resumption encrypting fresh =>
    have stored := holds.quiet (.setDatabase before rfl rfl :
      Quiet (before.setDatabase ((before.store.database.upsertAuthSettings
        material.primaryFactorHash (encryptAuthSecret resumption.iv resumption.payload)
          material.sessionLifetimeDays)
        |>.replaceAuthRecoveryCodeHashes material.recoveryCodeHashes)) before)
    have created := stored.createSession fresh user.id material.sessionLifetimeDays context.nowMs
    exact ⟨created.quiet (.sameStore rfl rfl rfl rfl), rfl⟩

theorem authStep_tickets {event : AuthEvent} (holds : TicketsInvariant before)
    (stepped : authStep environment before event = some after) :
    TicketsInvariant after ∧
      (after.log.upgrades = before.log.upgrades ∨
        ∃ sessionId ticketId resolvedAt, event = .upgradeWebSocket sessionId ticketId resolvedAt ∧
          after.log.upgrades = before.log.upgrades ++ [⟨ticketId, sessionId⟩] ∧
          Grants before sessionId ticketId resolvedAt) := by
  have ofQuiet : ∀ {state : AuthSystem}, Quiet state before → TicketsInvariant state ∧
      (state.log.upgrades = before.log.upgrades ∨
        ∃ sessionId ticketId resolvedAt, event = .upgradeWebSocket sessionId ticketId resolvedAt ∧
          state.log.upgrades = before.log.upgrades ++ [⟨ticketId, sessionId⟩] ∧
          Grants before sessionId ticketId resolvedAt) :=
    fun quiet => ⟨holds.quiet quiet, .inl quiet.upgrades⟩
  have begun : ∀ {nowMs : Nat} {continued : AttemptContext → Attempt} {system : AuthSystem}
      {checked : Except AuthFailure ConfiguredAuthUser × AuthDatabase},
      LockChecked system.store.database nowMs checked →
        Quiet (system.beginAttempt checked nowMs continued) system := by
    intro nowMs continued system checked passes
    have quiet := Quiet.ofFailures system passes.failuresOnly
    exact ⟨quiet.store, rfl, rfl, rfl⟩
  cases event with
  | advanceClock nowMs =>
    simp only [authStep] at stepped
    split at stepped <;> cases stepped
    exact ofQuiet (.sameStore rfl rfl rfl rfl)
  | startLogin username primaryFactor totpCode nowMs =>
    simp only [authStep] at stepped
    split at stepped <;> cases stepped
    exact ofQuiet (begun (enforceConfiguredUserByUsername_checked _))
  | startRecovery username primaryFactor recoveryCode nowMs =>
    simp only [authStep] at stepped
    split at stepped <;> cases stepped
    exact ofQuiet (begun (enforceConfiguredUserByUsername_checked _))
  | startStepUp sessionId primaryFactor totpCode nowMs =>
    simp only [authStep] at stepped
    split at stepped <;> cases stepped
    have resolved := NothingNew.resolveSession holds.agree
      { sessionId := some sessionId, nowMs, touch := true }
    rw [AuthSystem.startStepUp]
    split
    · rename_i store refused
      rw [refused] at resolved
      exact ofQuiet ⟨resolved, rfl, rfl, rfl⟩
    · rename_i session store served
      rw [served] at resolved
      have quiet : Quiet { before with store } before := ⟨resolved, rfl, rfl, rfl⟩
      exact ofQuiet ((begun (enforceConfiguredUserById_checked _)).trans quiet)
  | resumeAttempt id resumption =>
    have fresh : resumption.sessionId ∉ before.log.issuedSessions := by
      intro issued
      simp [authStep, issued] at stepped
    obtain ⟨attempt, middle, next, context, found, held, effect, result⟩ :=
      resumeAttempt_of_step stepped
    obtain ⟨middleHolds, upgrades⟩ := effect.tickets holds fresh
    rw [result]
    exact ⟨middleHolds.quiet (.sameStore rfl rfl rfl rfl), .inl upgrades⟩
  | startSetup input nowMs =>
    simp only [authStep] at stepped
    split at stepped <;> cases stepped
    have only : FailuresOnly (checkSetup before.store.database
        (resolveAuthInputUsername before.store.database input.username) nowMs).2
        before.store.database := checkSetup_failuresOnly _ _ nowMs
    have quiet := Quiet.ofFailures before only
    exact ofQuiet ⟨quiet.store, rfl, rfl, rfl⟩
  | resumeSetup id resumption =>
    obtain ⟨context, phase, middle, next, found, effect, result⟩ := resumeSetup_of_step stepped
    obtain ⟨middleHolds, upgrades⟩ := effect.tickets holds
    rw [result]
    exact ⟨middleHolds.quiet (.sameStore rfl rfl rfl rfl), .inl upgrades⟩
  | resolveSession input =>
    simp only [authStep] at stepped
    split at stepped <;> cases stepped
    exact ofQuiet ⟨.resolveSession holds.agree input, rfl, rfl, rfl⟩
  | getAuthStatus sessionId nowMs =>
    simp only [authStep] at stepped
    split at stepped <;> cases stepped
    have resolved := NothingNew.resolveSession holds.agree { sessionId, nowMs, touch := false }
    rw [AuthSystem.getAuthStatus]
    split
    · rename_i store refused
      rw [refused] at resolved
      exact ofQuiet ⟨resolved, rfl, rfl, rfl⟩
    · rename_i session store served
      rw [served] at resolved
      have quiet : Quiet { before with store } before := ⟨resolved, rfl, rfl, rfl⟩
      exact ofQuiet ((Quiet.ofFailures { before with store }
        (readCurrentAuthSettingsForUser_failuresOnly _ nowMs)).trans quiet)
  | logout sessionId =>
    cases Option.some.inj stepped
    exact ofQuiet ⟨.ofNarrower (logout_narrower before.store sessionId), rfl, rfl, rfl⟩
  | issueWebSocketTicket sessionId ticketId nowMs =>
    simp only [authStep] at stepped
    split at stepped <;> cases stepped
    rename_i fresh
    simp only [not_or, Bool.not_eq_true, Option.isSome_eq_false_iff,
      Option.isNone_iff_eq_none] at fresh
    refine ⟨holds.issueWebSocketTicket nowMs fresh.2, .inl ?_⟩
    rw [AuthSystem.issueWebSocketTicket]
    split <;> rfl
  | upgradeWebSocket sessionId ticketId resolvedAt =>
    simp only [authStep] at stepped
    split at stepped <;> cases stepped
    obtain ⟨afterHolds, same | granted⟩ := holds.upgradeWebSocket sessionId ticketId resolvedAt
    · exact ⟨afterHolds, .inl same⟩
    · exact ⟨afterHolds, .inr ⟨sessionId, ticketId, resolvedAt, rfl, granted⟩⟩
  | resetUserOtpEnrollment =>
    cases Option.some.inj stepped
    exact ofQuiet ⟨.ofRevoked rfl rfl (.refl _), rfl, rfl, rfl⟩
  | updateUserEnabled userId enabled =>
    cases Option.some.inj stepped
    cases enabled with
    | false => exact ofQuiet ⟨.ofRevoked rfl rfl (.refl _), rfl, rfl, rfl⟩
    | true => exact ofQuiet (.setDatabase before rfl rfl)
  | finalizePrimaryFactorReset settings primaryFactorHash =>
    cases Option.some.inj stepped
    exact ofQuiet ⟨.ofRevoked rfl rfl (.empty _), rfl, rfl, rfl⟩
  | regenerateRecoveryCodes codeHashes =>
    simp only [authStep] at stepped
    split at stepped
    · exact absurd stepped (by simp)
    · split at stepped <;> cases stepped
      exact ofQuiet ⟨.ofSame rfl rfl rfl, rfl, rfl, rfl⟩

theorem ticketsInvariant_start (database : AuthDatabase) (clock : Nat) :
    TicketsInvariant (.start database clock) where
  agree := cachesAgree_empty database
  rowsIssued := by
    intro sessionId present
    obtain ⟨row, found⟩ := Option.isSome_iff_exists.mp present
    exact List.mem_map.mpr ⟨(sessionId, row), (OrderedMap.get?_eq_some_iff _ _ _).mp found, rfl⟩
  touchesIssued := fun sessionId touched =>
    absurd touched (by simp [AuthSystem.start, SessionCaches.empty])
  issued := fun ticketId ticket found => ⟨ticket, found, rfl, rfl⟩
  granted := fun upgrade member => absurd member List.not_mem_nil
  spent := fun upgrade member => absurd member List.not_mem_nil
  grantedOnce := .nil

end Steps

/-- After any run, no recovery code has logged in twice and no ticket has been upgraded twice; and a
further step grants an upgrade only by an unused ticket that was issued to the session, before its
expiry and for a session that is live. -/
theorem oneShot_credentials {environment : AuthEnvironment} {database : AuthDatabase} {clock : Nat}
    {system : AuthSystem}
    (reached : Reaches (authStep environment) Unrestricted (.start database clock) system) :
    system.log.recoveryLogins.Nodup ∧ (system.log.upgrades.map (·.ticketId)).Nodup ∧
      ∀ event next, authStep environment system event = some next →
        next.log.upgrades = system.log.upgrades ∨
          ∃ sessionId ticketId resolvedAt,
            event = .upgradeWebSocket sessionId ticketId resolvedAt ∧
              next.log.upgrades = system.log.upgrades ++ [⟨ticketId, sessionId⟩] ∧
              Grants system sessionId ticketId resolvedAt := by
  have codes := reached.invariant CodesInvariant (codesInvariant_start database clock)
    fun _ _ _ holds _ stepped => authStep_codes holds stepped
  have tickets := reached.invariant TicketsInvariant (ticketsInvariant_start database clock)
    fun _ _ _ holds _ stepped => (authStep_tickets holds stepped).1
  refine ⟨(List.nodup_append.mp codes.spentOnce).1, tickets.grantedOnce, ?_⟩
  intro event next stepped
  exact (authStep_tickets tickets stepped).2

theorem oneShot_credentials_one :
    ∃ system, Reaches (authStep sampleEnvironment) Unrestricted (.start sampleDatabase 1000)
        system ∧
      system.log.recoveryLogins = ["code"] ∧ system.log.upgrades = [⟨"ticket", "session"⟩] ∧
      system.log.recoveryLogins.Nodup ∧ (system.log.upgrades.map (·.ticketId)).Nodup := by
  have traced : (run (authStep sampleEnvironment) (fun _ _ => true) (.start sampleDatabase 1000)
      (.startRecovery none "open" "code" 1000 ::
        (List.replicate 4 (.resumeAttempt 0 sampleResumption) ++
          [.issueWebSocketTicket "session" "ticket" 1000, .upgradeWebSocket "session" "ticket" 2000,
            .upgradeWebSocket "session" "ticket" 3000]))).map
        (fun system => (system.log.recoveryLogins, system.log.upgrades)) =
      some (["code"], [⟨"ticket", "session"⟩]) := by
    decide +kernel
  obtain ⟨system, ran, facts⟩ := Option.map_eq_some_iff.mp traced
  obtain ⟨logins, upgrades⟩ := Prod.mk.inj facts
  have reached : Reaches (authStep sampleEnvironment) Unrestricted (.start sampleDatabase 1000)
      system := (reaches_of_run ran).unrestricted
  have once := oneShot_credentials reached
  exact ⟨system, reached, logins, upgrades, once.1, once.2.1⟩

end Metidos.Auth
