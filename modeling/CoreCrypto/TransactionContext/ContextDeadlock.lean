import CoreCrypto.TransactionContext.Locks

/-!
# Calls on one context that wait for each other

Which calls can come to wait for each other is decided by those that ask for a lock out of order: the
Proteus calls ask for the context while they have it, the end of a context waits for readers and then
asks for the cache, `wipe` asks for the context while it has the cache, and whoever merges an own
commit reads the group twice.
-/

namespace CoreCrypto.TransactionContext.Locks

open CoreCrypto.Library CoreCrypto.Library.RwLocks
open CoreCrypto.Conversation (RecursionPolicy MessageRestorePolicy)

variable {C : Type} [DecidableEq C] {call : ContextCall C} {lock : ContextLock C} {mode : Mode}
  {i : Nat}

def start (calls : List (ContextCall C)) : List (LockTask (ContextLock C)) :=
  (calls.map ContextCall.commands).map LockTask.start

/-- Calls that may run at the same time. -/
structure Compatible (calls : List (ContextCall C)) : Prop where
  /-- No context is ended during a call that asks twice for it. -/
  context : ∀ ending ∈ calls, ∀ other ∈ calls, ending.endsContext = true →
    other.rereadsContext = false
  /-- No cache is cleared with the context during a wipe. -/
  cache : ∀ ending ∈ calls, ∀ other ∈ calls, ending.clearsCache = true → other.wipes = false
  /-- No context is ended during a wipe and another call that takes the cache. -/
  wipe : ∀ ending ∈ calls, ending.endsContext = true → ∀ (i j : Nat) wiping other, i ≠ j →
    calls[i]? = some wiping → calls[j]? = some other → wiping.wipes = true →
    other.takesCache = false
  /-- No group is written during a call that asks twice for it. -/
  group : ∀ (i j : Nat) one other c, i ≠ j → calls[i]? = some one → calls[j]? = some other →
    one.RereadsGroup c → ¬ other.WritesGroup c

namespace ContextCall

variable {call : ContextCall C} {lock : ContextLock C} {held mode : Mode}

omit [DecidableEq C] in
theorem nested_context (nested : call.Nested (lock, held) (.context, mode)) :
    mode = .read ∧ (call.rereadsContext = true ∨
      (lock = .conversationCache ∧ call.wipes = true) ∨
      ∃ c, lock = .group c ∧ held = .read ∧ call.RereadsGroup c) := by
  cases mode with
  | write => cases lock <;> cases held <;> exact nested.elim
  | read =>
    refine ⟨rfl, ?_⟩
    cases lock with
    | context => cases held <;> first | exact .inl nested | exact nested.elim
    | session => cases held <;> exact nested.elim
    | conversationCache =>
      cases held
      · exact nested.elim
      · exact .inr (.inl ⟨rfl, nested⟩)
    | proteus => cases held <;> first | exact .inl nested | exact nested.elim
    | group c =>
      cases held
      · exact .inr (.inr ⟨c, rfl, rfl, nested⟩)
      · exact nested.elim

omit [DecidableEq C] in
theorem nested_group {c : C} (nested : call.Nested (lock, held) (.group c, mode)) :
    lock = .conversationCache ∨
      (lock = .group c ∧ held = .read ∧ mode = .read ∧ call.RereadsGroup c) := by
  cases lock with
  | conversationCache => exact .inl rfl
  | group d =>
    cases held <;> cases mode <;> try exact nested.elim
    obtain ⟨rfl, rereads⟩ := nested
    exact .inr ⟨rfl, rfl, rfl, rereads⟩
  | _ => cases held <;> cases mode <;> exact nested.elim

end ContextCall

/-! ### Compatible calls -/

/-- The order in which the locks are asked for, readers before writers. -/
def rank : ContextLock C × Mode → Nat
  | (lock, mode) =>
    (match lock with
      | .context => 0
      | .session => 0
      | .conversationCache => 2
      | .proteus => 2
      | .group _ => 4) +
    match mode with
      | .read => 0
      | .write => 1

omit [DecidableEq C] in
theorem rank_le (asked : ContextLock C × Mode) : rank asked ≤ 5 := by
  obtain ⟨lock, mode⟩ := asked
  cases lock <;> cases mode <;> simp [rank]

/-- A task of a run, the call it is from and where it is. -/
structure Runs (calls : List (ContextCall C)) (i : Nat) (task : LockTask (ContextLock C))
    (call : ContextCall C) : Prop where
  isCall : calls[i]? = some call
  place : At call.commands task

theorem runs_of_follow {calls : List (ContextCall C)} {tasks : List (LockTask (ContextLock C))}
    (follow : Follow (calls.map ContextCall.commands) tasks) (i : Nat)
    (task : LockTask (ContextLock C)) (isTask : tasks[i]? = some task) :
    ∃ call, Runs calls i task call := by
  obtain ⟨program, isProgram, place⟩ := follow i task isTask
  rw [List.getElem?_map, Option.map_eq_some_iff] at isProgram
  obtain ⟨call, isCall, rfl⟩ := isProgram
  exact ⟨call, isCall, place⟩

namespace Runs

variable {calls : List (ContextCall C)} {i j k : Nat} {task other : LockTask (ContextLock C)}
  {call : ContextCall C} {lock : ContextLock C} {mode : Mode}

theorem mem (runs : Runs calls i task call) : call ∈ calls :=
  List.mem_of_getElem? runs.isCall

theorem taken (runs : Runs calls i task call) (asks : task.asks = some (lock, mode)) :
    call.Taken (lock, mode) :=
  (part_commands call).taken _ (runs.place.mem_acquires asks)

/-- The session is only read, so nobody waits for it. -/
theorem not_stops_session (runs : Runs calls i task call) : task.stops .session .read ≠ true := by
  intro stops
  exact ((part_commands call).taken _ (runs.place.write_of_stops_read stops)).elim

theorem endsContext_of_stops (runs : Runs calls i task call)
    (stops : task.stops .context .read = true) : call.endsContext = true :=
  (part_commands call).taken _ (runs.place.write_of_stops_read stops)

end Runs

theorem rank_lt_of_waitsFor {calls : List (ContextCall C)} (compatible : Compatible calls)
    {j k : Nat} {task other third : LockTask (ContextLock C)} {one two three : ContextCall C}
    {lock' : ContextLock C} {mode' : Mode} (first : Runs calls i task one)
    (second : Runs calls j other two) (last : Runs calls k third three)
    (asks : task.asks = some (lock, mode)) (nextAsks : other.asks = some (lock', mode'))
    (different : i = j → task = other) (stops : other.stops lock mode = true)
    (nextStops : third.stops lock' mode' = true) : rank (lock, mode) < rank (lock', mode') := by
  have taken := first.taken asks
  -- a task that waits for itself would ask for one thing only
  have apart : (lock, mode) ≠ (lock', mode') → i ≠ j := by
    intro twoLocks same
    rw [different same, nextAsks] at asks
    exact twoLocks (Option.some.inj asks).symm
  rcases second.place.stops_cases nextAsks stops with ⟨held, conflict, pair⟩ | ⟨rfl, rfl, rfl⟩
  · have nested := (part_commands two).nested _ pair
    cases lock' with
    | session =>
      cases mode' with
      | read => exact absurd nextStops last.not_stops_session
      | write => exact (second.taken nextAsks).elim
    | context =>
      obtain ⟨rfl, rereads | ⟨rfl, wipes⟩ | ⟨c, rfl, rfl, rereads⟩⟩ := two.nested_context nested
      -- who waits for the context to read it waits for its end
      all_goals have ends := last.endsContext_of_stops nextStops
      · exact absurd (compatible.context three last.mem two second.mem ends) (by simp [rereads])
      · -- the first task waits for the cache, which the wipe has
        have twoTasks : i ≠ j := apart (by simp)
        cases mode with
        | read => exact taken.elim
        | write =>
          rcases taken with takes | clears
          · have := compatible.wipe three last.mem ends j i two one twoTasks.symm second.isCall
              first.isCall wipes
            simp [takes] at this
          · exact absurd (compatible.cache one first.mem two second.mem clears) (by simp [wipes])
      · -- the first task waits to write the group, which the second one reads
        have twoTasks : i ≠ j := apart (by simp)
        cases mode with
        | read => cases conflict
        | write =>
          exact absurd taken (compatible.group j i two one c twoTasks.symm second.isCall
            first.isCall rereads)
    | conversationCache =>
      cases mode' with
      | read => exact (second.taken nextAsks).elim
      | write =>
        cases lock with
        | context => cases mode <;> simp [rank]
        | session => cases mode <;> simp [rank]
        | _ => cases held <;> exact nested.elim
    | proteus =>
      cases mode' with
      | read => exact (second.taken nextAsks).elim
      | write =>
        cases lock with
        | context => cases mode <;> simp [rank]
        | _ => cases held <;> exact nested.elim
    | group c =>
      rcases two.nested_group nested with rfl | ⟨rfl, rfl, rfl, rereads⟩
      · cases mode <;> cases mode' <;> simp [rank]
      · cases mode with
        | read => cases conflict
        | write =>
          have twoTasks : i ≠ j := apart (by simp)
          exact absurd taken (compatible.group j i two one c twoTasks.symm second.isCall
            first.isCall rereads)
  · simp [rank]

/-- Compatible calls never wait for each other. -/
theorem not_deadlocked_of_compatible {calls : List (ContextCall C)} (compatible : Compatible calls)
    (events : List Event) : ¬ Deadlocked (run step (start calls) events) := by
  have runs := runs_of_follow (follow_run (calls.map ContextCall.commands) events)
  refine not_deadlocked_of_rank rank_le ?_
  rintro i j k task other third asked next isTask isOther isThird asks nextAsks
    ⟨lock, mode, asks', stops⟩ ⟨lock', mode', nextAsks', nextStops⟩
  rw [asks] at asks'
  rw [nextAsks] at nextAsks'
  cases asks'
  cases nextAsks'
  obtain ⟨one, first⟩ := runs i task isTask
  obtain ⟨two, second⟩ := runs j other isOther
  obtain ⟨three, last⟩ := runs k third isThird
  refine rank_lt_of_waitsFor compatible first second last asks nextAsks ?_ stops nextStops
  rintro rfl
  rw [isTask] at isOther
  exact Option.some.inj isOther

/-! ### Calls that are not compatible -/

/-- The call gets to a point where it holds just these guards and asks for the lock. -/
def Gets (held : List (ContextLock C × Mode)) (lock : ContextLock C) (mode : Mode)
    (commands : List (Command (ContextLock C))) : Prop :=
  ∃ past rest, commands = past ++ .acquire lock mode :: rest ∧ heldFrom [] past = held

theorem Gets.before {held : List (ContextLock C × Mode)}
    {commands : List (Command (ContextLock C))} (gets : Gets held lock mode commands)
    (later : List (Command (ContextLock C))) : Gets held lock mode (commands ++ later) := by
  obtain ⟨past, rest, rfl, isHeld⟩ := gets
  exact ⟨past, rest ++ later, by simp, isHeld⟩

theorem Gets.after {held : List (ContextLock C × Mode)}
    {commands earlier : List (Command (ContextLock C))} (gets : Gets held lock mode commands)
    (closed : heldFrom [] earlier = []) : Gets held lock mode (earlier ++ commands) := by
  obtain ⟨past, rest, rfl, isHeld⟩ := gets
  exact ⟨earlier ++ past, rest, by simp, by rw [heldFrom_append, closed, isHeld]⟩

theorem gets_wipe (c : C) : Gets [(.conversationCache, .write)] .context .read (wipe c) :=
  ⟨cryptoProvider ++ mlsGroups, _, rfl, by simp [cryptoProvider, session, mlsGroups, heldFrom, drop]⟩

theorem gets_of_wipes (wipes : call.wipes = true) :
    Gets [(.conversationCache, .write)] .context .read call.commands := by
  cases call with
  | wipe c => exact gets_wipe c
  | decryptMessage c received aftermath =>
    cases aftermath with
    | inactive =>
      have inner : Part (.decryptMessage c received .returned)
          (decryptMessageInner c .asNecessary received) :=
        part_decryptMessageInner (.decryptMessage c received .returned) rfl .asNecessary received
          fun merges => ⟨rfl, merges⟩
      exact (gets_wipe c).after inner.closed
    | _ => cases wipes
  | _ => cases wipes

/-- A call that writes the group, for the parts that all messages have in common. -/
def applicationMessage (c : C) : ContextCall C := .decryptMessage c .application .returned

theorem gets_handleOwnCommit (c : C) :
    Gets [(.group c, .read)] (.group c) .read (handleOwnCommit c) := by
  have identity : Gets [(.group c, .read)] (.group c) .read
      (ownIdentity c cryptoProvider (computeNextCommitDelay c ++ readGroup c)) :=
    ⟨.acquire (.group c) .read :: cryptoProvider, _, rfl,
      by simp [cryptoProvider, session, heldFrom, drop]⟩
  have accepted := part_processMessage (applicationMessage c) (show _ from rfl)
  exact (identity.after accepted.closed).after (part_readGroup (applicationMessage c) c).closed

mutual

theorem gets_decryptMessageInner (c : C) (policy : RecursionPolicy) :
    ∀ received : Received, received.mergesOwnCommit policy = true →
      Gets [(.group c, .read)] (.group c) .read (decryptMessageInner c policy received)
  | .refused _, merges => by simp [Received.mergesOwnCommit] at merges
  | .application, merges => by simp [Received.mergesOwnCommit] at merges
  | .proposal _, merges => by simp [Received.mergesOwnCommit] at merges
  | .retrying isPublic commit, merges => by
    simp only [Received.mergesOwnCommit] at merges
    have retried := gets_decryptMessageInner c policy commit merges
    have earlier := ((part_received (applicationMessage c) (show _ from rfl) isPublic).append
      (part_mutateGroup _ (show _ from rfl))).append (part_database _)
    simp only [decryptMessageInner]
    exact (retried.after earlier.closed).before _
  | .commit isPublic restored, merges => by
    simp only [Received.mergesOwnCommit, Bool.and_eq_true, decide_eq_true_eq] at merges
    obtain ⟨rfl, merges⟩ := merges
    have replayed := gets_replay c restored merges
    have restores : Gets [(.group c, .read)] (.group c) .read
        (restoreAndClearPendingMessages .asNecessary restored (replay c restored)) :=
      (replayed.after (part_database (applicationMessage c)).closed).before _
    have earlier := (((part_received (applicationMessage c) (show _ from rfl) isPublic).append
      (part_session _)).append (part_mutateGroup _ (show _ from rfl))).append (part_readGroup _ c)
    simp only [decryptMessageInner]
    exact (restores.after earlier.closed).before _
  | .externalJoinProposal, merges => by simp [Received.mergesOwnCommit] at merges
  | .ownCommit restored, _ => by
    have earlier := (part_received (applicationMessage c) (show _ from rfl) true).append
      (part_readGroup _ c)
    simp only [decryptMessageInner]
    exact ((gets_handleOwnCommit c).after earlier.closed).before _

theorem gets_replay (c : C) :
    ∀ restored : List Received, replayMergesOwnCommit restored = true →
      Gets [(.group c, .read)] (.group c) .read (replay c restored)
  | [], merges => by simp [replayMergesOwnCommit] at merges
  | received :: rest, merges => by
    simp only [replayMergesOwnCommit, Bool.or_eq_true] at merges
    simp only [replay]
    cases here : received.mergesOwnCommit .none with
    | true => exact (gets_decryptMessageInner c .none received here).before _
    | false =>
      have later := gets_replay c rest (by simpa [here] using merges)
      -- a message that merges no own commit leaves nothing held
      have earlier := part_decryptMessageInner (applicationMessage c) (show _ from rfl) .none received
        (by simp [here])
      exact later.after earlier.closed

end

/-- Whoever asks twice for a group gets to where it has it and asks again. -/
theorem gets_of_rereadsGroup {c : C} (rereads : call.RereadsGroup c) :
    Gets [(.group c, .read)] (.group c) .read call.commands := by
  have restores : ∀ restored, replayMergesOwnCommit restored = true →
      Gets [(.group c, .read)] (.group c) .read (merge c .decryptAndClear restored) := by
    intro restored merges
    have persists : Part (.conversationExists : ContextCall C)
        (cryptoProvider ++ persistConversationFromMlsGroup) :=
      (part_session _).append (((part_session _).append (part_database _)).append
        (part_cache _ rfl .cached))
    exact ((((gets_replay c restored merges).after (part_database (applicationMessage c)).closed).after
      persists.closed).before _).before _
  cases call with
  | decryptMessage d received aftermath =>
    obtain ⟨rfl, merges⟩ := rereads
    exact (gets_decryptMessageInner d .asNecessary received merges).before _
  | merge created policy restored =>
    obtain ⟨rfl, rfl, merges⟩ := rereads
    exact restores restored merges
  | tryProcessOwnJoinCommit message =>
    cases message with
    | buffered => exact rereads.elim
    | accepted created policy restored fetched found =>
      have earlier : Part (applicationMessage c) (cryptoProvider ++ database) :=
        (part_session _).append (part_database _)
      rcases rereads with rfl | ⟨rfl, rfl, merges⟩
      · have identity : Gets [(.group found, .read)] (.group found) .read
            (ownIdentity found pkiEnvironment (.acquire (.group found) .read ::
              (computeNextCommitDelay found ++ [.release (.group found)]))) :=
          ⟨.acquire (.group found) .read :: pkiEnvironment, _, rfl,
            by simp [pkiEnvironment, database, heldFrom, drop]⟩
        exact (identity.after (part_joined created policy restored fetched found).closed).after
          earlier.closed
      · exact (((restores restored merges).before _).before _).after earlier.closed
  | _ => exact rereads.elim

/-- The cache is asked for the first time, by a reader of the context. -/
def TakesCache (commands : List (Command (ContextLock C))) : Prop :=
  ∃ past rest, commands = past ++ .acquire .conversationCache .write :: rest ∧
    heldFrom [] past = [(.context, .read)] ∧ ∀ asked ∈ acquires past, asked.1 ≠ .conversationCache

theorem takesCache_mlsGroups : TakesCache (mlsGroups : List (Command (ContextLock C))) :=
  ⟨[.acquire .context .read, .acquire .session .read, .release .session], [.release .context], rfl,
    by simp [heldFrom, drop], by simp [acquires]⟩

theorem TakesCache.before {commands : List (Command (ContextLock C))} (takes : TakesCache commands)
    (later : List (Command (ContextLock C))) : TakesCache (commands ++ later) := by
  obtain ⟨past, rest, rfl, isHeld, first⟩ := takes
  exact ⟨past, rest ++ later, by simp, isHeld, first⟩

/-- What belongs to a call that takes no cache can go first. -/
theorem TakesCache.after {commands earlier : List (Command (ContextLock C))}
    (takes : TakesCache commands) (part : Part call earlier) (without : call.takesCache = false)
    (keeps : call.clearsCache = false) : TakesCache (earlier ++ commands) := by
  obtain ⟨past, rest, rfl, isHeld, first⟩ := takes
  refine ⟨earlier ++ past, rest, by simp, by rw [heldFrom_append, part.closed, isHeld], ?_⟩
  rintro ⟨lock, mode⟩ isAsked rfl
  rw [acquires_append, List.mem_append] at isAsked
  rcases isAsked with inEarlier | inPast
  · have taken := part.taken _ inEarlier
    cases mode with
    | read => exact taken.elim
    | write => simp [ContextCall.Taken, without, keeps] at taken
  · exact first _ inPast rfl

theorem takesCache_wipe (c : C) : TakesCache (wipe c) :=
  ((takesCache_mlsGroups.before _).before _).after (part_session .proteusInit) rfl rfl

theorem takesCache_merge (created : C) (policy : MessageRestorePolicy) (restored : List Received) :
    TakesCache (merge created policy restored) := by
  have persists : TakesCache (persistConversationFromMlsGroup : List (Command (ContextLock C))) :=
    (takesCache_mlsGroups.before _).after
      ((part_session .proteusInit).append (part_database _)) rfl rfl
  exact (((persists.after (part_session .proteusInit) rfl rfl).before _).before _).before _

theorem takesCache_commands (takes : call.takesCache = true) : TakesCache call.commands := by
  cases call with
  | conversation fetched =>
    exact (((takesCache_mlsGroups.before _).before _).after
      ((part_database .proteusInit).append (part_session _)) rfl rfl).before _
  | conversationExists =>
    exact (takesCache_mlsGroups.before _).after (part_database .proteusInit) rfl rfl
  | wipe c => exact takesCache_wipe c
  | merge created policy restored => exact takesCache_merge created policy restored
  | tryProcessOwnJoinCommit message =>
    cases message with
    | buffered => cases takes
    | accepted created policy restored fetched found =>
      exact (((takesCache_merge created policy restored).before _).before _).after
        ((part_session .proteusInit).append (part_database _)) rfl rfl
  | decryptMessage c received aftermath =>
    cases aftermath with
    | inactive =>
      have inner : Part (.decryptMessage c received .returned)
          (decryptMessageInner c .asNecessary received) :=
        part_decryptMessageInner (.decryptMessage c received .returned) rfl .asNecessary received
          fun merges => ⟨rfl, merges⟩
      exact (takesCache_wipe c).after inner rfl rfl
    | _ => cases takes
  | _ => cases takes

omit [DecidableEq C] in
theorem writes_decryptMessageInner (c : C) (policy : RecursionPolicy) (received : Received) :
    (.group c, .write) ∈ acquires (decryptMessageInner c policy received) := by
  have processed : (.group c, .write) ∈ acquires (processMessage c) := by
    simp [processMessage, mutateGroup, acquires]
  cases received <;>
    simp only [decryptMessageInner, acquires_append, List.mem_append, processed, true_or, or_true]

omit [DecidableEq C] in
theorem writes_merge (c : C) (restored : List Received) (some : restored ≠ []) :
    (.group c, .write) ∈ acquires (merge c .decryptAndClear restored) := by
  obtain ⟨received, rest, rfl⟩ := List.exists_cons_of_ne_nil some
  have replayed := writes_decryptMessageInner c .none received
  simp only [merge, restorePendingMessages, replay, acquires_append, List.mem_append, replayed,
    true_or, or_true]

omit [DecidableEq C] in
theorem writes_commands {call : ContextCall C} {c : C} (writes : call.WritesGroup c) :
    (.group c, .write) ∈ acquires call.commands := by
  cases call with
  | decryptMessage d received aftermath =>
    obtain rfl : d = c := writes
    have inner := writes_decryptMessageInner d .asNecessary received
    simp only [ContextCall.commands, Locks.decryptMessage, acquires_append, List.mem_append, inner,
      true_or]
  | wipe d =>
    obtain rfl : d = c := writes
    simp [ContextCall.commands, wipe, mutateGroup, acquires]
  | merge created policy restored =>
    obtain ⟨rfl, rfl, some⟩ := writes
    exact writes_merge created restored some
  | tryProcessOwnJoinCommit message =>
    cases message with
    | buffered => exact writes.elim
    | accepted created policy restored fetched found =>
      obtain ⟨rfl, rfl, some⟩ := writes
      have merged := writes_merge created restored some
      simp only [ContextCall.commands, tryProcessOwnJoinCommit, mergeAndRestoreMessages,
        acquires_append, List.mem_append, merged, true_or, or_true]
  | _ => exact writes.elim

/-! ### The calls that deadlock -/

theorem orderly_of_call (call : ContextCall C) {past rest : List (Command (ContextLock C))}
    (split : call.commands = past ++ .acquire lock mode :: rest) :
    (Place.mk i past lock mode rest).Orderly := by
  rintro ⟨⟨held, kind⟩, ⟨asked, mode'⟩⟩ isPair onLock
  have nested : call.Nested (held, kind) (asked, mode') :=
    (part_commands call).nested ((held, kind), (asked, mode'))
      (by rw [split, nests_append]; exact List.mem_append_left _ isPair)
  obtain rfl : held = asked := onLock
  cases held <;> cases kind <;> cases mode' <;> first | rfl | exact nested.elim

theorem deadlocked_of_calls {calls : List (ContextCall C)} (places : List (Place (ContextLock C)))
    (ofCall : ∀ place ∈ places, ∃ call, calls[place.task]? = some call ∧
      call.commands = place.program) (ordered : places.Pairwise Place.After) (some : places ≠ [])
    (circle : ∀ place ∈ places, ∃ other ∈ places, place.WaitsFor other) :
    ∃ events, Deadlocked (run step (start calls) events) := by
  refine deadlocked_of_places ?_ ?_ ordered some circle
  · intro place isPlace
    obtain ⟨call, isCall, program⟩ := ofCall place isPlace
    rw [List.getElem?_map, isCall, Option.map_some, program]
  · intro place isPlace
    obtain ⟨call, -, program⟩ := ofCall place isPlace
    exact orderly_of_call call program

omit [DecidableEq C] in
theorem ends_commands {call : ContextCall C} (ends : call.endsContext = true) :
    ∃ rest, call.commands = .acquire .context .write :: rest := by
  cases call with
  | finish committed => cases committed <;> exact ⟨_, rfl⟩
  | abort => exact ⟨_, rfl⟩
  | _ => cases ends

omit [DecidableEq C] in
theorem clears_commands {call : ContextCall C} (clears : call.clearsCache = true) :
    ∃ rest, call.commands = [.acquire .context .write, .acquire .session .read] ++
      .acquire .conversationCache .write :: rest := by
  cases call with
  | finish committed =>
    cases committed with
    | true => cases clears
    | false => exact ⟨_, rfl⟩
  | abort => exact ⟨_, rfl⟩
  | _ => cases clears

section Necessary

variable {calls : List (ContextCall C)} {i j k : Nat} {one two three : ContextCall C}

/-- The reader asks again while the end of the context waits for it. -/
theorem deadlocked_of_context (isOne : calls[i]? = some one) (isTwo : calls[j]? = some two)
    (ends : one.endsContext = true) (rereads : two.rereadsContext = true) :
    ∃ events, Deadlocked (run step (start calls) events) := by
  have isProteus : two = .proteusOperation := by
    cases two <;> first | rfl | cases rereads
  subst isProteus
  have different : i ≠ j := by
    rintro rfl
    rw [isOne] at isTwo
    cases isTwo
    cases ends
  obtain ⟨rest, commands⟩ := ends_commands ends
  have commands' : (.proteusOperation : ContextCall C).commands =
      [.acquire .context .read, .acquire .proteus .write] ++ .acquire .context .read ::
        [.release .context, .release .proteus, .release .context] := rfl
  refine deadlocked_of_calls [⟨i, [], .context, .write, rest⟩,
    ⟨j, [.acquire .context .read, .acquire .proteus .write], .context, .read,
      [.release .context, .release .proteus, .release .context]⟩] ?_ ?_ (by simp) ?_
  · simp [isOne, isTwo, commands, commands', Place.program]
  · simp [Place.After, different, acquires]
  · simp [Place.WaitsFor, Place.held, heldFrom, Mode.conflicts]

/-- The end of the context has the context and asks for the cache, the wipe has the cache and asks
for the context. -/
theorem deadlocked_of_cache (isOne : calls[i]? = some one) (isTwo : calls[j]? = some two)
    (clears : one.clearsCache = true) (wipes : two.wipes = true) :
    ∃ events, Deadlocked (run step (start calls) events) := by
  have different : i ≠ j := by
    rintro rfl
    rw [isOne] at isTwo
    cases isTwo
    cases one <;> simp [ContextCall.clearsCache, ContextCall.wipes] at clears wipes
  obtain ⟨rest, commands⟩ := clears_commands clears
  obtain ⟨past, rest', commands', isHeld⟩ := gets_of_wipes wipes
  refine deadlocked_of_calls
    [⟨i, [.acquire .context .write, .acquire .session .read], .conversationCache, .write, rest⟩,
      ⟨j, past, .context, .read, rest'⟩] ?_ ?_ (by simp) ?_
  · simp [isOne, isTwo, commands, commands', Place.program]
  · simp [Place.After, different, acquires, Place.held, isHeld]
  · simp [Place.WaitsFor, Place.held, isHeld, heldFrom, Mode.conflicts]

/-- The end of the context waits for a reader, which waits for the cache, and the wipe that has the
cache waits for the end of the context. -/
theorem deadlocked_of_wipe (isOne : calls[i]? = some one) (isTwo : calls[j]? = some two)
    (isThree : calls[k]? = some three) (different : j ≠ k) (ends : one.endsContext = true)
    (wipes : two.wipes = true) (takes : three.takesCache = true) :
    ∃ events, Deadlocked (run step (start calls) events) := by
  have apart : ∀ {n : Nat} {call : ContextCall C}, calls[n]? = some call →
      call.takesCache = true → i ≠ n := by
    rintro n call isCall taking rfl
    rw [isOne] at isCall
    cases isCall
    cases one <;> simp [ContextCall.takesCache, ContextCall.wipes, ContextCall.endsContext] at ends taking
  have wipeTakes : two.takesCache = true := by
    cases two <;> simp_all [ContextCall.takesCache, ContextCall.wipes]
  obtain ⟨rest, commands⟩ := ends_commands ends
  obtain ⟨past, rest', commands', isHeld⟩ := gets_of_wipes wipes
  obtain ⟨past', rest'', commands'', isHeld', first⟩ := takesCache_commands takes
  refine deadlocked_of_calls
    [⟨i, [], .context, .write, rest⟩, ⟨k, past', .conversationCache, .write, rest''⟩,
      ⟨j, past, .context, .read, rest'⟩] ?_ ?_ (by simp) ?_
  · simp [isOne, isTwo, isThree, commands, commands', commands'', Place.program]
  · have after : Place.After ⟨k, past', .conversationCache, .write, rest''⟩
        ⟨j, past, .context, .read, rest'⟩ := by
      refine ⟨different.symm, ?_⟩
      intro guard isGuard asked isAsked onLock
      rw [Place.held, isHeld, List.mem_singleton] at isGuard
      subst isGuard
      exact absurd onLock.symm (first asked isAsked)
    simpa [after] using ⟨⟨apart isThree takes, by simp [acquires]⟩, ⟨apart isTwo wipeTakes, by simp [acquires]⟩⟩
  · simp [Place.WaitsFor, Place.held, isHeld, isHeld', heldFrom, Mode.conflicts]

/-- The reader of the group asks again while a writer waits for it. -/
theorem deadlocked_of_group {c : C} (isOne : calls[i]? = some one) (isTwo : calls[j]? = some two)
    (different : i ≠ j) (rereads : one.RereadsGroup c) (writes : two.WritesGroup c) :
    ∃ events, Deadlocked (run step (start calls) events) := by
  obtain ⟨past, rest, commands, isHeld⟩ := gets_of_rereadsGroup rereads
  obtain ⟨past', rest', commands', first⟩ := split_of_mem_acquires (writes_commands writes)
  refine deadlocked_of_calls
    [⟨j, past', .group c, .write, rest'⟩, ⟨i, past, .group c, .read, rest⟩] ?_ ?_ (by simp) ?_
  · simp [isOne, isTwo, commands, commands', Place.program]
  · rw [List.pairwise_pair]
    refine ⟨different.symm, ?_⟩
    rintro guard isGuard ⟨lock, mode⟩ isAsked onLock
    rw [Place.held, isHeld, List.mem_singleton] at isGuard
    subst isGuard
    obtain rfl : .group c = lock := onLock
    cases mode with
    | read => rfl
    | write => exact absurd isAsked first
  · simp [Place.WaitsFor, Place.held, isHeld, Mode.conflicts]

end Necessary

theorem compatible_of_not_deadlocked {calls : List (ContextCall C)}
    (never : ∀ events, ¬ Deadlocked (run step (start calls) events)) : Compatible calls := by
  have impossible : ¬ ∃ events, Deadlocked (run step (start calls) events) := by simpa using never
  refine ⟨?_, ?_, ?_, ?_⟩
  · intro ending isEnding other isOther ends
    obtain ⟨i, found⟩ := List.mem_iff_getElem?.mp isEnding
    obtain ⟨j, found'⟩ := List.mem_iff_getElem?.mp isOther
    by_contra rereads
    exact impossible (deadlocked_of_context found found' ends (by simpa using rereads))
  · intro ending isEnding other isOther clears
    obtain ⟨i, found⟩ := List.mem_iff_getElem?.mp isEnding
    obtain ⟨j, found'⟩ := List.mem_iff_getElem?.mp isOther
    by_contra wipes
    exact impossible (deadlocked_of_cache found found' clears (by simpa using wipes))
  · intro ending isEnding ends i j wiping other different isWiping isOther wipes
    obtain ⟨k, found⟩ := List.mem_iff_getElem?.mp isEnding
    by_contra takes
    exact impossible (deadlocked_of_wipe found isWiping isOther different ends wipes
      (by simpa using takes))
  · intro i j one other c different isOne isOther rereads writes
    exact impossible (deadlocked_of_group isOne isOther different rereads writes)

/-- **Which calls deadlock.** Any number of calls on one context never come to wait for each other,
in any interleaving, exactly if they are compatible. -/
theorem never_deadlocked_iff_compatible (calls : List (ContextCall C)) :
    (∀ events, ¬ Deadlocked (run step (start calls) events)) ↔ Compatible calls :=
  ⟨compatible_of_not_deadlocked, fun compatible events =>
    not_deadlocked_of_compatible compatible events⟩

/-- `wipe` has the cache and asks for the context, `abort` has the context and asks for the
cache. -/
theorem wipe_and_abort_deadlock :
    Deadlocked (run step (start [ContextCall.wipe 0, .abort])
      (List.replicate 14 (.turn 0) ++ List.replicate 5 (.turn 1) ++ [.turn 0])) := by
  refine ⟨{0, 1}, ⟨0, by simp⟩, ?_⟩
  rintro i (rfl | rfl)
  · exact ⟨1, by simp, _, _, rfl, rfl, .context, .read, rfl, rfl⟩
  · exact ⟨0, by simp, _, _, rfl, rfl, .conversationCache, .write, rfl, rfl⟩

end CoreCrypto.TransactionContext.Locks
