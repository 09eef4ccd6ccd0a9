import CoreCrypto.Library.Run
import Mathlib.Data.Set.Basic

/-!
# Tasks over locks that prefer writers

Tasks run programs that acquire and release locks, for reading or for writing.  A task first asks for
a lock and is granted it in a later turn, if no task holds it in a conflicting mode and, for a
reader, no writer waits.  Which tasks can come to wait for each other is read off the programs.
-/

namespace CoreCrypto.Library.RwLocks

variable {κ : Type}

inductive Mode where
  | read
  | write
  deriving DecidableEq, Repr

def Mode.conflicts : Mode → Mode → Bool
  | .read, .read => false
  | _, _ => true

inductive Command (κ : Type) where
  | acquire (lock : κ) (mode : Mode)
  | release (lock : κ)
  deriving DecidableEq, Repr

structure LockTask (κ : Type) where
  held : List (κ × Mode)
  waiting : Bool
  rest : List (Command κ)

namespace LockTask

def start (program : List (Command κ)) : LockTask κ :=
  ⟨[], false, program⟩

/-- What the task waits for. -/
def asks (task : LockTask κ) : Option (κ × Mode) :=
  match task.waiting, task.rest with
  | true, .acquire lock mode :: _ => some (lock, mode)
  | _, _ => none

end LockTask

section Steps

variable [DecidableEq κ] {past rest : List (Command κ)} {programs : List (List (Command κ))}
  {tasks : List (LockTask κ)} {task : LockTask κ} {mode : Mode} {i : Nat} {lock : κ}
  {guard : κ × Mode}

/-- The newest guard of the lock is dropped. -/
def drop (lock : κ) (held : List (κ × Mode)) : List (κ × Mode) :=
  held.eraseP fun guard => guard.1 == lock

/-- The task keeps others from acquiring the lock in this mode: it holds the lock in a mode that
conflicts, or it is a waiting writer and they are readers. -/
def LockTask.stops (task : LockTask κ) (lock : κ) (mode : Mode) : Bool :=
  task.held.any (fun guard => guard.1 == lock && guard.2.conflicts mode) ||
    (mode == .read && task.asks == some (lock, .write))

def free (tasks : List (LockTask κ)) (lock : κ) (mode : Mode) : Bool :=
  !tasks.any fun task => task.stops lock mode

def turn (tasks : List (LockTask κ)) (i : Nat) : List (LockTask κ) :=
  match tasks[i]? with
  | none => tasks
  | some task =>
    match task.rest with
    | [] => tasks
    | .release lock :: rest => tasks.set i ⟨drop lock task.held, false, rest⟩
    | .acquire lock mode :: rest =>
      if task.waiting then
        if free tasks lock mode then tasks.set i ⟨(lock, mode) :: task.held, false, rest⟩
        else tasks
      else tasks.set i { task with waiting := true }

inductive Event where
  | turn (i : Nat)
  /-- The task ends early, and its guards are dropped. -/
  | stop (i : Nat)

def step (tasks : List (LockTask κ)) : Event → List (LockTask κ)
  | .turn i => turn tasks i
  | .stop i => tasks.set i (.start [])

def LockTask.WaitsFor (task other : LockTask κ) : Prop :=
  ∃ lock mode, task.asks = some (lock, mode) ∧ other.stops lock mode = true

/-- There are tasks of which each waits for another one of them, or for itself. -/
def Deadlocked (tasks : List (LockTask κ)) : Prop :=
  ∃ stuck : Set Nat, stuck.Nonempty ∧ ∀ i ∈ stuck, ∃ j ∈ stuck, ∃ task other,
    tasks[i]? = some task ∧ tasks[j]? = some other ∧ task.WaitsFor other

/-! ### Programs -/

/-- What a program leaves held. -/
def heldFrom (held : List (κ × Mode)) : List (Command κ) → List (κ × Mode)
  | [] => held
  | .acquire lock mode :: rest => heldFrom ((lock, mode) :: held) rest
  | .release lock :: rest => heldFrom (drop lock held) rest

def acquires (program : List (Command κ)) : List (κ × Mode) :=
  program.filterMap fun
    | .acquire lock mode => some (lock, mode)
    | .release _ => none

/-- The pairs of a lock that is held and one that is asked for meanwhile. -/
def nests (held : List (κ × Mode)) : List (Command κ) → List ((κ × Mode) × (κ × Mode))
  | [] => []
  | .acquire lock mode :: rest =>
    held.map (fun guard => (guard, (lock, mode))) ++ nests ((lock, mode) :: held) rest
  | .release lock :: rest => nests (drop lock held) rest

theorem heldFrom_append (held : List (κ × Mode)) (first second : List (Command κ)) :
    heldFrom held (first ++ second) = heldFrom (heldFrom held first) second := by
  induction first generalizing held with
  | nil => rfl
  | cons command rest ih => cases command <;> exact ih _

theorem nests_append (held : List (κ × Mode)) (first second : List (Command κ)) :
    nests held (first ++ second) = nests held first ++ nests (heldFrom held first) second := by
  induction first generalizing held with
  | nil => rfl
  | cons command rest ih =>
    cases command with
    | acquire lock mode => simp only [List.cons_append, nests, heldFrom, ih, List.append_assoc]
    | release lock => exact ih _

omit [DecidableEq κ] in
theorem acquires_append (first second : List (Command κ)) :
    acquires (first ++ second) = acquires first ++ acquires second :=
  List.filterMap_append

theorem mem_nests_of_split {held : List (κ × Mode)} {program : List (Command κ)}
    (split : program = past ++ .acquire lock mode :: rest) (holds : guard ∈ heldFrom held past) :
    (guard, (lock, mode)) ∈ nests held program := by
  rw [split, nests_append]
  exact List.mem_append_right _ (List.mem_append_left _ (List.mem_map_of_mem holds))

theorem mem_drop {held : List (κ × Mode)} (mem : guard ∈ drop lock held) : guard ∈ held :=
  List.mem_of_mem_eraseP mem

theorem mem_acquires_of_mem_heldFrom {held : List (κ × Mode)} {program : List (Command κ)}
    (mem : guard ∈ heldFrom held program) : guard ∈ held ∨ guard ∈ acquires program := by
  induction program generalizing held with
  | nil => exact .inl mem
  | cons command rest ih =>
    cases command with
    | acquire lock mode =>
      rcases ih mem with before | later
      · rcases List.mem_cons.mp before with rfl | old
        · exact .inr (by simp [acquires])
        · exact .inl old
      · exact .inr (List.mem_cons_of_mem _ later)
    | release lock => exact (ih mem).imp_left mem_drop

theorem split_of_mem_acquires {program : List (Command κ)} (mem : (lock, mode) ∈ acquires program) :
    ∃ past rest, program = past ++ .acquire lock mode :: rest ∧ (lock, mode) ∉ acquires past := by
  induction program with
  | nil => cases mem
  | cons command rest ih =>
    by_cases here : command = .acquire lock mode
    · exact ⟨[], rest, by rw [here]; rfl, by simp [acquires]⟩
    · have later : (lock, mode) ∈ acquires rest := by
        cases command with
        | acquire other kind =>
          simp only [acquires, List.filterMap_cons, List.mem_cons, Prod.mk.injEq] at mem
          rcases mem with ⟨rfl, rfl⟩ | later
          · exact absurd rfl here
          · exact later
        | release other => exact mem
      obtain ⟨past, rest', split, first⟩ := ih later
      refine ⟨command :: past, rest', by rw [split]; rfl, ?_⟩
      cases command with
      | acquire other kind =>
        simp only [acquires, List.filterMap_cons, List.mem_cons, not_or]
        refine ⟨?_, first⟩
        intro same
        cases same
        exact here rfl
      | release other => exact first

/-- A part of a program that leaves nothing held, with what it acquires, and asks for while it
holds something. -/
structure Block (nested : κ × Mode → κ × Mode → Prop) (taken : κ × Mode → Prop)
    (program : List (Command κ)) : Prop where
  closed : heldFrom [] program = []
  nested : ∀ pair ∈ nests [] program, nested pair.1 pair.2
  taken : ∀ asked ∈ acquires program, taken asked

section Blocks

variable {nested : κ × Mode → κ × Mode → Prop} {taken : κ × Mode → Prop}

theorem Block.nil : Block nested taken [] :=
  ⟨rfl, by simp [nests], by simp [acquires]⟩

theorem Block.append {first second : List (Command κ)} (one : Block nested taken first)
    (two : Block nested taken second) : Block nested taken (first ++ second) where
  closed := by rw [heldFrom_append, one.closed, two.closed]
  nested pair isPair := by
    rw [nests_append, one.closed, List.mem_append] at isPair
    exact isPair.elim (one.nested pair) (two.nested pair)
  taken asked isAsked := by
    rw [acquires_append, List.mem_append] at isAsked
    exact isAsked.elim (one.taken asked) (two.taken asked)

end Blocks

/-! ### Where the tasks of a run are -/

/-- The task is at some place in its program, or has ended. -/
def At (program : List (Command κ)) (task : LockTask κ) : Prop :=
  (∃ past, program = past ++ task.rest ∧ task.held = heldFrom [] past) ∨ task = .start []

def Follow (programs : List (List (Command κ))) (tasks : List (LockTask κ)) : Prop :=
  ∀ (i : Nat) task, tasks[i]? = some task →
    ∃ program, programs[i]? = some program ∧ At program task

theorem follow_start (programs : List (List (Command κ))) :
    Follow programs (programs.map LockTask.start) := by
  intro i task isTask
  rw [List.getElem?_map, Option.map_eq_some_iff] at isTask
  obtain ⟨program, found, rfl⟩ := isTask
  exact ⟨program, found, .inl ⟨[], rfl, rfl⟩⟩

theorem follow_set (follow : Follow programs tasks)
    (there : ∀ program, programs[i]? = some program → At program task) :
    Follow programs (tasks.set i task) := by
  intro j found isTask
  by_cases same : i = j
  · subst same
    rw [List.getElem?_set] at isTask
    split at isTask
    next =>
      split at isTask
      next within =>
        obtain ⟨program, isProgram, -⟩ := follow i tasks[i] (List.getElem?_eq_getElem within)
        cases isTask
        exact ⟨program, isProgram, there program isProgram⟩
      next => cases isTask
    next different => exact absurd rfl different
  · rw [List.getElem?_set_ne same] at isTask
    exact follow j found isTask

theorem follow_step (event : Event)
    (follow : Follow programs tasks) : Follow programs (step tasks event) := by
  cases event with
  | stop i => exact follow_set follow fun _ _ => .inr rfl
  | turn i =>
    simp only [step, turn]
    split
    next => exact follow
    next task isTask =>
      obtain ⟨program, isProgram, place⟩ := follow i task isTask
      -- the place after the next command, which the task has read off its program
      have moves : ∀ command rest held waiting, task.rest = command :: rest →
          (∀ past, task.held = heldFrom [] past → held = heldFrom [] (past ++ [command])) →
          Follow programs (tasks.set i ⟨held, waiting, rest⟩) := by
        intro command rest held waiting next holds
        refine follow_set follow ?_
        intro program' isProgram'
        rw [isProgram] at isProgram'
        cases isProgram'
        rcases place with ⟨past, split, held'⟩ | rfl
        · exact .inl ⟨past ++ [command], by rw [split, next]; simp, holds past held'⟩
        · cases next
      split
      next => exact follow
      next lock rest next =>
        refine moves _ rest _ false next ?_
        intro past held
        rw [heldFrom_append, ← held]
        rfl
      next lock mode rest next =>
        split
        next =>
          split
          next =>
            refine moves _ rest _ false next ?_
            intro past held
            rw [heldFrom_append, ← held]
            rfl
          next => exact follow
        next =>
          refine follow_set follow ?_
          intro program' isProgram'
          rw [isProgram] at isProgram'
          cases isProgram'
          rcases place with ⟨past, split, held⟩ | rfl
          · exact .inl ⟨past, split, held⟩
          · cases next

theorem follow_run (programs : List (List (Command κ))) (events : List Event) :
    Follow programs (run step (programs.map LockTask.start) events) :=
  run_invariant step (fun _ _ => True) (Follow programs)
    (fun _ event follow _ => follow_step event follow) _ _
    (follow_start programs) (guarded_of_forall _ _ (fun _ _ => trivial) _ _)

/-! ### Excluding deadlocks -/

omit [DecidableEq κ] in
theorem LockTask.rest_of_asks {task : LockTask κ} {lock : κ} {mode : Mode}
    (asks : task.asks = some (lock, mode)) : ∃ rest, task.rest = .acquire lock mode :: rest := by
  unfold LockTask.asks at asks
  split at asks
  next rest _ next =>
    cases asks
    exact ⟨rest, next⟩
  next => cases asks

theorem At.split_of_asks {program : List (Command κ)}
    (place : At program task) (asks : task.asks = some (lock, mode)) :
    ∃ past rest, program = past ++ .acquire lock mode :: rest ∧ task.held = heldFrom [] past := by
  obtain ⟨rest, next⟩ := task.rest_of_asks asks
  rcases place with ⟨past, split, held⟩ | rfl
  · exact ⟨past, rest, next ▸ split, held⟩
  · cases next

theorem At.mem_acquires {program : List (Command κ)} (place : At program task)
    (asks : task.asks = some (lock, mode)) : (lock, mode) ∈ acquires program := by
  obtain ⟨past, rest, rfl, -⟩ := place.split_of_asks asks
  simp [acquires]

/-- A task that keeps another one waiting and waits itself, holds what the other one needs while
it asks for something else, or asks for the same lock as a writer. -/
theorem At.stops_cases {program : List (Command κ)} {other : κ}
    {kind : Mode} (place : At program task) (asks : task.asks = some (other, kind))
    (stops : task.stops lock mode = true) :
    (∃ held, held.conflicts mode = true ∧ ((lock, held), (other, kind)) ∈ nests [] program) ∨
      (mode = .read ∧ other = lock ∧ kind = .write) := by
  simp only [LockTask.stops, Bool.or_eq_true, List.any_eq_true, Bool.and_eq_true, beq_iff_eq] at stops
  rcases stops with ⟨⟨_, held⟩, holds, rfl, conflict⟩ | ⟨reads, writer⟩
  · obtain ⟨past, rest, split, isHeld⟩ := place.split_of_asks asks
    rw [isHeld] at holds
    exact .inl ⟨held, conflict, mem_nests_of_split split holds⟩
  · rw [asks] at writer
    cases writer
    exact .inr ⟨reads, rfl, rfl⟩

/-- Readers are kept waiting by writers only. -/
theorem At.write_of_stops_read {program : List (Command κ)} (place : At program task)
    (stops : task.stops lock .read = true) : (lock, .write) ∈ acquires program := by
  simp only [LockTask.stops, Bool.or_eq_true, List.any_eq_true, Bool.and_eq_true, beq_iff_eq] at stops
  rcases stops with ⟨⟨_, held⟩, holds, rfl, conflict⟩ | ⟨-, writer⟩
  · cases held with
    | read => cases conflict
    | write =>
      rcases place with ⟨past, rfl, isHeld⟩ | rfl
      · rw [isHeld] at holds
        rw [acquires_append]
        exact List.mem_append_left _
          ((mem_acquires_of_mem_heldFrom holds).resolve_left (List.not_mem_nil))
      · cases holds
  · exact place.mem_acquires writer

/-- **Rank.** If along each chain of waiting tasks what is asked for only goes up, and not without
bound, there is no deadlock. -/
theorem not_deadlocked_of_rank {rank : κ × Mode → Nat} {top : Nat}
    (bounded : ∀ asked, rank asked ≤ top)
    (upward : ∀ (i j k : Nat) task other third asked next, tasks[i]? = some task →
      tasks[j]? = some other → tasks[k]? = some third → task.asks = some asked →
      other.asks = some next → task.WaitsFor other → other.WaitsFor third →
      rank asked < rank next) : ¬ Deadlocked tasks := by
  rintro ⟨stuck, ⟨first, isStuck⟩, waits⟩
  -- the tasks of the set ask for something of every rank
  have climbs : ∀ height, ∃ i ∈ stuck, ∃ task asked, tasks[i]? = some task ∧
      task.asks = some asked ∧ height ≤ rank asked := by
    intro height
    induction height with
    | zero =>
      obtain ⟨j, -, task, other, isTask, -, lock, mode, asks, -⟩ := waits first isStuck
      exact ⟨first, isStuck, task, _, isTask, asks, Nat.zero_le _⟩
    | succ height ih =>
      obtain ⟨i, inSet, task, asked, isTask, asks, high⟩ := ih
      obtain ⟨j, nextInSet, task', other, isTask', isOther, waitsFor⟩ := waits i inSet
      rw [isTask] at isTask'
      cases isTask'
      obtain ⟨k, -, other', third, isOther', isThird, nextWaits⟩ := waits j nextInSet
      rw [isOther] at isOther'
      cases isOther'
      obtain ⟨lock, mode, nextAsks, -⟩ := id nextWaits
      have up := upward i j k task other third asked _ isTask isOther isThird asks nextAsks waitsFor
        nextWaits
      exact ⟨j, nextInSet, other, _, isOther, nextAsks, by omega⟩
  obtain ⟨-, -, -, asked, -, -, high⟩ := climbs (top + 1)
  have := bounded asked
  omega

/-! ### Bringing deadlocks about -/

def Reaches (tasks after : List (LockTask κ)) : Prop :=
  ∃ events, run step tasks events = after

theorem Reaches.refl (tasks : List (LockTask κ)) : Reaches tasks tasks := ⟨[], rfl⟩

theorem Reaches.trans {middle after : List (LockTask κ)} (first : Reaches tasks middle)
    (second : Reaches middle after) : Reaches tasks after := by
  obtain ⟨events, rfl⟩ := first
  obtain ⟨later, rfl⟩ := second
  exact ⟨events ++ later, run_append _ _ _ _⟩

theorem reaches_turn (tasks : List (LockTask κ)) (i : Nat) : Reaches tasks (turn tasks i) :=
  ⟨[.turn i], rfl⟩

theorem reaches_ask {held : List (κ × Mode)}
    (isTask : tasks[i]? = some ⟨held, false, .acquire lock mode :: rest⟩) :
    Reaches tasks (tasks.set i ⟨held, true, .acquire lock mode :: rest⟩) := by
  have turned := reaches_turn tasks i
  simpa [turn, isTask] using turned

theorem reaches_grant {held : List (κ × Mode)}
    (isTask : tasks[i]? = some ⟨held, false, .acquire lock mode :: rest⟩)
    (own : ∀ guard ∈ held, guard.1 = lock → guard.2.conflicts mode = false)
    (others : ∀ (j : Nat) other, j ≠ i → tasks[j]? = some other → other.stops lock mode = false) :
    Reaches tasks (tasks.set i ⟨(lock, mode) :: held, false, rest⟩) := by
  refine (reaches_ask isTask).trans ?_
  have within := (List.getElem?_eq_some_iff.mp isTask).1
  have granted : free (tasks.set i ⟨held, true, .acquire lock mode :: rest⟩) lock mode = true := by
    simp only [free, Bool.not_eq_true', List.any_eq_false]
    intro other isOther
    obtain ⟨j, bound, found⟩ := List.mem_iff_getElem.mp isOther
    have found := List.getElem?_eq_some_iff.mpr ⟨bound, found⟩
    by_cases same : j = i
    · subst same
      rw [List.getElem?_set_self within] at found
      cases found
      -- its own guards do not conflict, and what it waits for is this lock
      simp only [LockTask.stops, LockTask.asks, Bool.or_eq_true, List.any_eq_true, not_or,
        not_exists, not_and, Bool.and_eq_true, beq_iff_eq, Option.some.injEq, Prod.mk.injEq, true_and]
      refine ⟨?_, by rintro rfl; simp⟩
      intro guard isGuard onLock
      simp [own guard isGuard onLock]
    · rw [List.getElem?_set_ne (Ne.symm same)] at found
      simp [others j other same found]
  have turned := reaches_turn (tasks.set i ⟨held, true, .acquire lock mode :: rest⟩) i
  simpa [turn, List.getElem?_set_self within, granted] using turned

/-- A task that nobody disturbs runs on through its program. -/
theorem reaches_past {held : List (κ × Mode)}
    (isTask : tasks[i]? = some ⟨held, false, past ++ rest⟩)
    (own : ∀ pair ∈ nests held past, pair.1.1 = pair.2.1 → pair.1.2.conflicts pair.2.2 = false)
    (others : ∀ (j : Nat) other, j ≠ i → tasks[j]? = some other →
      ∀ asked ∈ acquires past, other.stops asked.1 asked.2 = false) :
    Reaches tasks (tasks.set i ⟨heldFrom held past, false, rest⟩) := by
  have within := (List.getElem?_eq_some_iff.mp isTask).1
  induction past generalizing held tasks with
  | nil =>
    have same : tasks.set i ⟨held, false, rest⟩ = tasks := by
      rw [List.nil_append] at isTask
      rw [← (List.getElem?_eq_some_iff.mp isTask).2, List.set_getElem_self]
    rw [heldFrom, same]
    exact .refl tasks
  | cons command past ih =>
    cases command with
    | acquire lock mode =>
      have granted := reaches_grant isTask
        (fun guard isGuard onLock => own (guard, (lock, mode))
          (List.mem_append_left _ (List.mem_map_of_mem isGuard)) onLock)
        fun j other different isOther => others j other different isOther (lock, mode)
          (by simp [acquires])
      refine granted.trans ?_
      have next := ih (List.getElem?_set_self within)
        (fun pair isPair => own pair (List.mem_append_right _ isPair))
        (fun j other different isOther asked isAsked => others j other different
          (by rwa [List.getElem?_set_ne (Ne.symm different)] at isOther) asked
          (List.mem_cons_of_mem _ isAsked))
        (by simpa using within)
      rwa [List.set_set] at next
    | release lock =>
      have released : Reaches tasks (tasks.set i ⟨drop lock held, false, past ++ rest⟩) := by
        have turned := reaches_turn tasks i
        simpa [turn, isTask] using turned
      refine released.trans ?_
      have next := ih (List.getElem?_set_self within) own
        (fun j other different isOther => others j other different
          (by rwa [List.getElem?_set_ne (Ne.symm different)] at isOther))
        (by simpa using within)
      rwa [List.set_set] at next

/-- A place in the program of a task where it asks for a lock. -/
structure Place (κ : Type) where
  task : Nat
  past : List (Command κ)
  lock : κ
  mode : Mode
  rest : List (Command κ)

namespace Place

def program (place : Place κ) : List (Command κ) :=
  place.past ++ .acquire place.lock place.mode :: place.rest

def held (place : Place κ) : List (κ × Mode) :=
  heldFrom [] place.past

/-- The task at the place, before or after it has asked for the lock. -/
def parked (place : Place κ) (waiting : Bool) : LockTask κ :=
  ⟨place.held, waiting, .acquire place.lock place.mode :: place.rest⟩

/-- The task can get to its place after another one has got to its own. -/
def After (later earlier : Place κ) : Prop :=
  later.task ≠ earlier.task ∧ ∀ guard ∈ earlier.held, ∀ asked ∈ acquires later.past,
    guard.1 = asked.1 → guard.2.conflicts asked.2 = false

/-- The task has no reason to wait for itself on the way. -/
def Orderly (place : Place κ) : Prop :=
  ∀ pair ∈ nests [] place.past, pair.1.1 = pair.2.1 → pair.1.2.conflicts pair.2.2 = false

/-- At their places, the first task waits for the second one. -/
def WaitsFor (place other : Place κ) : Prop :=
  (∃ guard ∈ other.held, guard.1 = place.lock ∧ guard.2.conflicts place.mode = true) ∨
    (place.mode = .read ∧ other.lock = place.lock ∧ other.mode = .write)

end Place

section Parking

variable {programs : List (List (Command κ))} {places : List (Place κ)}

/-- Tasks go to their places one after the other, the last one of the list first. -/
theorem reaches_places (ofProgram : ∀ place ∈ places, programs[place.task]? = some place.program)
    (orderly : ∀ place ∈ places, place.Orderly) (ordered : places.Pairwise Place.After) :
    ∃ tasks, Reaches (programs.map LockTask.start) tasks ∧
      (∀ place ∈ places, tasks[place.task]? = some (place.parked false)) ∧
      ∀ j : Nat, (∀ place ∈ places, place.task ≠ j) →
        tasks[j]? = (programs.map LockTask.start)[j]? := by
  induction places with
  | nil => exact ⟨_, .refl _, by simp, fun _ _ => rfl⟩
  | cons place earlier ih =>
    obtain ⟨after, ordered⟩ := List.pairwise_cons.mp ordered
    obtain ⟨tasks, reached, parked, others⟩ := ih
      (fun other isEarlier => ofProgram other (by simp [isEarlier]))
      (fun other isEarlier => orderly other (by simp [isEarlier])) ordered
    have atStart : tasks[place.task]? =
        some ⟨[], false, place.past ++ .acquire place.lock place.mode :: place.rest⟩ := by
      rw [others place.task fun other isEarlier => (after other isEarlier).1.symm,
        List.getElem?_map, ofProgram place (by simp)]
      rfl
    have goes := reaches_past atStart (orderly place (by simp)) (by
      intro j other different isOther asked isAsked
      -- the other tasks are at their places, or have not begun
      by_cases isPlace : ∃ earlierPlace ∈ earlier, earlierPlace.task = j
      · obtain ⟨earlierPlace, isEarlier, rfl⟩ := isPlace
        rw [parked earlierPlace isEarlier] at isOther
        cases isOther
        simp only [LockTask.stops, Place.parked, LockTask.asks, Bool.or_eq_false_iff,
          List.any_eq_false, Bool.and_eq_true, beq_iff_eq, not_and, Bool.not_eq_true]
        exact ⟨fun guard isGuard => (after earlierPlace isEarlier).2 guard isGuard asked isAsked,
          by simp⟩
      · rw [others j fun earlierPlace isEarlier same => isPlace ⟨earlierPlace, isEarlier, same⟩,
          List.getElem?_map, Option.map_eq_some_iff] at isOther
        obtain ⟨program, -, rfl⟩ := isOther
        simp [LockTask.stops, LockTask.start, LockTask.asks])
    have within := (List.getElem?_eq_some_iff.mp atStart).1
    refine ⟨_, reached.trans goes, ?_, ?_⟩
    · intro other isPlace
      rcases List.mem_cons.mp isPlace with rfl | isEarlier
      · rw [List.getElem?_set_self within]
        rfl
      · rw [List.getElem?_set_ne (after other isEarlier).1]
        exact parked other isEarlier
    · intro j notPlace
      rw [List.getElem?_set_ne (notPlace place (by simp))]
      exact others j fun other isEarlier => notPlace other (by simp [isEarlier])

/-- At their places, all of them ask. -/
theorem reaches_waiting {tasks : List (LockTask κ)}
    (distinct : places.Pairwise fun one other => one.task ≠ other.task)
    (parked : ∀ place ∈ places, tasks[place.task]? = some (place.parked false)) :
    ∃ after, Reaches tasks after ∧
      (∀ place ∈ places, after[place.task]? = some (place.parked true)) ∧
      ∀ j : Nat, (∀ place ∈ places, place.task ≠ j) → after[j]? = tasks[j]? := by
  induction places generalizing tasks with
  | nil => exact ⟨tasks, .refl tasks, by simp, fun _ _ => rfl⟩
  | cons place others ih =>
    obtain ⟨different, distinct⟩ := List.pairwise_cons.mp distinct
    have isParked := parked place (by simp)
    have within := (List.getElem?_eq_some_iff.mp isParked).1
    have stillParked : ∀ other ∈ others,
        (tasks.set place.task (place.parked true))[other.task]? = some (other.parked false) := by
      intro other isOther
      rw [List.getElem?_set_ne (different other isOther)]
      exact parked other (by simp [isOther])
    obtain ⟨after, reached, waiting, same⟩ := ih distinct stillParked
    refine ⟨after, (reaches_ask isParked).trans reached, ?_, ?_⟩
    · intro other isPlace
      rcases List.mem_cons.mp isPlace with rfl | isOther
      · rw [same other.task fun later isLater => (different later isLater).symm,
          List.getElem?_set_self within]
      · exact waiting other isOther
    · intro j notPlace
      rw [same j fun other isOther => notPlace other (by simp [isOther]),
        List.getElem?_set_ne (notPlace place (by simp))]

/-- **Circle.** Tasks that can get to places where each waits for another one of them, reach a
deadlock. -/
theorem deadlocked_of_places
    (ofProgram : ∀ place ∈ places, programs[place.task]? = some place.program)
    (orderly : ∀ place ∈ places, place.Orderly) (ordered : places.Pairwise Place.After)
    (some : places ≠ []) (circle : ∀ place ∈ places, ∃ other ∈ places, place.WaitsFor other) :
    ∃ events, Deadlocked (run step (programs.map LockTask.start) events) := by
  obtain ⟨tasks, reached, parked, -⟩ := reaches_places ofProgram orderly ordered
  obtain ⟨after, asked, waiting, -⟩ :=
    reaches_waiting (ordered.imp fun after => after.1) parked
  obtain ⟨events, rfl⟩ := reached.trans asked
  obtain ⟨first, isFirst⟩ := List.exists_mem_of_ne_nil places some
  refine ⟨events, { i | ∃ place ∈ places, place.task = i }, ⟨_, first, isFirst, rfl⟩, ?_⟩
  rintro _ ⟨place, isPlace, rfl⟩
  obtain ⟨other, isOther, waits⟩ := circle place isPlace
  refine ⟨other.task, ⟨other, isOther, rfl⟩, _, _, waiting place isPlace, waiting other isOther,
    place.lock, place.mode, rfl, ?_⟩
  simp only [LockTask.stops, Bool.or_eq_true, List.any_eq_true, Bool.and_eq_true, beq_iff_eq]
  rcases waits with ⟨guard, isGuard, onLock, conflict⟩ | ⟨reads, sameLock, writes⟩
  · exact .inl ⟨guard, isGuard, onLock, conflict⟩
  · exact .inr ⟨reads, by rw [← sameLock, ← writes]; rfl⟩

end Parking

end Steps

end CoreCrypto.Library.RwLocks
