import DotaCollector.Jobs.LoopRows
import DotaCollector.Jobs.LostJobs

/-!
# The recovery of loop jobs

A loop job off the named queues has a row under its name whenever it is pending or in flight, so
that a tick of `ensure_loop_jobs` enqueues it exactly when it is neither. The next walk through the
leagues waits under another key, which such a tick does not look for.
-/

namespace DotaCollector
namespace Jobs

open JobQueue

/-- Every row is one of a loop job or of the walk, and what is missing stays so until it is
enqueued. -/
structure Looping (state : LoopState) : Prop where
  rows : ∀ id row, state.jobs.table.jobs id = some row → RowKind (state.requeued id) row
  listed : ∀ job ∈ state.missing, job.jobKey = some job.identifier ∧
    (job.identifier ∈ loops ∨ job.identifier = walkLeagues)
  distinct : (state.missing.map (·.identifier)).Nodup
  dead : ∀ job ∈ state.missing, job.identifier ∈ loops → ∀ id row,
    state.jobs.table.jobs id = some row → row.key = some job.identifier → row.alive = false

theorem looping_initial : Looping {} where
  rows _ _ found := by cases found
  listed _ member := by cases member
  distinct := List.nodup_nil
  dead _ member := by cases member

variable {env : Environment} {state after : LoopState} {id : Nat} {row : Row}

theorem alive_of_locked {progress : Progress} (holder : row.holder = some progress) :
    row.alive = true := by
  simp [Job.alive, holder]

/-- A step of a row which is pending or in flight. -/
theorem Looping.change (value : Option Row) (looping : Looping state)
    (found : state.jobs.table.jobs id = some row) (alive : row.alive = true)
    (jobs : after.jobs.table.jobs = Function.update state.jobs.table.jobs id value)
    (keeps : ∀ new, value = some new → new.key = row.key ∧ RowKind (after.requeued id) new)
    (requeued : ∀ other, other ≠ id → after.requeued other = state.requeued other)
    (missing : after.missing = state.missing) : Looping after where
  rows other another present := by
    rw [jobs] at present
    rcases eq_or_ne other id with rfl | ne
    · rw [Function.update_self] at present
      exact (keeps another present).2
    · rw [Function.update_of_ne ne] at present
      rw [requeued other ne]
      exact looping.rows other another present
  listed := missing ▸ looping.listed
  distinct := missing ▸ looping.distinct
  dead job member loop other another present key := by
    rw [missing] at member
    rw [jobs] at present
    rcases eq_or_ne other id with rfl | ne
    · rw [Function.update_self] at present
      rw [(keeps another present).1] at key
      have dead := looping.dead job member loop other row found key
      rw [alive] at dead
      cases dead
    · rw [Function.update_of_ne ne] at present
      exact looping.dead job member loop other another present key

/-- A job is added which is not missing any more. -/
theorem Looping.add {owner : Nat} {spec : JobSpec Json} (looping : Looping state)
    (added : state.jobs.add owner spec = some after.jobs)
    (new : ∀ requeued payload, Told spec payload.body →
      RowKind requeued { labelled owner spec with payload })
    (detached : ∀ id old, state.jobs.table.jobs id = some old → old.Bears spec.key →
      old.available = false → RowKind (after.requeued id) old.detach)
    (requeued : ∀ id, state.requeued id = true → after.requeued id = true)
    (missing : after.missing.Sublist state.missing)
    (done : ∀ job ∈ after.missing, job.identifier ∈ loops → spec.key ≠ some job.identifier) :
    Looping after := by
  obtain ⟨table, inserted, same⟩ := State.add_eq_some.mp added
  have jobs : after.jobs.table = table := by rw [← same]
  refine ⟨?_, fun job member => looping.listed job (missing.subset member),
    looping.distinct.sublist (missing.map _), ?_⟩
  · intro id row present
    rw [jobs] at present
    rcases Table.of_addJob inserted present with
      ⟨asked, payload⟩ | same | ⟨old, here, spent, bears, rfl⟩
    · have told : Told spec row.payload.body := by
        rcases payload with plain | ⟨old, -, merged⟩
        · exact .inl (congrArg Cargo.body plain)
        · exact .inr ⟨old.payload.body, congrArg Cargo.body merged⟩
      rw [asked]
      exact (new (after.requeued id) row.payload told).at row.runAt
    · exact (looping.rows id row same).mono (requeued id)
    · exact detached id old here bears spent
  · intro job member loop id row present key
    rw [jobs] at present
    rcases Table.of_addJob inserted present with ⟨asked, -⟩ | same | ⟨old, -, -, -, rfl⟩
    · rw [asked] at key
      exact (done job member loop key).elim
    · exact looping.dead job (missing.subset member) loop id row same key
    · cases key

/-! ## The walk -/

theorem RowKind.detach_by_walk {requeued : Bool} {spec : JobSpec Json} (kind : RowKind requeued row)
    (walk : WalkSpec spec) (bears : row.Bears spec.key) : RowKind requeued row.detach := by
  refine kind.detach fun listed _ => ?_
  rcases kind with loop | other
  · exfalso
    rcases loop.key with named | ⟨bare, -⟩
    · exact (walk.key_ne listed).1 (bears.2.symm.trans named)
    · exact bears.1 (bears.2.symm.trans bare)
  · exact (other.walk.not_listed listed).elim

/-- What the walk adds takes no key from a loop job. -/
theorem Looping.add_walk {owner : Nat} {spec : JobSpec Json} (looping : Looping state)
    (walk : WalkSpec spec) (added : state.jobs.add owner spec = some after.jobs)
    (requeued : ∀ id, state.requeued id = true → after.requeued id = true)
    (missing : after.missing.Sublist state.missing) : Looping after := by
  refine looping.add added (fun _ _ told => walk.rowKind owner told) ?_ requeued missing ?_
  · intro id old found bears running
    exact ((looping.rows id old found).mono (requeued id)).detach_by_walk walk bears
  · intro job member loop
    exact (walk.key_ne loop).1

/-! ## The steps of the workers -/

theorem Looping.begin (looping : Looping state) (found : state.jobs.table.jobs id = some row)
    (left : row.attempts < row.maxAttempts)
    (jobs : after.jobs = state.jobs.begin id row)
    (requeued : after.requeued = Function.update state.requeued id false)
    (missing : after.missing = state.missing) : Looping after := by
  have alive : row.alive = true := by simp [Job.alive, left]
  refine looping.change _ found alive (by rw [jobs, State.begin_jobs found]) ?_ ?_ missing
  · intro new present
    obtain rfl := Option.some_inj.mp present
    refine ⟨rfl, ?_⟩
    rw [requeued, Function.update_self]
    exact (looping.rows id row found).lock left _
  · intro other ne
    rw [requeued, Function.update_of_ne ne]

/-- A worker of a locked row moves on. -/
theorem Looping.hold {progress : Progress} {holder : Option Progress} (looping : Looping state)
    (found : state.jobs.table.jobs id = some row) (held : row.holder = some progress)
    (kind : RowKind (state.requeued id) { row with holder }) {jobs : State}
    (changed : jobs.table.jobs =
      Function.update state.jobs.table.jobs id (some { row with holder })) :
    Looping { state with jobs } := by
  refine looping.change _ found (alive_of_locked held) changed ?_ (fun _ _ => rfl) rfl
  intro new present
  obtain rfl := Option.some_inj.mp present
  exact ⟨rfl, kind⟩

theorem Looping.job {event : Event} {jobs : State} (looping : Looping state)
    (enqueues : ∀ owner input, event ≠ .enqueue owner input) (begins : ∀ id, event ≠ .begin id)
    (step : next env state.jobs event = some jobs) : Looping { state with jobs } := by
  have idle {id : Nat} {row : Row} (holder : Progress) (past : holder.past = true)
      (found : state.jobs.table.jobs id = some row) :
      RowKind (state.requeued id) { row with holder := some holder } :=
    (looping.rows id row found).hold fun _ same => Option.some_inj.mp same ▸ past
  have free {id : Nat} {row : Row} (found : state.jobs.table.jobs id = some row) :
      RowKind (state.requeued id) { row with holder := none } := by
    refine (looping.rows id row found).hold fun _ same => ?_
    cases same
  cases moves_of_next step with
  | tick ms =>
      exact ⟨looping.rows, looping.listed, looping.distinct, looping.dead⟩
  | @enqueue owner input _ _ => exact (enqueues owner input rfl).elim
  | @begin id => exact (begins id rfl).elim
  | succeed found holder =>
      exact looping.hold found holder (idle .closing rfl found) (State.hold_jobs _ found)
  | throw error found holder atWork =>
      obtain ⟨progress, changed, past | ⟨spec, rfl, retry⟩⟩ := State.caught_jobs found
      · exact looping.hold found holder (idle progress past found) changed
      · exact looping.hold found holder ((looping.rows _ _ found).park holder atWork retry) changed
  | hop found holder waiter parsed =>
      exact looping.hold found holder ((looping.rows _ _ found).hop waiter parsed)
        (State.hold_jobs _ found)
  | @add id row progress spec jobs found holder adding added =>
      have held : Looping { state with jobs := state.jobs.hold id (some .closing) } :=
        looping.hold found holder (idle .closing rfl found) (State.hold_jobs _ found)
      have walk : WalkSpec spec := by
        rcases looping.rows id row found with loop | walk
        · have busy := loop.busy progress holder
          rw [adding] at busy
          cases busy
        · exact walk.adds progress spec holder adding
      exact held.add_walk walk added (fun _ set => set) (List.Sublist.refl _)
  | parkThrows found holder =>
      exact looping.hold found holder (idle .throwing rfl found) (State.hold_jobs _ found)
  | complete found holder =>
      refine looping.change none found (alive_of_locked holder) rfl ?_ (fun _ _ => rfl) rfl
      intro new present
      cases present
  | @fail id row delay found holder =>
      refine looping.change (some { row with holder := none, runAt := state.jobs.clock + delay })
        found (alive_of_locked holder) ?_ ?_ (fun _ _ => rfl) rfl
      · dsimp only
        rw [Table.modify_jobs found]
      · intro new present
        obtain rfl := Option.some_inj.mp present
        exact ⟨rfl, (free found).at (state.jobs.clock + delay)⟩
  | crash found holder =>
      exact looping.hold found holder (idle .abandoned rfl found) (State.hold_jobs _ found)
  | release found holder =>
      exact looping.hold found holder (free found) (State.hold_jobs _ found)

/-! ## The requeues -/

theorem LoopState.running_eq_some :
    state.running id = some row ↔
      state.jobs.table.jobs id = some row ∧
        ∃ key attempts, row.holder = some (.running key attempts) := by
  unfold LoopState.running
  cases found : state.jobs.table.jobs id with
  | none => simp
  | some present =>
      dsimp only
      split
      · rename_i key attempts holder
        rw [Option.some_inj]
        constructor
        · rintro rfl
          exact ⟨rfl, key, attempts, holder⟩
        · exact And.left
      · rename_i other
        simp only [reduceCtorEq, Option.some_inj, false_iff]
        rintro ⟨rfl, key, attempts, holder⟩
        exact other key attempts holder

theorem LoopState.ticking_eq_some :
    state.ticking id = some row ↔
      state.running id = some row ∧ state.requeued id = false := by
  simp [LoopState.ticking, Option.filter_eq_some_iff]

/-- Until it has enqueued the next one, the tick on a row goes under the name of its job. -/
theorem Looping.key_of_ticking (looping : Looping state) (ticking : state.ticking id = some row)
    (listed : row.identifier ∈ loops) :
    state.jobs.table.jobs id = some row ∧ row.key = some row.identifier ∧ row.alive = true := by
  obtain ⟨running, early⟩ := LoopState.ticking_eq_some.mp ticking
  obtain ⟨found, key, attempts, holder⟩ := LoopState.running_eq_some.mp running
  refine ⟨found, ?_, alive_of_locked holder⟩
  have kind := looping.rows id row found
  rw [early] at kind
  rcases kind with loop | walk
  · exact loop.key_of_ticking holder
  · exact (walk.walk.not_listed listed).elim

/-- What is enqueued for a loop job is a row of it. -/
theorem rowKind_loop {requeued : Bool} {identifier : String} {runAt : Nat}
    {maxAttempts priority : ℚ} {payload : Cargo} (owner : Nat) (listed : identifier ∈ loops)
    (told : Told
      { identifier
        payload := .object []
        queueName := none
        runAt
        maxAttempts
        key := some identifier
        mode := .replace
        priority } payload.body) :
    RowKind requeued
      { labelled owner
          { identifier
            payload := .object []
            queueName := none
            runAt
            maxAttempts
            key := some identifier
            mode := .replace
            priority } with payload } := by
  refine .inl ⟨listed, told.of_object rfl, rfl, ?_, .inl rfl⟩
  intro progress holder
  cases holder

theorem LoopState.requeue_eq_some {spec : JobSpec Json}
    (requeued : state.requeue id spec = some after) :
    state.jobs.add 0 spec = some after.jobs ∧
      after.requeued = Function.update state.requeued id true ∧
      after.recoveries = state.recoveries := by
  obtain ⟨added, here, rfl⟩ := Option.map_eq_some_iff.mp requeued
  obtain ⟨jobs, inserted, rfl⟩ := Option.map_eq_some_iff.mp here
  exact ⟨inserted, rfl, rfl⟩

theorem Looping.requeue {delayMs : Nat} {spec : JobSpec Json} (looping : Looping state)
    (ticking : state.ticking id = some row)
    (spoken : nextTick row.identifier state.jobs.clock delayMs = some spec)
    (requeued : state.requeue id spec = some after) : Looping after := by
  obtain ⟨added, marks, recoveries⟩ := LoopState.requeue_eq_some requeued
  obtain ⟨listed, priority, runAt, rfl⟩ := nextTick_eq spoken
  obtain ⟨found, key, alive⟩ := looping.key_of_ticking ticking listed
  have missing : after.missing = state.missing := congrArg List.flatten recoveries
  refine looping.add added (fun _ _ told => rowKind_loop 0 listed told) ?_ ?_
    (missing ▸ List.Sublist.refl _) ?_
  · intro other old present bears _
    have same : other = id := by
      refine state.jobs.table.eq_of_bears found ⟨bears.1, ?_⟩ present bears
      rw [key]
      rfl
    subst same
    refine ((looping.rows other old present).mono fun _ => ?_).detach fun _ _ => ?_
    all_goals
      rw [marks]
      exact Function.update_self ..
  · intro other set
    rw [marks]
    rcases eq_or_ne other id with rfl | ne
    · exact Function.update_self ..
    · exact (Function.update_of_ne ne ..).trans set
  · intro job member loop same
    rw [missing] at member
    have dead := looping.dead job member loop id row found (key.trans same)
    rw [alive] at dead
    cases dead

theorem Looping.requeueWalk {leagueId : Option Int} {detailsLimit : Int} {delayMs : Nat}
    (looping : Looping state)
    (requeued : state.requeue id
      (scheduleNextWalk state.jobs.clock leagueId detailsLimit delayMs) = some after) :
    Looping after := by
  obtain ⟨added, marks, recoveries⟩ := LoopState.requeue_eq_some requeued
  have walk : WalkSpec (scheduleNextWalk state.jobs.clock leagueId detailsLimit delayMs) :=
    walkSpec_enqueueJob rfl rfl (by decide) (.inr rfl)
  have missing : after.missing = state.missing := congrArg List.flatten recoveries
  refine looping.add_walk walk added ?_ (missing ▸ List.Sublist.refl _)
  intro other set
  rw [marks]
  rcases eq_or_ne other id with rfl | ne
  · exact Function.update_self ..
  · exact (Function.update_of_ne ne ..).trans set

/-! ## The ticks of `ensure_loop_jobs` -/

theorem mem_missingLoopJobs {table : Table Cargo Progress} {mode : WorkerMode} {job : StartupJob} :
    job ∈ missingLoopJobs table mode ↔
      job ∈ loopJobsFor mode ∧
        ∀ id row, table.jobs id = some row → row.key = some job.identifier → row.alive = false := by
  unfold missingLoopJobs loopJobsToRequeue
  rw [List.mem_filter]
  refine and_congr_right fun listed => ?_
  obtain ⟨keyed, -⟩ := mem_loopJobsFor listed
  have asked : job.identifier ∈ (loopJobsFor mode).filterMap (·.jobKey) :=
    List.mem_filterMap.mpr ⟨job, listed, keyed⟩
  simp only [keyed, Option.any_some, decide_not, Bool.not_eq_true', decide_eq_false_iff_not]
  unfold loadAliveLoopKeys
  rw [List.mem_filter, not_and]
  simp only [asked, true_implies, List.any_eq_true, not_exists, not_and, List.mem_range]
  constructor
  · intro none id row found key
    by_contra alive
    refine none id (table.free.lt found) ?_
    simpa [found, key] using alive
  · intro dead id _ borne
    obtain ⟨row, found, key, alive⟩ : ∃ row, table.jobs id = some row ∧
        row.key = some job.identifier ∧ row.alive = true := by
      simpa [Option.any_eq_true] using borne
    rw [dead id row found key] at alive
    cases alive

theorem Looping.load {mode : WorkerMode} (looping : Looping state) (apart : state.missing = []) :
    Looping
      { state with
        recoveries := state.recoveries ++ [missingLoopJobs state.jobs.table mode] } := by
  have missing : (state.recoveries ++ [missingLoopJobs state.jobs.table mode]).flatten =
      missingLoopJobs state.jobs.table mode := by
    rw [List.flatten_append, show state.recoveries.flatten = [] from apart]
    simp
  refine ⟨looping.rows, ?_, ?_, ?_⟩
  all_goals
    unfold LoopState.missing
    dsimp only
    rw [missing]
  · intro job member
    exact mem_loopJobsFor (mem_missingLoopJobs.mp member).1
  · exact (nodup_loopJobsFor mode).sublist ((List.filter_sublist).map _)
  · intro job member _
    exact (mem_missingLoopJobs.mp member).2

/-- One of several lists, among the entries of them all. -/
theorem flatten_set {Entry : Type*} {lists : List (List Entry)} {index : Nat} {list : List Entry}
    (found : lists[index]? = some list) :
    ∃ front back, lists.flatten = front ++ (list ++ back) ∧
      ∀ other, (lists.set index other).flatten = front ++ (other ++ back) := by
  induction lists generalizing index with
  | nil => cases found
  | cons first lists ih =>
      cases index with
      | zero =>
          rw [List.getElem?_cons_zero, Option.some_inj] at found
          subst found
          exact ⟨[], lists.flatten, rfl, fun _ => rfl⟩
      | succ index =>
          rw [List.getElem?_cons_succ] at found
          obtain ⟨front, back, whole, changed⟩ := ih found
          refine ⟨first ++ front, back, ?_, fun other => ?_⟩
          · rw [List.flatten_cons, whole, List.append_assoc]
          · rw [List.set_cons_succ, List.flatten_cons, changed, List.append_assoc]

theorem Looping.stop {tick : Nat} (looping : Looping state) :
    Looping { state with recoveries := state.recoveries.set tick [] } := by
  have sublist : ((state.recoveries.set tick []).flatten).Sublist state.recoveries.flatten := by
    cases found : state.recoveries[tick]? with
    | none => rw [List.set_eq_of_length_le (List.getElem?_eq_none_iff.mp found)]
    | some list =>
        obtain ⟨front, back, whole, changed⟩ := flatten_set found
        rw [whole, changed]
        exact ((List.nil_sublist list).append_right back).append_left front
  refine ⟨looping.rows, ?_, ?_, ?_⟩
  · intro job member
    exact looping.listed job (sublist.subset member)
  · exact looping.distinct.sublist (sublist.map _)
  · intro job member
    exact looping.dead job (sublist.subset member)

theorem recover_eq_some {tick : Nat} (step : nextLoop env state (.recover tick) = some after) :
    ∃ job missing, state.recoveries[tick]? = some (job :: missing) ∧
      state.jobs.add 0 (recoveredJob state.jobs.clock job) = some after.jobs ∧
      after.requeued = state.requeued ∧
      after.recoveries = state.recoveries.set tick missing := by
  unfold nextLoop at step
  dsimp only at step
  split at step
  · rename_i job missing found
    obtain ⟨added, here, rfl⟩ := Option.map_eq_some_iff.mp step
    obtain ⟨jobs, inserted, rfl⟩ := Option.map_eq_some_iff.mp here
    exact ⟨job, missing, found, inserted, rfl, rfl⟩
  · cases step

/-- A tick enqueues the first of the jobs which it has found missing. -/
theorem Looping.recover {tick : Nat} {job : StartupJob} {missing : List StartupJob}
    (looping : Looping state) (found : state.recoveries[tick]? = some (job :: missing))
    (added : state.jobs.add 0 (recoveredJob state.jobs.clock job) = some after.jobs)
    (marks : after.requeued = state.requeued)
    (recoveries : after.recoveries = state.recoveries.set tick missing) : Looping after := by
  obtain ⟨front, back, whole, changed⟩ := flatten_set found
  have distinct := looping.distinct
  have member : job ∈ state.missing := by
    unfold LoopState.missing
    rw [whole]
    simp
  have sublist : after.missing.Sublist state.missing := by
    unfold LoopState.missing
    rw [recoveries, whole, changed]
    exact (((List.sublist_cons_self job missing).append_right back).append_left front)
  have done : ∀ other ∈ after.missing, other.identifier ≠ job.identifier := by
    unfold LoopState.missing at distinct ⊢
    rw [whole] at distinct
    rw [recoveries, changed]
    intro other remains same
    have alone := ((List.perm_middle.map _).nodup_iff.mp distinct).notMem
    exact alone (List.mem_map.mpr ⟨other, remains, same⟩)
  obtain ⟨keyed, loop | walk⟩ := looping.listed job member
  · refine looping.add added ?_ ?_ (fun _ set => marks ▸ set) sublist ?_
    · intro requeued payload told
      unfold recoveredJob at told ⊢
      rw [keyed] at told ⊢
      exact rowKind_loop 0 loop told
    · -- The bearer of the key is dead, and nobody is at it.
      intro id old present bears _
      rw [marks]
      refine (looping.rows id old present).detach fun _ running => ?_
      have dead := looping.dead job member loop id old present (bears.2.trans keyed)
      obtain ⟨progress, holder⟩ := Option.ne_none_iff_exists'.mp running
      rw [alive_of_locked holder] at dead
      cases dead
    · intro other remains _ same
      exact done other remains (Option.some_inj.mp (same.symm.trans keyed))
  · have spoken : WalkSpec (recoveredJob state.jobs.clock job) := by
      unfold WalkSpec recoveredJob
      rw [walk]
      exact .walk (.inr (keyed.trans (congrArg some walk)))
    exact looping.add_walk spoken added (fun _ set => marks ▸ set) sublist

/-! ## Every run -/

/-- The ticks of `ensure_loop_jobs` do not overlap. -/
def TicksApart (state : LoopState) : LoopEvent → Prop
  | .load _ => state.missing = []
  | _ => True

instance (state : LoopState) (event : LoopEvent) : Decidable (TicksApart state event) := by
  unfold TicksApart
  split
  all_goals infer_instance

theorem Looping.next {event : LoopEvent} (looping : Looping state) (apart : TicksApart state event)
    (step : nextLoop env state event = some after) : Looping after := by
  cases event with
  | job event =>
      cases event with
      | enqueue owner input => cases step
      | begin id =>
          obtain ⟨jobs, moved, rfl⟩ := Option.map_eq_some_iff.mp step
          cases moves_of_next moved with
          | begin found waiting left due => exact looping.begin found left rfl rfl rfl
      | _ =>
          simp only [nextLoop] at step
          obtain ⟨jobs, moved, rfl⟩ := Option.map_eq_some_iff.mp step
          refine looping.job ?_ ?_ moved
          · intro owner input same
            cases same
          · intro id same
            cases same
  | requeue id delayMs =>
      obtain ⟨row, ticking, asked⟩ := Option.bind_eq_some_iff.mp step
      obtain ⟨spec, spoken, requeued⟩ := Option.bind_eq_some_iff.mp asked
      exact looping.requeue ticking spoken requeued
  | requeueWalk id leagueId detailsLimit delayMs =>
      obtain ⟨row, ticking, asked⟩ := Option.bind_eq_some_iff.mp step
      split at asked
      · exact looping.requeueWalk asked
      · cases asked
  | load mode =>
      cases step
      exact looping.load apart
  | recover tick =>
      obtain ⟨job, missing, found, added, marks, recoveries⟩ := recover_eq_some step
      exact looping.recover found added marks recoveries
  | stop tick =>
      cases step
      exact looping.stop

/-! ## Recovery neither drops nor doubles a loop -/

/-- A row of the job is pending or in flight, under its key or parked under the later one. -/
def LoopState.Occupied (state : LoopState) (identifier : String) : Prop :=
  ∃ id row, state.jobs.table.jobs id = some row ∧
    (row.key = some identifier ∨ row.key = some (scheduledJobKey identifier)) ∧ row.alive = true

/-- Off the named queues nothing is parked. -/
theorem Looping.not_occupied {identifier : String} (looping : Looping state)
    (listed : identifier ∈ loops) :
    ¬ state.Occupied identifier ↔
      ∀ id row, state.jobs.table.jobs id = some row → row.key = some identifier →
        row.alive = false := by
  constructor
  · intro vacant id row found key
    by_contra alive
    exact vacant ⟨id, row, found, .inl key, by simpa using alive⟩
  · rintro dead ⟨id, row, found, key | later, alive⟩
    · rw [dead id row found key] at alive
      cases alive
    · exact (looping.rows id row found).key_ne_later listed later

/-- What is enqueued with an attempt is pending. -/
theorem LoopState.occupied_of_added {spec : JobSpec Json} {identifier : String} {owner : Nat}
    (added : state.jobs.add owner spec = some after.jobs) (key : spec.key = some identifier)
    (mode : spec.mode = .replace) (attempts : 0 < spec.maxAttempts.num.toNat) :
    after.Occupied identifier := by
  obtain ⟨table, inserted, same⟩ := State.add_eq_some.mp added
  obtain ⟨id, row, placed⟩ := Table.exists_placed inserted (.inl (by simp [JobSpec.map, mode]))
  refine ⟨id, row, ?_, .inl ?_, ?_⟩
  · rw [← same]
    exact placed.found
  · rw [placed.asked]
    exact key
  · rw [placed.asked]
    simpa [Job.alive, JobSpec.job, JobSpec.map] using attempts

/-- A tick which enqueues nothing for the key of a row leaves the row as it is. -/
theorem Looping.recover_keeps {tick : Nat} {identifier : String} (looping : Looping state)
    (step : nextLoop env state (.recover tick) = some after) (listed : identifier ∈ loops)
    (found : state.jobs.table.jobs id = some row) (key : row.key = some identifier)
    (alive : row.alive = true) : after.jobs.table.jobs id = some row := by
  obtain ⟨job, missing, asked, added, -, -⟩ := recover_eq_some step
  obtain ⟨table, inserted, same⟩ := State.add_eq_some.mp added
  rw [← same]
  refine Table.addJob_keeps inserted found fun bears => ?_
  have member : job ∈ state.missing :=
    List.mem_flatten_of_mem (List.mem_of_getElem? asked) List.mem_cons_self
  obtain ⟨keyed, -⟩ := looping.listed job member
  have named : job.identifier = identifier :=
    Option.some_inj.mp (keyed.symm.trans (bears.2.symm.trans key))
  have dead := looping.dead job member (named ▸ listed) id row found (named ▸ key)
  rw [alive] at dead
  cases dead

/-- Two ticks with work to do are of different jobs, unless it is a live poll. -/
theorem Looping.working_unique {other : Nat} {another : Row} (looping : Looping state)
    (listed : row.identifier ∈ loops) (plain : row.identifier ∉ livePolls)
    (here : state.working id = some row) (there : state.working other = some another)
    (same : another.identifier = row.identifier) : other = id := by
  have ticking {id : Nat} {row : Row} (plain : row.identifier ∉ livePolls)
      (working : state.working id = some row) : state.ticking id = some row := by
    rw [LoopState.ticking_eq_some]
    simpa [LoopState.working, Option.filter_eq_some_iff, plain] using working
  obtain ⟨found, key, -⟩ := looping.key_of_ticking (ticking plain here) listed
  obtain ⟨also, borne, -⟩ :=
    looping.key_of_ticking (ticking (same ▸ plain) there) (same ▸ listed)
  refine state.jobs.table.eq_of_bears found ⟨Option.some_ne_none _, key⟩ also ⟨?_, ?_⟩
  · exact Option.some_ne_none _
  · rw [borne, same]

/-- Off the named queues, a tick finds a loop job missing exactly when no row of it is pending or in
flight; it enqueues the job then, into a table which still has no such row; and whatever such rows
there are stay as they are. No two ticks of the job have work to do at a time, unless it is a live
poll. -/
theorem loops_recovered (env : Environment) (events : List LoopEvent) (final : LoopState)
    (mode : WorkerMode) (job : StartupJob)
    (apart : Schedule.Throughout (nextLoop env) TicksApart {} events)
    (execution : Schedule.run (nextLoop env) {} events = some final)
    (listed : job ∈ loopJobsFor mode) (plain : job.identifier ≠ walkLeagues) :
    (∀ after, nextLoop env final (.load mode) = some after →
      ∃ missing, after.recoveries = final.recoveries ++ [missing] ∧
        (job ∈ missing ↔ ¬ final.Occupied job.identifier)) ∧
    (∀ tick missing after, final.recoveries[tick]? = some (job :: missing) →
      nextLoop env final (.recover tick) = some after →
      ¬ final.Occupied job.identifier ∧ after.Occupied job.identifier) ∧
    (∀ tick after, nextLoop env final (.recover tick) = some after →
      ∀ id row, final.jobs.table.jobs id = some row → row.key = some job.identifier →
        row.alive = true → after.jobs.table.jobs id = some row) ∧
    (job.identifier ∉ livePolls → ∀ id other row another, final.working id = some row →
      final.working other = some another → row.identifier = job.identifier →
      another.identifier = job.identifier → other = id) := by
  have looping : Looping final :=
    apart.run_invariant (fun held guard step => held.next guard step) looping_initial execution
  have loop := (mem_loopJobsFor listed).2.resolve_right plain
  refine ⟨?_, ?_, ?_, ?_⟩
  · intro after step
    cases step
    refine ⟨_, rfl, ?_⟩
    rw [mem_missingLoopJobs, looping.not_occupied loop]
    exact and_iff_right listed
  · intro tick missing after asked step
    have member : job ∈ final.missing :=
      List.mem_flatten_of_mem (List.mem_of_getElem? asked) List.mem_cons_self
    refine ⟨(looping.not_occupied loop).mpr (looping.dead job member loop), ?_⟩
    obtain ⟨other, rest, found, added, -, -⟩ := recover_eq_some step
    obtain ⟨rfl, rfl⟩ := List.cons_eq_cons.mp (Option.some_inj.mp (asked.symm.trans found))
    have attempts : 0 < (recoveredJob final.jobs.clock job).maxAttempts.num.toNat := by
      rw [recoveredJob_maxAttempts _ listed]
      decide
    exact LoopState.occupied_of_added added (mem_loopJobsFor listed).1 rfl attempts
  · intro tick after step id row found key alive
    exact looping.recover_keeps step loop found key alive
  · intro notLive id other row another here there named also
    exact looping.working_unique (named ▸ loop) (named ▸ notLive) here there (also.trans named.symm)

/-- A tick of the poll has failed, and waits to be tried again. -/
theorem recovered_behind_backoff : ∃ final after,
    Schedule.run (nextLoop objectsOnly) {}
      [.load .historical, .recover 0, .job (.begin 0), .job (.throw 0 .other),
        .job (.fail 0 60000), .recover 0, .recover 0] = some final ∧
    nextLoop objectsOnly final (.load .historical) = some after ∧
    final.Occupied "poll_finished_history" ∧
    ∃ missing, after.recoveries = final.recoveries ++ [missing] ∧
      loopJob "poll_finished_history" none ∉ missing := by
  have runs : ∃ final ∈ Schedule.run (nextLoop objectsOnly) {}
      [.load .historical, .recover 0, .job (.begin 0), .job (.throw 0 .other),
        .job (.fail 0 60000), .recover 0, .recover 0],
      ∃ row ∈ final.jobs.table.jobs 0, row.key = some "poll_finished_history" ∧
        row.alive = true := by
    decide +kernel
  obtain ⟨final, execution, row, found, key, alive⟩ := runs
  have occupied : final.Occupied "poll_finished_history" := ⟨0, row, found, .inl key, alive⟩
  obtain ⟨missing, recoveries, missed⟩ := (loops_recovered objectsOnly _ final .historical
    (loopJob "poll_finished_history" none) (by decide +kernel) execution (by decide) (by decide)).1
    _ rfl
  exact ⟨final, _, execution, rfl, occupied, missing, recoveries,
    fun member => missed.mp member occupied⟩

/-- A live poll works beside itself. The walk is found missing while the next one waits under the
later key. Ticks of `ensure_loop_jobs` which overlap enqueue a job twice, and it works beside
itself. -/
theorem recovered_otherwise :
    (∃ final ∈ Schedule.run (nextLoop objectsOnly) {}
      [.load .live, .recover 0, .job (.begin 0), .requeue 0 1000, .job (.tick 1000),
        .job (.begin 1)],
      (final.working 0).map Job.identifier = some "poll_live_games" ∧
        (final.working 1).map Job.identifier = some "poll_live_games") ∧
    (∃ final ∈ Schedule.run (nextLoop objectsOnly) {}
      [.load .historical, .recover 0, .recover 0, .recover 0, .job (.begin 2),
        .requeueWalk 2 none 100 1000, .job (.succeed 2), .job (.complete 2), .load .historical],
      loopJob "walk_league_history" none ∈ final.missing ∧
        ∃ row ∈ final.jobs.table.jobs 3, row.key = some (scheduledJobKey "walk_league_history") ∧
          row.alive = true) ∧
    ∃ final ∈ Schedule.run (nextLoop objectsOnly) {}
      [.load .historical, .load .historical, .recover 0, .job (.begin 0), .recover 1,
        .job (.begin 1)],
      (final.working 0).map Job.identifier = some "poll_finished_history" ∧
        (final.working 1).map Job.identifier = some "poll_finished_history" := by
  refine ⟨?_, ?_, ?_⟩
  all_goals decide +kernel

end Jobs
end DotaCollector
