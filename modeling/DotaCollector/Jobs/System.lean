import Mathlib.Logic.Function.Basic
import DotaCollector.Library.Schedule
import DotaCollector.Jobs.Enqueue

/-!
# Workers and the job table

Any number of workers take rows of the job table, run their tasks in the wrapper of `traced`, and
may stop at any point. Anybody may enqueue jobs in between. A row is tagged with the job from
which it descends, and the executions of each job are recorded, the newest first.
-/

namespace DotaCollector
namespace Jobs

open JobQueue

/-- The payload of a row, and the job from which the row descends; no code reads the owner. -/
structure Cargo where
  owner : Nat
  body : Json

/-- The overwritten row descends from the job that is added. -/
def Cargo.merge (old new : Cargo) : Cargo := ⟨new.owner, mergePayload old.body new.body⟩

/-- How far a worker has got with a row that it has locked. -/
inductive Progress where
  /-- The task is under way; the key and the attempts are those from when the row was locked. -/
  | running (key : Option String) (attempts : Nat)
  /-- A waiter is about to add its job. -/
  | hopping (key : Option String) (attempts : Nat) (spec : JobSpec Json)
  /-- The wrapper is about to park the next try. -/
  | parking (spec : JobSpec Json)
  /-- The wrapper has returned. -/
  | closing
  /-- The wrapper has thrown. -/
  | throwing
  /-- The worker is gone. -/
  | abandoned

abbrev Row := Job Cargo Progress

/-- A row as it is added. -/
def labelled (owner : Nat) (spec : JobSpec Json) : Row := (spec.map (Cargo.mk owner)).job

namespace Progress

/-- Inside the task, with what the wrapper knows of the row. -/
def atWork : Progress → Option (Option String × Nat)
  | running key attempts | hopping key attempts _ => some (key, attempts)
  | _ => none

/-- About to add a job. -/
def adding : Progress → Option (JobSpec Json)
  | hopping _ _ spec | parking spec => some spec
  | _ => none

/-- Behind the task and whatever it adds. -/
def past : Progress → Bool
  | closing | throwing | abandoned => true
  | _ => false

variable {progress : Progress}

theorem past_of_atWork {work : Option String × Nat} (atWork : progress.atWork = some work) :
    progress.past = false := by
  cases progress with
  | running | hopping | parking => rfl
  | _ => cases atWork

theorem past_of_adding {spec : JobSpec Json} (adding : progress.adding = some spec) :
    progress.past = false := by
  cases progress with
  | running | hopping | parking => rfl
  | _ => cases adding

end Progress

/-- One execution of a task, from the locking of its row. -/
structure Execution where
  began : Nat
  queueName : Option String
  key : Option String
  priority : ℚ
  payload : Json
  failedAt : Option Nat := none
  /-- The time for which the next try was parked. -/
  retryAt : Option Nat := none

structure State where
  table : Table Cargo Progress := .empty
  clock : Nat := 0
  executions : Nat → List Execution := fun _ => []
  /-- The task has returned, or its error was one to skip. -/
  settled : Nat → Bool := fun _ => false

/-- What the program gets from outside: the parser of the language. -/
structure Environment where
  parse : String → Option Json

inductive Event where
  | tick (ms : Nat)
  | enqueue (owner : Nat) (input : EnqueueJobInput)
  | begin (id : Nat)
  | succeed (id : Nat)
  | throw (id : Nat) (error : JobError)
  | hop (id : Nat)
  | add (id : Nat)
  | parkThrows (id : Nat)
  | complete (id : Nat)
  | fail (id delay : Nat)
  | crash (id : Nat)
  | release (id : Nat)

namespace State

def hold (state : State) (id : Nat) (holder : Option Progress) : State :=
  { state with table := state.table.modify id ({ · with holder }) fun _ _ => .inr rfl }

def settle (state : State) (owner : Nat) : State :=
  { state with settled := Function.update state.settled owner true }

def log (state : State) (owner : Nat) (executions : List Execution) : State :=
  { state with executions := Function.update state.executions owner executions }

/-- A worker locks a row. The run of a waiter is not an execution of the job. -/
def begin (state : State) (id : Nat) (row : Row) : State :=
  let locked : State :=
    { state with
      table := state.table.modify id (·.lock (.running row.key (row.attempts + 1)))
        fun _ _ => .inr rfl }
  if row.identifier = scheduledJob then locked
  else
    locked.log row.payload.owner
      ({ began := state.clock, queueName := row.queueName, key := row.key, priority := row.priority
         payload := row.payload.body } :: state.executions row.payload.owner)

def failed (clock : Nat) (retryAt : Option Nat) : List Execution → List Execution
  | [] => []
  | last :: earlier => { last with failedAt := some clock, retryAt } :: earlier

/-- Record that the task has failed. -/
def fail (state : State) (row : Row) (retryAt : Option Nat) : State :=
  if row.identifier = scheduledJob then state
  else state.log row.payload.owner (failed state.clock retryAt (state.executions row.payload.owner))

/-- The task has thrown, and the wrapper catches. -/
def caught (env : Environment) (state : State) (id : Nat) (row : Row) (key : Option String)
    (attempts : Nat) (error : JobError) : State :=
  match recover env.parse state.clock row.identifier error row.payload.body row.queueName key
      row.priority attempts with
  | .skip => (state.settle row.payload.owner).hold id (some .closing)
  | .giveUp => (state.fail row none).hold id (some .closing)
  | .retry spec => (state.fail row (some spec.runAt)).hold id (some (.parking spec))
  | .rethrow => (state.fail row none).hold id (some .throwing)

/-- A job is added on behalf of an owner, unless it is refused. -/
def add (state : State) (owner : Nat) (spec : JobSpec Json) : Option State :=
  (state.table.addJob Cargo.merge (spec.map (Cargo.mk owner))).map fun table =>
    { state with table }

end State

def next (env : Environment) (state : State) : Event → Option State
  | .tick ms => some { state with clock := state.clock + ms }
  | .enqueue owner input => state.add owner (enqueueJob state.clock input)
  | .begin id =>
      match state.table.jobs id with
      | some row =>
          if row.holder.isNone ∧ row.attempts < row.maxAttempts ∧ row.runAt ≤ state.clock then
            some (state.begin id row)
          else none
      | none => none
  | .succeed id =>
      match state.table.jobs id with
      | some row =>
          match row.holder with
          | some (.running _ _) =>
              if row.identifier = scheduledJob then none
              else some ((state.settle row.payload.owner).hold id (some .closing))
          | _ => none
      | none => none
  | .throw id error =>
      match state.table.jobs id with
      | some row =>
          (row.holder.bind Progress.atWork).map fun (key, attempts) =>
            state.caught env id row key attempts error
      | none => none
  | .hop id =>
      match state.table.jobs id with
      | some row =>
          match row.holder with
          | some (.running key attempts) =>
              if row.identifier = scheduledJob then
                (runScheduledJob state.clock row.payload.body).map fun spec =>
                  state.hold id (some (.hopping key attempts spec))
              else none
          | _ => none
      | none => none
  | .add id =>
      match state.table.jobs id with
      | some row =>
          (row.holder.bind Progress.adding).bind fun spec =>
            (state.hold id (some .closing)).add row.payload.owner spec
      | none => none
  | .parkThrows id =>
      match state.table.jobs id with
      | some row =>
          match row.holder with
          | some (.parking _) => some (state.hold id (some .throwing))
          | _ => none
      | none => none
  | .complete id =>
      match state.table.jobs id with
      | some row =>
          match row.holder with
          | some .closing => some { state with table := state.table.erase id }
          | _ => none
      | none => none
  | .fail id delay =>
      match state.table.jobs id with
      | some row =>
          match row.holder with
          | some .throwing =>
              some
                { state with
                  table := state.table.modify id
                    ({ · with holder := none, runAt := state.clock + delay }) fun _ _ => .inr rfl }
          | _ => none
      | none => none
  | .crash id =>
      match state.table.jobs id with
      | some row =>
          match row.holder with
          | none | some .abandoned => none
          | some _ => some (state.hold id (some .abandoned))
      | none => none
  | .release id =>
      match state.table.jobs id with
      | some row =>
          match row.holder with
          | some .abandoned => some (state.hold id none)
          | _ => none
      | none => none

/-- The steps, each with what it found. -/
inductive Moves (env : Environment) (state : State) : Event → State → Prop where
  | tick (ms : Nat) : Moves env state (.tick ms) { state with clock := state.clock + ms }
  | enqueue {owner : Nat} {input : EnqueueJobInput} {after : State}
      (added : state.add owner (enqueueJob state.clock input) = some after) :
      Moves env state (.enqueue owner input) after
  | begin {id : Nat} {row : Row} (found : state.table.jobs id = some row)
      (waiting : row.holder = none) (left : row.attempts < row.maxAttempts)
      (due : row.runAt ≤ state.clock) : Moves env state (.begin id) (state.begin id row)
  | succeed {id : Nat} {row : Row} {key : Option String} {attempts : Nat}
      (found : state.table.jobs id = some row) (holder : row.holder = some (.running key attempts))
      (task : row.identifier ≠ scheduledJob) :
      Moves env state (.succeed id) ((state.settle row.payload.owner).hold id (some .closing))
  | throw {id : Nat} {row : Row} {progress : Progress} {key : Option String} {attempts : Nat}
      (error : JobError) (found : state.table.jobs id = some row)
      (holder : row.holder = some progress) (atWork : progress.atWork = some (key, attempts)) :
      Moves env state (.throw id error) (state.caught env id row key attempts error)
  | hop {id : Nat} {row : Row} {key : Option String} {attempts : Nat} {spec : JobSpec Json}
      (found : state.table.jobs id = some row) (holder : row.holder = some (.running key attempts))
      (waiter : row.identifier = scheduledJob)
      (parsed : runScheduledJob state.clock row.payload.body = some spec) :
      Moves env state (.hop id) (state.hold id (some (.hopping key attempts spec)))
  | add {id : Nat} {row : Row} {progress : Progress} {spec : JobSpec Json} {after : State}
      (found : state.table.jobs id = some row) (holder : row.holder = some progress)
      (adding : progress.adding = some spec)
      (added : (state.hold id (some .closing)).add row.payload.owner spec = some after) :
      Moves env state (.add id) after
  | parkThrows {id : Nat} {row : Row} {spec : JobSpec Json} (found : state.table.jobs id = some row)
      (holder : row.holder = some (.parking spec)) :
      Moves env state (.parkThrows id) (state.hold id (some .throwing))
  | complete {id : Nat} {row : Row} (found : state.table.jobs id = some row)
      (holder : row.holder = some .closing) :
      Moves env state (.complete id) { state with table := state.table.erase id }
  | fail {id : Nat} {row : Row} (delay : Nat) (found : state.table.jobs id = some row)
      (holder : row.holder = some .throwing) :
      Moves env state (.fail id delay)
        { state with
          table := state.table.modify id
            ({ · with holder := none, runAt := state.clock + delay }) fun _ _ => .inr rfl }
  | crash {id : Nat} {row : Row} {progress : Progress} (found : state.table.jobs id = some row)
      (holder : row.holder = some progress) :
      Moves env state (.crash id) (state.hold id (some .abandoned))
  | release {id : Nat} {row : Row} (found : state.table.jobs id = some row)
      (holder : row.holder = some .abandoned) :
      Moves env state (.release id) (state.hold id none)

theorem moves_of_next {env : Environment} {state after : State} {event : Event}
    (step : next env state event = some after) : Moves env state event after := by
  cases event with
  | tick ms =>
      cases step
      exact .tick ms
  | enqueue owner input => exact .enqueue step
  | begin id =>
      simp only [next] at step
      split at step
      · rename_i row found
        split at step
        · rename_i enabled
          cases step
          exact .begin found (Option.isNone_iff_eq_none.mp enabled.1) enabled.2.1 enabled.2.2
        · cases step
      · cases step
  | succeed id =>
      simp only [next] at step
      split at step
      · rename_i row found
        split at step
        · rename_i key attempts holder
          split at step
          · cases step
          · rename_i task
            cases step
            exact .succeed found holder task
        · cases step
      · cases step
  | throw id error =>
      simp only [next] at step
      split at step
      · rename_i row found
        obtain ⟨⟨key, attempts⟩, bound, rfl⟩ := Option.map_eq_some_iff.mp step
        obtain ⟨progress, holder, atWork⟩ := Option.bind_eq_some_iff.mp bound
        exact .throw error found holder atWork
      · cases step
  | hop id =>
      simp only [next] at step
      split at step
      · rename_i row found
        split at step
        · rename_i key attempts holder
          split at step
          · rename_i waiter
            obtain ⟨spec, parsed, rfl⟩ := Option.map_eq_some_iff.mp step
            exact .hop found holder waiter parsed
          · cases step
        · cases step
      · cases step
  | add id =>
      simp only [next] at step
      split at step
      · rename_i row found
        obtain ⟨spec, bound, added⟩ := Option.bind_eq_some_iff.mp step
        obtain ⟨progress, holder, adding⟩ := Option.bind_eq_some_iff.mp bound
        exact .add found holder adding added
      · cases step
  | parkThrows id =>
      simp only [next] at step
      split at step
      · rename_i row found
        split at step
        · rename_i spec holder
          cases step
          exact .parkThrows found holder
        · cases step
      · cases step
  | complete id =>
      simp only [next] at step
      split at step
      · rename_i row found
        split at step
        · rename_i holder
          cases step
          exact .complete found holder
        · cases step
      · cases step
  | fail id delay =>
      simp only [next] at step
      split at step
      · rename_i row found
        split at step
        · rename_i holder
          cases step
          exact .fail delay found holder
        · cases step
      · cases step
  | crash id =>
      simp only [next] at step
      split at step
      · rename_i row found
        split at step
        · cases step
        · cases step
        · rename_i progress _ holder
          cases step
          exact .crash found holder
      · cases step
  | release id =>
      simp only [next] at step
      split at step
      · rename_i row found
        split at step
        · rename_i holder
          cases step
          exact .release found holder
        · cases step
      · cases step

/-! ## What the parts of a step change -/

variable {env : Environment} {owner id : Nat} {state : State} {row : Row}

theorem State.hold_jobs (holder : Option Progress) (found : state.table.jobs id = some row) :
    (state.hold id holder).table.jobs =
      Function.update state.table.jobs id (some { row with holder }) := by
  unfold State.hold
  rw [Table.modify_jobs found]

theorem State.begin_jobs (found : state.table.jobs id = some row) :
    (state.begin id row).table.jobs =
      Function.update state.table.jobs id
        (some (row.lock (.running row.key (row.attempts + 1)))) := by
  unfold State.begin
  split
  all_goals
    dsimp only [State.log]
    rw [Table.modify_jobs found]

/-- An addition changes the table only. -/
theorem State.add_eq_some {after : State} {spec : JobSpec Json} :
    state.add owner spec = some after ↔
      ∃ table, state.table.addJob Cargo.merge (spec.map (Cargo.mk owner)) = some table ∧
        { state with table } = after := by
  rw [State.add, Option.map_eq_some_iff]

theorem State.fail_table (retryAt : Option Nat) : (state.fail row retryAt).table = state.table := by
  unfold State.fail
  split
  all_goals rfl

/-- Behind the catch the worker is past everything, or about to park what `recover` says. -/
theorem State.caught_jobs {key : Option String} {attempts : Nat} {error : JobError}
    (found : state.table.jobs id = some row) :
    ∃ holder, (state.caught env id row key attempts error).table.jobs =
        Function.update state.table.jobs id (some { row with holder := some holder }) ∧
      (holder.past = true ∨ ∃ spec, holder = .parking spec ∧
        recover env.parse state.clock row.identifier error row.payload.body row.queueName key
          row.priority attempts = .retry spec) := by
  have kept (retryAt : Option Nat) : (state.fail row retryAt).table.jobs id = some row := by
    rw [State.fail_table, found]
  unfold State.caught
  split
  · exact ⟨_, State.hold_jobs _ found, .inl rfl⟩
  · rw [State.hold_jobs _ (kept none), State.fail_table]
    exact ⟨_, rfl, .inl rfl⟩
  · rename_i spec retry
    rw [State.hold_jobs _ (kept (some spec.runAt)), State.fail_table]
    exact ⟨_, rfl, .inr ⟨spec, rfl, retry⟩⟩
  · rw [State.hold_jobs _ (kept none), State.fail_table]
    exact ⟨_, rfl, .inl rfl⟩

theorem State.fail_executions_of_ne (retryAt : Option Nat) (foreign : row.payload.owner ≠ owner) :
    (state.fail row retryAt).executions owner = state.executions owner := by
  unfold State.fail
  split
  · rfl
  · exact Function.update_of_ne foreign.symm ..

theorem State.fail_rest (retryAt : Option Nat) :
    (state.fail row retryAt).settled = state.settled ∧
      (state.fail row retryAt).clock = state.clock := by
  unfold State.fail
  split
  all_goals exact ⟨rfl, rfl⟩

/-- The catch of another job leaves the record alone. -/
theorem State.caught_foreign {key : Option String} {attempts : Nat} {error : JobError}
    (foreign : row.payload.owner ≠ owner) :
    (state.caught env id row key attempts error).executions owner = state.executions owner ∧
      (state.caught env id row key attempts error).settled owner = state.settled owner ∧
      (state.caught env id row key attempts error).clock = state.clock := by
  unfold State.caught
  split
  · exact ⟨rfl, Function.update_of_ne foreign.symm .., rfl⟩
  all_goals
    refine ⟨State.fail_executions_of_ne _ foreign, ?_, ?_⟩
    · exact congrFun (State.fail_rest _).1 owner
    · exact (State.fail_rest _).2

end Jobs
end DotaCollector
