import DotaCollector.Library.Schedule
import DotaCollector.Parser.Handle

/-!
# Parser workers over one match

Any number of workers share the replay row of one match in Postgres and its rows in ClickHouse. A
step of the system is one call of one worker. A call which fails may have had its effect, or a
part of it, before the error; after a cancellation every call fails, and a crash ends the worker
where it is. Between two calls of a worker the row may be reclaimed and claimed again, so two
workers may handle the match at once.
-/

namespace DotaCollector
namespace Parser

variable {Row : Type}

/-- How a call ends: with its effect, or with an error after `landed` of its rows. For a call
without rows any `landed` other than zero is the whole effect. -/
inductive Outcome where
  | done
  | failed (landed : Nat) (message : String)

/-- The error a worker sees. -/
def Outcome.err : Outcome → Option String
  | .done => none
  | .failed _ message => some message

/-- A call without rows has had its effect. -/
def Outcome.applied : Outcome → Bool
  | .done => true
  | .failed landed _ => landed != 0

/-- The rows of an insert which have been stored. -/
def Outcome.stored (outcome : Outcome) (rows : List Row) : List Row :=
  match outcome with
  | .done => rows
  | .failed landed _ => rows.take landed

/-! ## The effect of a call -/

/-- `ALTER TABLE … DELETE` of the rows of the match. -/
def deleteRows (table : ReplayTable) (rows : StoredRows Row) : StoredRows Row :=
  Function.update rows table 0

/-- The effect of a call on ClickHouse. -/
def Statement.onRows (outcome : Outcome) (rows : StoredRows Row) : Statement → StoredRows Row
  | .deleteTable table => if outcome.applied then deleteRows table rows else rows
  | .fail _ => rows

/-- The effect of a call on the replay row. -/
def Statement.onReplay (outcome : Outcome) (now : Time) (replay : ReplayRow) :
    Statement → ReplayRow
  | .deleteTable _ => replay
  | .fail message => if outcome.applied then replay.fail now message else replay

def Query.onRows (outcome : Outcome) (rows : StoredRows Row) : Query Row → StoredRows Row
  | .insert table inserted => rows + rowsIn table (outcome.stored inserted)
  | _ => rows

/-- The version this parser writes. -/
def schema : Int := 5

def Query.onReplay (outcome : Outcome) (now : Time) (replay : ReplayRow) : Query Row → ReplayRow
  | .publish => if outcome.applied then replay.publish now schema else replay
  | _ => replay

/-! ## The system -/

/-- A worker: the start time its rows carry, and the rest of its script. -/
structure Worker (Row : Type) where
  startTime : Time
  script : Handler Row Unit

/-- The state of the system. -/
structure State (Row : Type) where
  replay : ReplayRow
  rows : StoredRows Row
  workers : Nat → Option (Worker Row) := fun _ => none

/-- The steps of the system. A claim reads the start time of the match; `restore` is a request to
parse the replay again. -/
inductive Event where
  | claim (worker : Nat) (now startTime : Time) (arrival : List SmallTable)
  | write (worker : Nat) (now : Time) (outcome : Outcome)
  | ask (worker : Nat) (now : Time) (outcome : Outcome)
  | stop (worker : Nat)
  | reclaimStale (now olderThan : Time)
  | restore (now : Time)

namespace State

/-- Replace the work of a worker. -/
def setWorker (state : State Row) (worker : Nat) (work : Option (Worker Row)) : State Row :=
  { state with workers := Function.update state.workers worker work }

/-- The state after one step, over a replay whose rows depend on the start time of the match. -/
def next (demo : Time → Extraction Row) (state : State Row) : Event → Option (State Row)
  | .claim worker now startTime arrival =>
      match state.workers worker with
      | some _ => none
      | none =>
          if state.replay.claimable && arrival.isPerm smallTables then
            some
              { state.setWorker worker (some
                  ⟨startTime, handle ⟨state.replay.parserVersion⟩ (demo startTime) arrival⟩) with
                replay := state.replay.claim now }
          else none
  | .write worker now outcome =>
      match state.workers worker with
      | some ⟨startTime, .write statement next⟩ =>
          some
            { state.setWorker worker (some ⟨startTime, next⟩) with
              replay := statement.onReplay outcome now state.replay
              rows := statement.onRows outcome state.rows }
      | _ => none
  | .ask worker now outcome =>
      match state.workers worker with
      | some ⟨startTime, .ask query next⟩ =>
          some
            { state.setWorker worker (some ⟨startTime, next outcome.err⟩) with
              replay := query.onReplay outcome now state.replay
              rows := query.onRows outcome state.rows }
      | _ => none
  | .stop worker => some (state.setWorker worker none)
  | .reclaimStale now olderThan => some
      { state with
        replay := if state.replay.stale now olderThan then state.replay.reclaim now
          else state.replay }
  | .restore now => some
      { state with
        replay :=
          { state.replay with
            status := .stored
            updatedAt := now } }

/-- No worker has claimed the match. -/
def initial (replay : ReplayRow) (rows : StoredRows Row) : State Row where
  replay
  rows

/-- The worker is about to ask a question. -/
def asks (state : State Row) (worker : Nat) : Option (Query Row) :=
  match state.workers worker with
  | some ⟨_, .ask query _⟩ => some query
  | _ => none

/-- The step is a publication which takes effect. -/
def publishes (state : State Row) : Event → Bool
  | .ask worker _ outcome =>
      match state.asks worker with
      | some .publish => outcome.applied
      | _ => false
  | _ => false

end State

end Parser
end DotaCollector
