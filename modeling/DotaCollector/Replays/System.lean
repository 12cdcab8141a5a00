import DotaCollector.Library.Schedule
import DotaCollector.Replays.Jobs

/-!
# The worker and the parser on one database

Any number of replay jobs and of parser workers share the two tables. A step of the system is one
statement of one of them, in any order; between its reads and writes a job is exposed to
everything else. A parser worker keeps in memory which match it claimed, so it publishes or
fails that match whatever has become of the row.
-/

namespace DotaCollector

open Script

/-- The two tables the worker and the parser share. -/
structure ReplayTables where
  matchTable : Matches := Table.empty
  replayTable : Replays := Table.empty

/-- The operations of `persistMatchRecord` on `matches`. -/
def persistOperations (now : Time) (record : MatchFacts) (seriesId : Option Int) :
    List Operation :=
  .insertUndiscoveredMatch now record .gc ::
    (seriesId.map (Operation.linkSeries record.matchId)).toList ++
      [.saveMatchFacts now record .gc]

/-- The tables after one statement of a job; a replay row needs its match. -/
def ReplayStatement.execute (now : Time) (matchId : MatchId) (tables : ReplayTables) :
    ReplayStatement → Option ReplayTables
  | .ensureReplayRow priority =>
      if (tables.matchTable matchId).isSome then
        some
          { tables with
            replayTable :=
              DotaCollector.ensureReplayRow tables.replayTable now matchId priority }
      else none
  | .copyReplayLocatorFromMatch =>
      match tables.matchTable matchId with
      | none => some tables
      | some source => some
          { tables with
            replayTable := tables.replayTable.update matchId (ReplayRow.copyLocator now source) }
  | .updateReplay patch =>
      some
        { tables with
          replayTable := DotaCollector.updateReplay tables.replayTable now matchId patch }
  | .markMatchReplayStatus mark error errorKind => some
      { tables with
        matchTable := Operation.apply tables.matchTable
          (.markMatchReplayStatus now matchId mark error errorKind) }
  | .persistMatchRecord record seriesId => some
      { tables with
        matchTable := runOperations tables.matchTable (persistOperations now record seriesId) }

/-- The answer to a question of a job. -/
def ReplayQuery.answer (matchId : MatchId) (tables : ReplayTables) :
    (query : ReplayQuery) → query.Answer
  | .getMatch => tables.matchTable matchId
  | .getReplay => tables.replayTable matchId

/-- A replay job, as the queue starts it, or the enqueueing of a download by hand. -/
inductive ReplayJobCall where
  | downloadReplay (env : ReplayEnvironment)
  | fetchMatchDetails (env : ReplayEnvironment) (origin : Option ReplayPriority)
  | enqueueDownloadReplay (env : ReplayEnvironment) (origin : ReplayPriority)

/-- The script of a job; what it reports goes to the log. -/
def ReplayJobCall.script (matchId : MatchId) : ReplayJobCall → ReplayScript Unit
  | .downloadReplay env => do
      let _report ← DotaCollector.downloadReplay env matchId
      return ()
  | .fetchMatchDetails env origin => do
      let _report ← runFetchMatchDetails env matchId origin
      return ()
  | .enqueueDownloadReplay env origin => DotaCollector.enqueueDownloadReplay env origin true

/-- A job in flight: its match and the rest of its script. -/
structure ReplayJob where
  matchId : MatchId
  script : ReplayScript Unit

/-- What a parser worker does with the match it claimed. -/
inductive ParserPhase where
  | parsing
  | published
  deriving DecidableEq, Repr

/-- The state of the system. -/
structure ReplayState extends ReplayTables where
  jobs : Nat → Option ReplayJob := fun _ => none
  parsers : Nat → Option (MatchId × ParserPhase) := fun _ => none

/-- The steps of the system. -/
inductive ReplayEvent where
  | operation (operation : Operation)
  | start (job : Nat) (matchId : MatchId) (call : ReplayJobCall)
  | read (job : Nat)
  | write (job : Nat) (now : Time)
  | finish (job : Nat)
  | claim (parser : Nat) (matchId : MatchId) (now : Time)
  | publish (parser : Nat) (now : Time) (parserVersion : Int) (barracks : Option (Int × Int))
  | fail (parser : Nat) (now : Time) (message : String)
  | stop (parser : Nat)
  | reclaimStale (now olderThan : Time)

namespace ReplayState

/-- Replace the script of a job. -/
def setJob (state : ReplayState) (job : Nat) (next : Option ReplayJob) : ReplayState :=
  { state with jobs := Function.update state.jobs job next }

/-- Replace the work of a parser worker. -/
def setParser (state : ReplayState) (parser : Nat) (next : Option (MatchId × ParserPhase)) :
    ReplayState :=
  { state with parsers := Function.update state.parsers parser next }

@[simp] theorem setJob_tables (state : ReplayState) (job : Nat) (next : Option ReplayJob) :
    (state.setJob job next).toReplayTables = state.toReplayTables := rfl

@[simp] theorem setParser_tables (state : ReplayState) (parser : Nat)
    (next : Option (MatchId × ParserPhase)) :
    (state.setParser parser next).toReplayTables = state.toReplayTables := rfl

/-- The state after one step. -/
def next (state : ReplayState) : ReplayEvent → Option ReplayState
  | .operation operation =>
      some { state with matchTable := operation.apply state.matchTable }
  | .start job matchId call =>
      match state.jobs job with
      | none => some (state.setJob job (some ⟨matchId, call.script matchId⟩))
      | some _ => none
  | .read job =>
      match state.jobs job with
      | some ⟨matchId, .ask query next⟩ =>
          some (state.setJob job
            (some ⟨matchId, next (query.answer matchId state.toReplayTables)⟩))
      | _ => none
  | .write job now =>
      match state.jobs job with
      | some ⟨matchId, .write statement next⟩ =>
          match statement.execute now matchId state.toReplayTables with
          | some tables =>
              some ({ state with toReplayTables := tables }.setJob job (some ⟨matchId, next⟩))
          | none => some (state.setJob job (some ⟨matchId, .throw⟩))
      | _ => none
  | .finish job =>
      match state.jobs job with
      | some _ => some (state.setJob job none)
      | none => none
  | .claim parser matchId now =>
      match state.parsers parser, state.replayTable matchId with
      | none, some row =>
          if row.claimable then
            some ({ state with
              replayTable := state.replayTable.update matchId (ReplayRow.claim now) }.setParser
              parser (some (matchId, .parsing)))
          else none
      | _, _ => none
  | .publish parser now parserVersion barracks =>
      match state.parsers parser with
      | some (matchId, .parsing) => some
          ({ state with
            replayTable := state.replayTable.update matchId (ReplayRow.publish now parserVersion)
            matchTable := Operation.apply state.matchTable
              (.publishMatch matchId barracks) }.setParser parser (some (matchId, .published)))
      | _ => none
  | .fail parser now message =>
      match state.parsers parser with
      | some (matchId, _) => some
          ({ state with
            replayTable := state.replayTable.update matchId (ReplayRow.fail now message) }.setParser
            parser none)
      | none => none
  | .stop parser =>
      match state.parsers parser with
      | some _ => some (state.setParser parser none)
      | none => none
  | .reclaimStale now olderThan =>
      some { state with replayTable := reclaimStale state.replayTable now olderThan }

/-! ## What a step may do -/

/-- The enabled steps, each with its guard and its successor. -/
inductive Step (state : ReplayState) : ReplayEvent → ReplayState → Prop where
  | operation (operation : Operation) :
      Step state (.operation operation)
        { state with matchTable := operation.apply state.matchTable }
  | start {job : Nat} {matchId : MatchId} {call : ReplayJobCall} :
      state.jobs job = none →
      Step state (.start job matchId call)
        (state.setJob job (some ⟨matchId, call.script matchId⟩))
  | read {job : Nat} {matchId : MatchId} {query : ReplayQuery}
      {next : query.Answer → ReplayScript Unit} :
      state.jobs job = some ⟨matchId, .ask query next⟩ →
      Step state (.read job)
        (state.setJob job (some ⟨matchId, next (query.answer matchId state.toReplayTables)⟩))
  | write {job : Nat} {now : Time} {matchId : MatchId} {statement : ReplayStatement}
      {next : ReplayScript Unit} {tables : ReplayTables} :
      state.jobs job = some ⟨matchId, .write statement next⟩ →
      statement.execute now matchId state.toReplayTables = some tables →
      Step state (.write job now)
        ({ state with toReplayTables := tables }.setJob job (some ⟨matchId, next⟩))
  | reject {job : Nat} {now : Time} {matchId : MatchId} {statement : ReplayStatement}
      {next : ReplayScript Unit} :
      state.jobs job = some ⟨matchId, .write statement next⟩ →
      statement.execute now matchId state.toReplayTables = none →
      Step state (.write job now) (state.setJob job (some ⟨matchId, .throw⟩))
  | finish {job : Nat} {found : ReplayJob} :
      state.jobs job = some found → Step state (.finish job) (state.setJob job none)
  | claim {parser : Nat} {matchId : MatchId} {now : Time} {row : ReplayRow} :
      state.parsers parser = none → state.replayTable matchId = some row →
      row.claimable = true →
      Step state (.claim parser matchId now)
        ({ state with
          replayTable := state.replayTable.update matchId (ReplayRow.claim now) }.setParser
          parser (some (matchId, .parsing)))
  | publish {parser : Nat} {matchId : MatchId} {now : Time} {parserVersion : Int}
      {barracks : Option (Int × Int)} :
      state.parsers parser = some (matchId, .parsing) →
      Step state (.publish parser now parserVersion barracks)
        ({ state with
          replayTable := state.replayTable.update matchId (ReplayRow.publish now parserVersion)
          matchTable := Operation.apply state.matchTable
            (.publishMatch matchId barracks) }.setParser parser (some (matchId, .published)))
  | fail {parser : Nat} {matchId : MatchId} {phase : ParserPhase} {now : Time}
      {message : String} :
      state.parsers parser = some (matchId, phase) →
      Step state (.fail parser now message)
        ({ state with
          replayTable := state.replayTable.update matchId (ReplayRow.fail now message) }.setParser
          parser none)
  | stop {parser : Nat} {work : MatchId × ParserPhase} :
      state.parsers parser = some work →
      Step state (.stop parser) (state.setParser parser none)
  | reclaimStale (now olderThan : Time) :
      Step state (.reclaimStale now olderThan)
        { state with replayTable := DotaCollector.reclaimStale state.replayTable now olderThan }

theorem step_of_next {state after : ReplayState} {event : ReplayEvent}
    (step : state.next event = some after) : state.Step event after := by
  cases event with
  | operation operation =>
      cases step
      exact .operation operation
  | start job matchId call =>
      simp only [next] at step
      split at step
      · cases step
        exact .start ‹_›
      · cases step
  | read job =>
      simp only [next] at step
      split at step
      · cases step
        exact .read ‹_›
      · cases step
  | write job now =>
      simp only [next] at step
      split at step
      · split at step
        · cases step
          exact .write ‹_› ‹_›
        · cases step
          exact .reject ‹_› ‹_›
      · cases step
  | finish job =>
      simp only [next] at step
      split at step
      · cases step
        exact .finish ‹_›
      · cases step
  | claim parser matchId now =>
      simp only [next] at step
      split at step
      · split at step
        · cases step
          exact .claim ‹_› ‹_› ‹_›
        · cases step
      · cases step
  | publish parser now parserVersion barracks =>
      simp only [next] at step
      split at step
      · cases step
        exact .publish ‹_›
      · cases step
  | fail parser now message =>
      simp only [next] at step
      split at step
      · cases step
        exact .fail ‹_›
      · cases step
  | stop parser =>
      simp only [next] at step
      split at step
      · cases step
        exact .stop ‹_›
      · cases step
  | reclaimStale now olderThan =>
      cases step
      exact .reclaimStale now olderThan

/-- No job and no parser worker is in flight. -/
def Quiescent (state : ReplayState) : Prop :=
  (∀ job, state.jobs job = none) ∧ ∀ parser, state.parsers parser = none

end ReplayState

/-- The system before any step. -/
def ReplayState.initial : ReplayState := {}

end DotaCollector
