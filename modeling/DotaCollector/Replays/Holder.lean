import DotaCollector.Replays.Invariants

/-!
# Who holds a replay

A replay is held by the parser from its claim on, and finished from its publication on; a
failure, a reclaim of a stale claim, and any status write of the worker release it. This machine
needs only the order of the steps, and the status column of the replay follows it. The guard of
the worker tests a status read before its slow work, so it does not see a claim or a publication
in between, and the later writes of a download have no guard at all.
-/

namespace DotaCollector

open ReplayState

/-- Who holds a replay. -/
inductive ReplayHolder where
  | nobody
  | parser
  | finished
  deriving DecidableEq, Repr

/-- The holder which a status stands for. -/
def ReplayStatus.holder : ReplayStatus → ReplayHolder
  | .parsing => .parser
  | .parsed => .finished
  | _ => .nobody

/-- The holder of a replay according to the row of its match. -/
def rowHolder (table : Replays) (matchId : MatchId) : ReplayHolder :=
  match table matchId with
  | none => .nobody
  | some row => row.status.holder

theorem rowHolder_of_eq {table : Replays} {matchId : MatchId} {row : ReplayRow}
    (found : table matchId = some row) : rowHolder table matchId = row.status.holder := by
  simp [rowHolder, found]

theorem rowHolder_of_none {table : Replays} {matchId : MatchId}
    (absent : table matchId = none) : rowHolder table matchId = .nobody := by
  simp [rowHolder, absent]

theorem rowHolder_update_of_ne {matchId target : MatchId} (ne : matchId ≠ target)
    (table : Replays) (set : ReplayRow → ReplayRow) :
    rowHolder (table.update target set) matchId = rowHolder table matchId := by
  simp [rowHolder, ne]

/-- An update which sets one status gives the row the holder of this status. -/
theorem rowHolder_update {table : Replays} {matchId : MatchId} {row : ReplayRow}
    (found : table matchId = some row) (set : ReplayRow → ReplayRow) :
    rowHolder (table.update matchId set) matchId = (set row).status.holder :=
  rowHolder_of_eq (by simp [found])

/-! ## The status writes of the worker -/

/-- The replay status a statement writes to the match of its job. -/
def ReplayStatement.writtenStatus : ReplayStatement → Option ReplayStatus
  | .updateReplay patch => patch.status
  | _ => none

theorem ReplayStatement.LeavesParserStatuses.holder_eq {statement : ReplayStatement}
    (leaves : statement.LeavesParserStatuses) {status : ReplayStatus}
    (written : statement.writtenStatus = some status) : status.holder = .nobody := by
  cases statement with
  | updateReplay patch =>
      obtain ⟨notParsing, notParsed⟩ := leaves
      rw [show patch.status = some status from written] at notParsing notParsed
      cases status <;> simp_all [ReplayStatus.holder]
  | _ => cases written

/-- A statement of the worker inserts a pending row, or changes the status of its match to the
one it writes, and does nothing else to any status. -/
theorem ReplayStatement.execute_steps {now : Time} {target : MatchId}
    {tables after : ReplayTables} {statement : ReplayStatement}
    (executed : statement.execute now target tables = some after) :
    Table.Steps (fun _ row => row.status = .pending)
      (fun matchId before later => later.status =
        if matchId = target then statement.writtenStatus.getD before.status else before.status)
      tables.replayTable after.replayTable := by
  cases statement with
  | ensureReplayRow priority =>
      obtain ⟨-, ⟨⟩⟩ := Option.ite_none_right_eq_some.mp executed
      refine Table.steps_upsert (fun _ => rfl) (fun row _ => ?_) fun other row ne _ => ?_
      · simp [writtenStatus, ReplayRow.keepPriority]
      · simp [ne]
  | copyReplayLocatorFromMatch =>
      simp only [execute] at executed
      split at executed
      · cases executed
        exact Table.steps_refl (fun _ _ => by simp [writtenStatus]) _
      · cases executed
        refine Table.steps_update (fun row _ => ?_) fun other row ne _ => ?_
        · simp [writtenStatus, ReplayRow.copyLocator]
        · simp [ne]
  | updateReplay patch =>
      cases executed
      refine Table.steps_update (fun row _ => ?_) fun other row ne _ => ?_
      · simp [writtenStatus, ReplayPatch.set]
      · simp [ne]
  | markMatchReplayStatus | persistMatchRecord =>
      cases executed
      exact Table.steps_refl (fun _ _ => by simp [writtenStatus]) _

/-- A status write of the worker releases the replay; its other statements leave the holder. -/
theorem rowHolder_execute {now : Time} {matchId target : MatchId} {tables after : ReplayTables}
    {statement : ReplayStatement} (leaves : statement.LeavesParserStatuses)
    (executed : statement.execute now target tables = some after) :
    rowHolder after.replayTable matchId =
      if target = matchId ∧ statement.writtenStatus.isSome = true then .nobody
      else rowHolder tables.replayTable matchId := by
  have step := ReplayStatement.execute_steps executed matchId
  simp only [rowHolder]
  generalize tables.replayTable matchId = before, after.replayTable matchId = later at step
  cases step with
  | absent => simp
  | insert fresh => simp [fresh, ReplayStatus.holder]
  | @change row next changed =>
      simp only [changed]
      by_cases same : target = matchId
      · cases written : statement.writtenStatus with
        | none => simp
        | some status => simp [same, leaves.holder_eq written]
      · simp [same, Ne.symm same]

namespace ReplayState

/-- The holder of a replay in a state. -/
def holder (state : ReplayState) (matchId : MatchId) : ReplayHolder :=
  rowHolder state.replayTable matchId

/-- The next statement of a job writes the replay status of a match. -/
def writesStatus (state : ReplayState) (job : Nat) (matchId : MatchId) : Bool :=
  match state.jobs job with
  | some ⟨target, .write statement _⟩ => target = matchId && statement.writtenStatus.isSome
  | _ => false

/-- The claim of a match is old enough to be reclaimed. -/
def claimIsOld (state : ReplayState) (matchId : MatchId) (now olderThan : Time) : Bool :=
  (state.replayTable matchId).any fun row => row.updatedAt < now - olderThan

/-- The holder of a replay after a step, from its holder before. -/
def holderAfter (state : ReplayState) (matchId : MatchId) (holder : ReplayHolder) :
    ReplayEvent → ReplayHolder
  | .write job _ => if state.writesStatus job matchId then .nobody else holder
  | .claim _ claimed _ => if claimed = matchId then .parser else holder
  | .publish parser _ _ _ =>
      if state.parsers parser = some (matchId, .parsing) then .finished else holder
  | .fail parser _ _ =>
      if (state.parsers parser).map Prod.fst = some matchId then .nobody else holder
  | .reclaimStale now olderThan =>
      if holder = .parser ∧ state.claimIsOld matchId now olderThan then .nobody else holder
  | _ => holder

/-- The holder of a replay after a schedule. -/
def heldAfter (matchId : MatchId) : ReplayState → ReplayHolder → List ReplayEvent → ReplayHolder
  | _, holder, [] => holder
  | state, holder, event :: events =>
      match state.next event with
      | none => holder
      | some after => heldAfter matchId after (state.holderAfter matchId holder event) events

/-- The status column moves as the holder machine does. -/
theorem Step.holder_eq {state after : ReplayState} {event : ReplayEvent}
    (wellFormed : state.WellFormed) (step : state.Step event after) (matchId : MatchId) :
    after.holder matchId = state.holderAfter matchId (state.holder matchId) event := by
  cases step with
  | operation | start | read | finish | stop => rfl
  | write running executed =>
      have leaves := (wellFormed.scripts _ _ running).1
      simp only [holder, holderAfter, writesStatus, running, setJob_tables, Bool.and_eq_true,
        decide_eq_true_eq]
      exact rowHolder_execute leaves executed
  | @reject job now target statement next running refused =>
      have quiet : statement.writtenStatus = none := by
        cases statement <;> simp_all [ReplayStatement.execute, ReplayStatement.writtenStatus]
      simp [holder, holderAfter, writesStatus, running, quiet, setJob]
  | @claim parser claimed now row idle found claimable =>
      by_cases same : claimed = matchId
      · subst same
        simp only [holder, holderAfter, setParser_tables, if_true]
        exact rowHolder_update found (ReplayRow.claim now)
      · simp only [holder, holderAfter, setParser_tables, same, if_false]
        exact rowHolder_update_of_ne (Ne.symm same) state.replayTable _
  | @publish parser published now version barracks busy =>
      obtain ⟨row, found⟩ := Option.isSome_iff_exists.mp (wellFormed.claimed _ _ _ busy)
      by_cases same : published = matchId
      · subst same
        simp only [holder, holderAfter, setParser_tables, busy, if_true]
        exact rowHolder_update found (ReplayRow.publish now version)
      · have other : some (published, ParserPhase.parsing) ≠ some (matchId, .parsing) := by
          simpa using same
        simp only [holder, holderAfter, setParser_tables, busy, other, if_false]
        exact rowHolder_update_of_ne (Ne.symm same) state.replayTable _
  | @fail parser failed phase now message busy =>
      obtain ⟨row, found⟩ := Option.isSome_iff_exists.mp (wellFormed.claimed _ _ _ busy)
      by_cases same : failed = matchId
      · subst same
        simp only [holder, holderAfter, setParser_tables, busy, Option.map_some, if_true]
        exact rowHolder_update found (ReplayRow.fail now message)
      · have other : some failed ≠ some matchId := by simpa using same
        simp only [holder, holderAfter, setParser_tables, busy, Option.map_some, other, if_false]
        exact rowHolder_update_of_ne (Ne.symm same) state.replayTable _
  | reclaimStale now olderThan =>
      simp only [holder, holderAfter, claimIsOld]
      rcases Option.eq_none_or_eq_some (state.replayTable matchId) with found | ⟨row, found⟩
      · have absent :
            DotaCollector.reclaimStale state.replayTable now olderThan matchId = none := by
          simp [DotaCollector.reclaimStale, Table.updateWhere, found]
        simp [rowHolder_of_none absent, rowHolder_of_none found]
      · have later : DotaCollector.reclaimStale state.replayTable now olderThan matchId =
            some (if row.stale now olderThan then row.reclaim now else row) := by
          simp [DotaCollector.reclaimStale, Table.updateWhere, found]
        simp only [rowHolder_of_eq later, rowHolder_of_eq found, found, Option.any_some]
        by_cases old : row.updatedAt < now - olderThan <;>
          cases status : row.status <;>
          simp [ReplayRow.stale, ReplayRow.reclaim, ReplayStatus.holder, old, status]

/-- Along a run the holder according to the row is the holder of the schedule. -/
theorem holder_eq_heldAfter {start state : ReplayState} (wellFormed : start.WellFormed)
    {events : List ReplayEvent} (execution : Schedule.run next start events = some state)
    (matchId : MatchId) :
    state.holder matchId = heldAfter matchId start (start.holder matchId) events := by
  induction events generalizing start with
  | nil =>
      cases execution
      rfl
  | cons event events ih =>
      obtain ⟨after, step, rest⟩ := Schedule.run_cons_eq_some.mp execution
      have moved := (step_of_next step).holder_eq wellFormed matchId
      simp only [heldAfter, step]
      rw [← moved]
      exact ih (wellFormed.step (step_of_next step)) rest

/-! ## The worker and the statuses of the parser -/

/-- A worker write takes no replay out of `parsing` or `parsed`. -/
def WritesKeepParserStatus (state : ReplayState) : ReplayEvent → Prop
  | .write job now => ∀ after, state.next (.write job now) = some after →
      ∀ matchId row later, state.replayTable matchId = some row →
        after.replayTable matchId = some later →
        row.status = .parsing ∨ row.status = .parsed → later.status = row.status
  | _ => True

theorem holder_ne_nobody_iff {state : ReplayState} {matchId : MatchId} {row : ReplayRow}
    (found : state.replayTable matchId = some row) :
    state.holder matchId ≠ .nobody ↔ row.status = .parsing ∨ row.status = .parsed := by
  rw [holder, rowHolder_of_eq found]
  cases row.status <;> simp [ReplayStatus.holder]

theorem exists_of_writesStatus {state : ReplayState} {job : Nat} {matchId : MatchId}
    (writes : state.writesStatus job matchId = true) :
    ∃ patch rest status,
      state.jobs job = some ⟨matchId, .write (.updateReplay patch) rest⟩ ∧
        patch.status = some status := by
  simp only [writesStatus] at writes
  split at writes
  · rename_i target statement rest running
    simp only [Bool.and_eq_true, decide_eq_true_eq] at writes
    obtain ⟨rfl, sets⟩ := writes
    obtain ⟨status, written⟩ := Option.isSome_iff_exists.mp sets
    cases statement with
    | updateReplay patch => exact ⟨patch, rest, status, running, written⟩
    | _ => cases written
  · cases writes

/-- One write of the worker keeps the statuses of the parser exactly when it writes the status of
no replay which is held or finished. -/
theorem writesKeepParserStatus_write_iff {state : ReplayState} (wellFormed : state.WellFormed)
    (job : Nat) (now : Time) :
    WritesKeepParserStatus state (.write job now) ↔
      ∀ matchId, state.writesStatus job matchId = true → state.holder matchId = .nobody := by
  constructor
  · intro keeps matchId writes
    by_contra held
    obtain ⟨patch, rest, status, running, written⟩ := exists_of_writesStatus writes
    obtain ⟨row, found⟩ : ∃ row, state.replayTable matchId = some row := by
      rcases Option.eq_none_or_eq_some (state.replayTable matchId) with absent | present
      · exact absurd (rowHolder_of_none absent) held
      · exact present
    have step : state.next (.write job now) = some
        ({ state with replayTable :=
            updateReplay state.replayTable now matchId patch }.setJob job
          (some ⟨matchId, rest⟩)) := by
      simp [ReplayState.next, running, ReplayStatement.execute]
    have kept := keeps _ step matchId row (patch.set now row) found
      (by simp [updateReplay, found]) ((holder_ne_nobody_iff found).mp held)
    have same : status = row.status := by
      rw [← kept, ReplayPatch.set, written]
      rfl
    have released : status.holder = .nobody :=
      ReplayStatement.LeavesParserStatuses.holder_eq (wellFormed.scripts _ _ running).1 written
    rw [same, ← rowHolder_of_eq found] at released
    exact held released
  · intro free after step matchId row later found foundLater held
    cases step_of_next step with
    | @write _ _ target statement next tables running executed =>
        have moved := ReplayStatement.execute_steps executed matchId
        rw [found, show tables.replayTable matchId = some later from foundLater] at moved
        cases moved with
        | change changed =>
            rw [changed]
            by_cases same : matchId = target
            · cases written : statement.writtenStatus with
              | none => simp
              | some status =>
                  have writes : state.writesStatus job matchId = true := by
                    simp [writesStatus, running, same, written]
                  exact absurd (free matchId writes) ((holder_ne_nobody_iff found).mpr held)
            · simp [same]
    | reject =>
        rw [show state.replayTable matchId = some later from foundLater] at found
        cases found
        rfl

/-- In any interleaving, the worker takes no replay out of `parsing` or `parsed` exactly when
none of its status writes comes after a claim or a publication of the replay which no failure,
reclaim or earlier status write of a worker has released. -/
theorem worker_keeps_parser_status_iff (events : List ReplayEvent) :
    Schedule.Throughout next WritesKeepParserStatus initial events ↔
      ∀ front job now back state, events = front ++ .write job now :: back →
        Schedule.run next initial front = some state →
        ∀ matchId, state.writesStatus job matchId = true →
          heldAfter matchId initial .nobody front = .nobody := by
  rw [Schedule.throughout_iff]
  constructor
  · intro keeps front job now back state split execution matchId writes
    have here := keeps front _ back state split execution
    have free := (writesKeepParserStatus_write_iff (wellFormed_run execution) job now).mp here
      matchId writes
    exact (holder_eq_heldAfter wellFormed_initial execution matchId).symm.trans free
  · intro free front event back state split execution
    cases event with
    | write job now =>
        refine (writesKeepParserStatus_write_iff (wellFormed_run execution) job now).mpr ?_
        intro matchId writes
        rw [holder_eq_heldAfter wellFormed_initial execution matchId]
        exact free front job now back state split execution matchId writes
    | _ => trivial

/-! ## A stale guard -/

/-- The record of match 7 which the game coordinator has. -/
def recordOfSeven : GcMatch where
  matchId := some 7
  matchSeqNum := some 1001
  startTime := some 100
  duration := some 2400
  others := fun
    | .cluster => some (.int 236)
    | .replaySalt => some (.int 9)
    | _ => none
  replayState := some 0

/-- The coordinator gives the record of match 7, whose replay lies in storage already. -/
def storedElsewhere : ReplayEnvironment where
  now := 5
  objectBucket := "hot"
  locateReplayObject := fun _ _ _ => some ⟨"hot", "replays/7/7_9.dem.bz2", false⟩
  hostname := fun _ => none
  download := .unreachable
  requestMatchReplayLocator := .details ⟨1, some recordOfSeven, some 30, none⟩
  historyReplayEnqueueLimit := 100

/-- The sequence stream brings match 7. -/
def discovered : ReplayEvent :=
  .operation (.insertUndiscoveredMatch 0 ⟨7, some 1001, some 100, some 2400, fun _ => none⟩ .seq)

/-- `fetch_match_details` saves the record of match 7, finds its replay in storage and marks the
replay row as stored. The mark of the match is still to come. -/
def adoptedReplay : List ReplayEvent :=
  [.start 0 7 (.fetchMatchDetails storedElsewhere none), .read 0, .write 0 1, .write 0 2, .read 0,
    .write 0 3, .write 0 4, .read 0, .write 0 5]

/-- A download reads the stored row, the parser claims the replay, and the download writes
`stored` over `parsing`. -/
theorem stale_guard_demotes_parsing :
    ¬ Schedule.Throughout next WritesKeepParserStatus initial
      ((discovered :: adoptedReplay ++ [.write 0 6, .finish 0,
        .start 1 7 (.downloadReplay storedElsewhere), .read 1, .write 1 7, .read 1,
        .claim 0 7 8]) ++ [.write 1 9]) := by
  intro keeps
  have kept := (keeps.back rfl).1 _ rfl 7 _ _ rfl rfl (.inl rfl)
  cases kept

end ReplayState

end DotaCollector
