import DotaCollector.Replays.System

/-!
# Invariants of the replay system

The jobs of the worker never write `parsing` or `parsed`; a claimed match has a replay row, and a
replay row has its match. With these, the status of a replay row tells who holds the replay, and
a small machine which looks only at claims, publications, failures, reclaims and status writes
follows it step by step.
-/

namespace DotaCollector

open Script

/-! ## The scripts of the worker -/

/-- The statement writes neither status of the parser. -/
def ReplayStatement.LeavesParserStatuses : ReplayStatement → Prop
  | .updateReplay patch => patch.status ≠ some .parsing ∧ patch.status ≠ some .parsed
  | _ => True

/-- Every status write of the script leaves the statuses of the parser to the parser. -/
abbrev LeavesParserStatuses {Value : Type}
    (script : Script ReplayStatement ReplayQuery ReplayQuery.Answer Value) : Prop :=
  script.Issues ReplayStatement.LeavesParserStatuses

theorem issues_updateReplay {patch : ReplayPatch} (notParsing : patch.status ≠ some .parsing)
    (notParsed : patch.status ≠ some .parsed) :
    LeavesParserStatuses (issue (.updateReplay patch)) :=
  issues_issue ⟨notParsing, notParsed⟩

theorem adoptExistingReplayObject_leaves (env : ReplayEnvironment) (matchId : MatchId)
    (existing : Option ReplayRow) :
    LeavesParserStatuses (adoptExistingReplayObject env matchId existing) := by
  rw [adoptExistingReplayObject]
  split
  · exact issues_pure none
  · split
    · exact issues_pure none
    · split
      · exact issues_pure _
      · refine issues_bind (issues_updateReplay (by simp) (by simp)) fun _ => ?_
        exact issues_bind (issues_issue trivial) fun _ => issues_pure _

theorem giveUpReplay_leaves (message : String) (bumpAttempt : Bool) :
    LeavesParserStatuses (giveUpReplay message bumpAttempt) :=
  issues_bind (issues_updateReplay (by simp) (by simp)) fun _ => issues_issue trivial

theorem enqueueDownloadReplay_leaves (env : ReplayEnvironment) (origin : ReplayPriority)
    (ignoreLimit : Bool) : LeavesParserStatuses (enqueueDownloadReplay env origin ignoreLimit) := by
  rw [enqueueDownloadReplay]
  split
  · exact issues_pure _
  · exact issues_bind (issues_issue trivial) fun _ => issues_issue trivial

theorem downloadReplay_leaves (env : ReplayEnvironment) (matchId : MatchId) :
    LeavesParserStatuses (downloadReplay env matchId) := by
  rw [downloadReplay]
  refine issues_bind (issues_query _) fun found => ?_
  refine issues_bind (issues_issue trivial) fun _ => ?_
  refine issues_bind (issues_query _) fun existing => ?_
  dsimp only
  refine issues_bind (adoptExistingReplayObject_leaves env matchId existing) fun adopted => ?_
  rcases adopted with _ | ⟨hit, kept⟩
  · dsimp only
    split
    · exact issues_throw
    · split
      · exact issues_bind (giveUpReplay_leaves _ _) fun _ => issues_pure _
      · refine issues_bind (issues_updateReplay (by simp) (by simp)) fun _ => ?_
        split
        · exact issues_throw
        · split
          · exact issues_bind (giveUpReplay_leaves _ _) fun _ => issues_pure _
          · refine issues_bind (issues_updateReplay (by simp) (by simp)) fun _ => ?_
            exact issues_bind (enqueueDownloadReplay_leaves ..) fun _ => issues_pure _
        · exact issues_bind (issues_updateReplay (by simp) (by simp)) fun _ => issues_throw
        · exact issues_throw
        · refine issues_bind (issues_updateReplay (by simp) (by simp)) fun _ => ?_
          exact issues_bind (issues_issue trivial) fun _ => issues_pure _
  · exact issues_pure _

theorem skipDownloadIfPresent_leaves (env : ReplayEnvironment) (matchId : MatchId)
    (replay : Option ReplayRow) :
    LeavesParserStatuses (skipDownloadIfPresent env matchId replay) := by
  rw [skipDownloadIfPresent]
  split
  · exact issues_pure _
  · exact issues_bind (adoptExistingReplayObject_leaves env matchId replay) fun _ => issues_pure _

theorem markUnpublishedReplayCdn_leaves (env : ReplayEnvironment) (cluster : Int)
    (url : String) : LeavesParserStatuses (markUnpublishedReplayCdn env cluster url) := by
  rw [markUnpublishedReplayCdn]
  split
  · exact issues_pure _
  · exact issues_bind (giveUpReplay_leaves _ _) fun _ => issues_pure _

theorem persistGcMatch_leaves (locator : ReplayLocator) :
    LeavesParserStatuses (persistGcMatch locator) := by
  rw [persistGcMatch]
  split
  · exact issues_pure _
  · split
    · exact issues_pure _
    · exact issues_issue trivial

/-- Behind a host which may be unpublished comes the download. -/
theorem downloadUnlessUnpublished_leaves {Value : Type} (env : ReplayEnvironment)
    (origin : ReplayPriority) (cluster : Int) (url : String) (value : Value) :
    LeavesParserStatuses (do
      if ← markUnpublishedReplayCdn env cluster url then return value
      enqueueDownloadReplay env origin false
      return value) := by
  refine issues_bind (markUnpublishedReplayCdn_leaves env cluster url) fun unpublished => ?_
  split
  · exact issues_pure _
  · exact issues_bind (enqueueDownloadReplay_leaves ..) fun _ => issues_pure _

theorem saveMatchDetails_leaves (env : ReplayEnvironment) (matchId : MatchId)
    (origin : ReplayPriority) (locator : ReplayLocator) (knownCluster knownSalt : Option Int) :
    LeavesParserStatuses
      (saveMatchDetails env matchId origin locator knownCluster knownSalt) := by
  rw [saveMatchDetails]
  refine issues_bind (persistGcMatch_leaves locator) fun _ => ?_
  split
  · refine issues_bind (issues_updateReplay (by simp) (by simp)) fun _ => ?_
    refine issues_bind (issues_query _) fun stored => ?_
    refine issues_bind (skipDownloadIfPresent_leaves env matchId stored) fun skipped => ?_
    split
    · exact issues_pure _
    · exact downloadUnlessUnpublished_leaves env origin _ _ _
  · exact issues_pure _

theorem runFetchMatchDetails_leaves (env : ReplayEnvironment) (matchId : MatchId)
    (origin : Option ReplayPriority) :
    LeavesParserStatuses (runFetchMatchDetails env matchId origin) := by
  rw [runFetchMatchDetails]
  refine issues_bind (issues_query _) fun found => ?_
  refine issues_bind (issues_issue trivial) fun _ => ?_
  refine issues_bind (issues_issue trivial) fun _ => ?_
  refine issues_bind (issues_query _) fun replay => ?_
  dsimp only
  split
  · refine issues_bind (skipDownloadIfPresent_leaves env matchId replay) fun skipped => ?_
    split
    · exact issues_pure _
    · exact downloadUnlessUnpublished_leaves env _ _ _ _
  · split
    · exact issues_throw
    · exact issues_bind (issues_updateReplay (by simp) (by simp)) fun _ => issues_pure _
    · split
      · refine issues_bind (issues_updateReplay (by simp) (by simp)) fun _ => ?_
        exact issues_bind (issues_issue trivial) fun _ => issues_pure _
      · split
        · exact issues_throw
        · split
          · exact issues_bind (issues_updateReplay (by simp) (by simp)) fun _ => issues_pure _
          · exact saveMatchDetails_leaves env matchId _ _ _ _

theorem ReplayJobCall.script_leaves (matchId : MatchId) (call : ReplayJobCall) :
    LeavesParserStatuses (call.script matchId) := by
  cases call with
  | downloadReplay env =>
      exact issues_bind (downloadReplay_leaves env matchId) fun _ => issues_pure _
  | fetchMatchDetails env origin =>
      exact issues_bind (runFetchMatchDetails_leaves env matchId origin) fun _ => issues_pure _
  | enqueueDownloadReplay env origin => exact enqueueDownloadReplay_leaves env origin true

/-! ## Rows are never deleted -/

/-- Both tables keep their rows, and a new replay row has its match. -/
structure ReplayTables.Grows (before after : ReplayTables) : Prop where
  keepsMatch : ∀ matchId, (before.matchTable matchId).isSome → (after.matchTable matchId).isSome
  keepsReplay : ∀ matchId,
    (before.replayTable matchId).isSome → (after.replayTable matchId).isSome
  newReplay : ∀ matchId, (after.replayTable matchId).isSome →
    (before.replayTable matchId).isSome ∨ (before.matchTable matchId).isSome

theorem ReplayTables.Grows.refl (tables : ReplayTables) : tables.Grows tables :=
  ⟨fun _ => id, fun _ => id, fun _ => .inl⟩

/-- Operations on the matches keep both tables. -/
theorem grows_runOperations (tables : ReplayTables) (operations : List Operation) :
    tables.Grows { tables with matchTable := runOperations tables.matchTable operations } where
  keepsMatch _ present := isSome_runOperations present operations
  keepsReplay _ := id
  newReplay _ := .inl

/-- An update of the replays keeps both tables. -/
theorem grows_of_isSome_eq {tables : ReplayTables} {replayTable : Replays}
    (same : ∀ matchId, (replayTable matchId).isSome = (tables.replayTable matchId).isSome) :
    tables.Grows { tables with replayTable } where
  keepsMatch _ := id
  keepsReplay matchId present := (same matchId).trans present
  newReplay matchId present := .inl ((same matchId).symm.trans present)

theorem ReplayStatement.execute_grows {now : Time} {matchId : MatchId}
    {tables after : ReplayTables} {statement : ReplayStatement}
    (executed : statement.execute now matchId tables = some after) : tables.Grows after := by
  cases statement with
  | ensureReplayRow priority =>
      obtain ⟨owned, ⟨⟩⟩ := Option.ite_none_right_eq_some.mp executed
      refine ⟨fun _ => id, fun _ present => Table.isSome_upsert_of_isSome present .., ?_⟩
      intro other present
      by_cases same : other = matchId
      · subst same
        exact .inr owned
      · simp only [DotaCollector.ensureReplayRow, Table.upsert_of_ne same] at present
        exact .inl present
  | copyReplayLocatorFromMatch =>
      simp only [execute] at executed
      split at executed
      · cases executed
        exact .refl tables
      · cases executed
        exact grows_of_isSome_eq fun _ => Table.isSome_update ..
  | updateReplay patch =>
      cases executed
      exact grows_of_isSome_eq fun _ => Table.isSome_update ..
  | markMatchReplayStatus mark error errorKind =>
      cases executed
      exact grows_runOperations tables [.markMatchReplayStatus now matchId mark error errorKind]
  | persistMatchRecord record seriesId =>
      cases executed
      exact grows_runOperations tables (persistOperations now record seriesId)

namespace ReplayState

/-- Every step keeps both tables. -/
theorem Step.grows {state after : ReplayState} {event : ReplayEvent}
    (step : state.Step event after) : state.toReplayTables.Grows after.toReplayTables := by
  cases step with
  | operation operation => exact grows_runOperations state.toReplayTables [operation]
  | start | read | reject | finish | stop => exact .refl _
  | write _ executed => exact ReplayStatement.execute_grows executed
  | claim | fail => exact grows_of_isSome_eq fun _ => Table.isSome_update ..
  | reclaimStale => exact grows_of_isSome_eq fun _ => Table.isSome_updateWhere ..
  | @publish _ matchId _ _ barracks =>
      have keeps := grows_runOperations state.toReplayTables [.publishMatch matchId barracks]
      exact
        { keepsMatch := keeps.keepsMatch
          keepsReplay := fun other present => by simpa [setParser] using present
          newReplay := fun other present => .inl (by simpa [setParser] using present) }

/-! ## The invariant -/

/-- Jobs leave the statuses of the parser alone, claimed matches have replay rows, and replay
rows have their matches. -/
structure WellFormed (state : ReplayState) : Prop where
  scripts : ∀ job found, state.jobs job = some found → LeavesParserStatuses found.script
  claimed : ∀ parser matchId phase, state.parsers parser = some (matchId, phase) →
    (state.replayTable matchId).isSome
  owned : ∀ matchId, (state.replayTable matchId).isSome → (state.matchTable matchId).isSome

theorem wellFormed_initial : initial.WellFormed where
  scripts _ _ found := by cases found
  claimed _ _ _ found := by cases found
  owned _ found := by cases found

/-- A job whose rest is the result of a step still leaves the parser's statuses alone. -/
theorem WellFormed.setJob_scripts {state : ReplayState} (wellFormed : state.WellFormed)
    {job : Nat} {next : Option ReplayJob}
    (leaves : ∀ found, next = some found → LeavesParserStatuses found.script) (other : Nat)
    (found : ReplayJob) (running : Function.update state.jobs job next other = some found) :
    LeavesParserStatuses found.script := by
  by_cases same : other = job
  · subst same
    rw [Function.update_self] at running
    exact leaves found running
  · rw [Function.update_of_ne same] at running
    exact wellFormed.scripts other found running

theorem WellFormed.step_scripts {state after : ReplayState} {event : ReplayEvent}
    (wellFormed : state.WellFormed) (step : state.Step event after) :
    ∀ job found, after.jobs job = some found → LeavesParserStatuses found.script := by
  cases step with
  | operation | claim | publish | fail | stop | reclaimStale => exact wellFormed.scripts
  | start =>
      refine wellFormed.setJob_scripts ?_
      rintro _ ⟨⟩
      exact ReplayJobCall.script_leaves ..
  | read running =>
      refine wellFormed.setJob_scripts ?_
      rintro _ ⟨⟩
      exact wellFormed.scripts _ _ running _
  | write running =>
      refine wellFormed.setJob_scripts ?_
      rintro _ ⟨⟩
      exact (wellFormed.scripts _ _ running).2
  | reject =>
      refine wellFormed.setJob_scripts ?_
      rintro _ ⟨⟩
      exact issues_throw
  | finish =>
      refine wellFormed.setJob_scripts ?_
      rintro _ ⟨⟩

/-- A parser worker in flight has claimed its match before, or claims it now. -/
theorem Step.parser_cases {state after : ReplayState} {event : ReplayEvent}
    (step : state.Step event after) {parser : Nat} {matchId : MatchId} {phase : ParserPhase}
    (working : after.parsers parser = some (matchId, phase)) :
    (∃ earlier, state.parsers parser = some (matchId, earlier)) ∨
      (state.replayTable matchId).isSome := by
  cases step with
  | operation | start | read | write | reject | finish | reclaimStale =>
      exact .inl ⟨phase, working⟩
  | @claim claimer claimed _ row idle found =>
      by_cases same : parser = claimer
      · subst same
        simp only [setParser, Function.update_self, Option.some_inj, Prod.mk.injEq] at working
        exact .inr (by rw [← working.1, found]; rfl)
      · simp only [setParser, Function.update_of_ne same] at working
        exact .inl ⟨phase, working⟩
  | @publish publisher published _ _ _ busy =>
      by_cases same : parser = publisher
      · subst same
        simp only [setParser, Function.update_self, Option.some_inj, Prod.mk.injEq] at working
        exact .inl ⟨.parsing, working.1 ▸ busy⟩
      · simp only [setParser, Function.update_of_ne same] at working
        exact .inl ⟨phase, working⟩
  | @fail failer _ _ _ _ busy =>
      by_cases same : parser = failer
      · subst same
        simp [setParser] at working
      · simp only [setParser, Function.update_of_ne same] at working
        exact .inl ⟨phase, working⟩
  | @stop stopper _ busy =>
      by_cases same : parser = stopper
      · subst same
        simp [setParser] at working
      · simp only [setParser, Function.update_of_ne same] at working
        exact .inl ⟨phase, working⟩

theorem WellFormed.step {state after : ReplayState} {event : ReplayEvent}
    (wellFormed : state.WellFormed) (step : state.Step event after) : after.WellFormed where
  scripts := wellFormed.step_scripts step
  claimed parser matchId phase working := by
    refine step.grows.keepsReplay matchId ?_
    rcases step.parser_cases working with ⟨earlier, before⟩ | present
    · exact wellFormed.claimed parser matchId earlier before
    · exact present
  owned matchId present := by
    refine step.grows.keepsMatch matchId ?_
    rcases step.grows.newReplay matchId present with before | here
    · exact wellFormed.owned matchId before
    · exact here

theorem wellFormed_run {state : ReplayState} {events : List ReplayEvent}
    (execution : Schedule.run next initial events = some state) : state.WellFormed :=
  Schedule.run_invariant (fun held step => held.step (step_of_next step)) wellFormed_initial
    execution

end ReplayState

end DotaCollector
