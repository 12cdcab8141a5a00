import DotaCollector.Matches.StatusOrder
import DotaCollector.Replays.Holder

/-!
# A parsed replay and its match

The parser's publication writes both rows in one transaction, but moves the match only from
three of its statuses, while the worker marks the match in a statement of its own, after the one
on the replay row. When the publication falls between the two, or meets a match marked as
unavailable, the replay is parsed and the match is not. Nothing else separates the rows: a
parsed match never leaves its status.
-/

namespace DotaCollector

open ReplayState

/-! ## A parsed match stays parsed -/

theorem parsed_onRow {row : MatchRow} (parsed : row.status = .parsed) (matchId : MatchId)
    (operation : Operation) : (operation.onRow matchId row).status = .parsed := by
  have stamped : row.DetailsStamped := fun ready => by
    rw [parsed] at ready
    cases ready
  have advanced := (advances_onRow matchId row operation stamped).2
  rw [parsed] at advanced
  cases status : (operation.onRow matchId row).status <;> simp_all [MatchStatus.rank]

/-- The row of a match is parsed. -/
def ParsedMatch (table : Matches) (matchId : MatchId) : Prop :=
  ∃ row, table matchId = some row ∧ row.status = .parsed

theorem ParsedMatch.runOperations {table : Matches} {matchId : MatchId}
    (parsed : ParsedMatch table matchId) (operations : List Operation) :
    ParsedMatch (runOperations table operations) matchId := by
  induction operations generalizing table with
  | nil => exact parsed
  | cons operation operations ih =>
      obtain ⟨row, found, status⟩ := parsed
      refine ih ⟨operation.onRow matchId row, operation.apply_eq_onRow found, ?_⟩
      exact parsed_onRow status matchId operation

namespace ReplayState

/-- A step of the system acts on the matches by operations. -/
theorem Step.exists_operations {state after : ReplayState} {event : ReplayEvent}
    (step : state.Step event after) :
    ∃ operations, after.matchTable = runOperations state.matchTable operations := by
  cases step with
  | operation operation => exact ⟨[operation], rfl⟩
  | start | read | reject | finish | claim | fail | stop | reclaimStale => exact ⟨[], rfl⟩
  | @publish _ matchId _ _ barracks => exact ⟨[.publishMatch matchId barracks], rfl⟩
  | @write job now target statement next tables running executed =>
      cases statement with
      | ensureReplayRow priority =>
          obtain ⟨-, ⟨⟩⟩ := Option.ite_none_right_eq_some.mp executed
          exact ⟨[], rfl⟩
      | copyReplayLocatorFromMatch =>
          simp only [ReplayStatement.execute] at executed
          split at executed <;> cases executed <;> exact ⟨[], rfl⟩
      | updateReplay patch =>
          cases executed
          exact ⟨[], rfl⟩
      | markMatchReplayStatus mark error errorKind =>
          cases executed
          exact ⟨[.markMatchReplayStatus now target mark error errorKind], rfl⟩
      | persistMatchRecord record seriesId =>
          cases executed
          exact ⟨persistOperations now record seriesId, rfl⟩

/-! ## Publications -/

/-- A publication moves a match to `parsed` exactly from the statuses it lists. -/
theorem publishSet_parsed_iff (barracks : Option (Int × Int)) (row : MatchRow) :
    (publishSet barracks row).status = .parsed ↔
      row.status ∈ publishableStatus ∨ row.status = .parsed := by
  simp only [publishSet]
  split
  · rename_i listed
    simp [listed]
  · rename_i unlisted
    simp [unlisted]

/-- A replay becomes finished only by its publication. -/
theorem finished_cases {state : ReplayState} {matchId : MatchId} {holder : ReplayHolder}
    {event : ReplayEvent}
    (finished : state.holderAfter matchId holder event = .finished) :
    holder = .finished ∨ ∃ parser now parserVersion barracks,
      event = .publish parser now parserVersion barracks ∧
        state.parsers parser = some (matchId, .parsing) := by
  cases event with
  | publish parser now parserVersion barracks =>
      simp only [holderAfter] at finished
      split at finished
      · exact .inr ⟨parser, now, parserVersion, barracks, rfl, ‹_›⟩
      · exact .inl finished
  | write | claim | fail | reclaimStale =>
      simp only [holderAfter] at finished
      split at finished
      · cases finished
      · exact .inl finished
  | _ => exact .inl finished

/-- Every finished replay has a parsed match. -/
def Agrees (state : ReplayState) : Prop :=
  ∀ matchId, state.holder matchId = .finished → ParsedMatch state.matchTable matchId

/-- The match which a publication is about to meet is in a status it moves. -/
def PublishesReady (state : ReplayState) : ReplayEvent → Prop
  | .publish parser _ _ _ => ∀ matchId row, state.parsers parser = some (matchId, .parsing) →
      state.matchTable matchId = some row →
      row.status ∈ publishableStatus ∨ row.status = .parsed
  | _ => True

theorem holder_eq_finished_iff {state : ReplayState} {matchId : MatchId} {replay : ReplayRow}
    (found : state.replayTable matchId = some replay) :
    state.holder matchId = .finished ↔ replay.status = .parsed := by
  rw [holder, rowHolder_of_eq found]
  cases replay.status <;> simp [ReplayStatus.holder]

theorem agrees_step_iff {state after : ReplayState} {event : ReplayEvent}
    (wellFormed : state.WellFormed) (agrees : state.Agrees)
    (step : state.next event = some after) : after.Agrees ↔ state.PublishesReady event := by
  have moved := step_of_next step
  constructor
  · intro agreesAfter
    cases moved with
    | @publish parser published now version barracks busy =>
        intro matchId row working foundRow
        rw [busy, Option.some_inj, Prod.mk.injEq] at working
        obtain ⟨rfl, -⟩ := working
        have finished := (step_of_next step).holder_eq wellFormed published
        simp only [holderAfter, busy, if_true] at finished
        obtain ⟨later, foundLater, parsed⟩ := agreesAfter published finished
        have written := (Operation.publishMatch published barracks).apply_eq_onRow foundRow
        have same := Option.some.inj (written.symm.trans foundLater)
        simp only [Operation.onRow, if_true] at same
        rw [← same] at parsed
        exact (publishSet_parsed_iff barracks row).mp parsed
    | _ => trivial
  · intro ready matchId finished
    rw [moved.holder_eq wellFormed matchId] at finished
    rcases finished_cases finished with before | ⟨parser, now, version, barracks, rfl, working⟩
    · obtain ⟨operations, changed⟩ := moved.exists_operations
      rw [changed]
      exact (agrees matchId before).runOperations operations
    · cases moved with
      | @publish _ published _ _ _ busy =>
          rw [busy, Option.some_inj, Prod.mk.injEq] at working
          obtain ⟨rfl, -⟩ := working
          have owned := wellFormed.owned _ (wellFormed.claimed _ _ _ busy)
          obtain ⟨row, found⟩ := Option.isSome_iff_exists.mp owned
          have written := (Operation.publishMatch published barracks).apply_eq_onRow found
          simp only [Operation.onRow, if_true] at written
          have parsed := (publishSet_parsed_iff barracks row).mpr (ready published row busy found)
          exact ⟨_, written, parsed⟩

/-! ## Runs -/

theorem agrees_iff (state : ReplayState) :
    state.Agrees ↔ ∀ matchId replay, state.replayTable matchId = some replay →
      replay.status = .parsed → ParsedMatch state.matchTable matchId := by
  constructor
  · intro agrees matchId replay found parsed
    exact agrees matchId ((holder_eq_finished_iff found).mpr parsed)
  · intro rows matchId finished
    rcases Option.eq_none_or_eq_some (state.replayTable matchId) with absent | ⟨replay, found⟩
    · rw [holder, rowHolder_of_none absent] at finished
      cases finished
    · exact rows matchId replay found ((holder_eq_finished_iff found).mp finished)

/-- Along a run every parsed replay has a parsed match, in every state visited, exactly when every
publication of the run finds the match in one of the statuses it moves, or parsed already. -/
theorem parsed_replay_has_parsed_match_iff (events : List ReplayEvent) :
    (∀ visited state, visited <+: events →
      Schedule.run next initial visited = some state →
      ∀ matchId replay, state.replayTable matchId = some replay → replay.status = .parsed →
        ∃ row, state.matchTable matchId = some row ∧ row.status = .parsed) ↔
      ∀ before parser now parserVersion barracks state after,
        before ++ [.publish parser now parserVersion barracks] <+: events →
        Schedule.run next initial before = some state →
        state.next (.publish parser now parserVersion barracks) = some after →
        ∀ matchId row, state.parsers parser = some (matchId, .parsing) →
          state.matchTable matchId = some row →
          row.status ∈ publishableStatus ∨ row.status = .parsed := by
  constructor
  · intro agrees before parser now version barracks state after within execution step
    have here : state.Agrees := (agrees_iff state).mpr
      (agrees before state ((List.prefix_append _ _).trans within) execution)
    have there : after.Agrees := (agrees_iff after).mpr
      (agrees _ after within (Schedule.run_snoc execution step))
    exact (agrees_step_iff (wellFormed_run execution) here step).mp there
  · intro ready visited state within execution
    refine (agrees_iff state).mp ?_
    induction visited using List.reverseRecOn generalizing state with
    | nil =>
        cases execution
        intro matchId finished
        cases finished
    | append_singleton before event ih =>
        obtain ⟨middle, front, step⟩ := Schedule.run_snoc_eq_some.mp execution
        have agrees := ih middle ((List.prefix_append _ _).trans within) front
        refine (agrees_step_iff (wellFormed_run front) agrees step).mpr ?_
        cases event with
        | publish parser now version barracks =>
            exact ready before parser now version barracks middle state within front step
        | _ => trivial

/-- The first account of the coordinator may not see match 7, and the match is given up. -/
def refusedDetails : List ReplayEvent :=
  [.start 0 7 (.fetchMatchDetails
      { storedElsewhere with
        requestMatchReplayLocator := .details ⟨15, none, some 20, none⟩ } none),
    .read 0, .write 0 1, .write 0 2, .read 0, .write 0 3, .write 0 4, .finish 0]

/-- A later account sees the given up match and its replay is adopted; the parser publishes between
the two writes of the adoption. At the end no step is in progress, the replay is parsed, and the
match is not. -/
theorem adoption_overtaken_by_publication :
    ∃ state, Schedule.run next initial
        (discovered :: refusedDetails ++ adoptedReplay ++
          [.claim 0 7 6, .publish 0 7 1 none, .stop 0, .write 0 8, .finish 0]) = some state ∧
      state.Quiescent ∧
      ¬ ∀ matchId replay, state.replayTable matchId = some replay → replay.status = .parsed →
        ∃ row, state.matchTable matchId = some row ∧ row.status = .parsed := by
  refine ⟨_, rfl, ⟨fun job => ?_, fun parser => ?_⟩, fun agrees => ?_⟩
  · simp [setJob, setParser, initial]
  · simp [setJob, setParser, initial]
  · obtain ⟨row, found, parsed⟩ := agrees 7 _ rfl rfl
    cases found
    cases parsed

end ReplayState

end DotaCollector
