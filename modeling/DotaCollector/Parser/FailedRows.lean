import DotaCollector.Library.Schedule
import DotaCollector.Replays.Row

/-!
# What becomes of a failed parse

The parser's own statements over any number of rows: a claim takes the next stored row, its worker
fails or publishes it or stops without a word, and a stale claim is released. Only a row in status
`parsing` is released, and only a row in status `stored` is claimed.
-/

namespace DotaCollector
namespace Parser
namespace FailedRows

/-- The matches in the order of their rows' ids, the rows, and the match each worker handles. -/
structure State where
  ids : List MatchId
  table : Replays
  jobs : Nat → Option MatchId := fun _ => none

/-- `locked` are the rows which other transactions hold at the moment of a claim. A worker which
stops has crashed, or its `Fail` or `Publish` had no effect. -/
inductive Event where
  | claim (worker : Nat) (now : Time) (locked : List MatchId)
  | fail (worker : Nat) (now : Time) (message : String)
  | publish (worker : Nat) (now : Time) (parserVersion : Int)
  | stop (worker : Nat)
  | reclaimStale (now olderThan : Time)

/-- `ORDER BY priority ASC, stored_at ASC NULLS LAST`; `live` is the first value of its type. -/
def claimsBefore (left right : ReplayRow) : Bool :=
  if left.priority = right.priority then
    match left.storedAt, right.storedAt with
    | _, none => true
    | none, some _ => false
    | some left, some right => left ≤ right
  else left.priority = .live

namespace State

/-- The rows which a claim may take, by id. -/
def candidates (state : State) (locked : List MatchId) : List (MatchId × ReplayRow) :=
  state.ids.filterMap fun matchId =>
    ((state.table matchId).filter fun row => row.claimable && matchId ∉ locked).map
      fun row => (matchId, row)

/-- The row which a claim takes. -/
def claimed (state : State) (locked : List MatchId) : Option MatchId :=
  ((state.candidates locked).mergeSort fun left right => claimsBefore left.2 right.2).head?.map
    Prod.fst

def setJob (state : State) (worker : Nat) (job : Option MatchId) : State :=
  { state with jobs := Function.update state.jobs worker job }

/-- `UPDATE match_replays SET … WHERE match_id = …`. -/
def updateReplay (state : State) (matchId : MatchId) (set : ReplayRow → ReplayRow) : State :=
  { state with table := state.table.update matchId set }

end State

def next (state : State) : Event → Option State
  | .claim worker now locked =>
      match state.jobs worker, state.claimed locked with
      | none, some matchId =>
          some ((state.updateReplay matchId (ReplayRow.claim now)).setJob worker (some matchId))
      | _, _ => none
  | .fail worker now message =>
      (state.jobs worker).map fun matchId =>
        (state.updateReplay matchId (ReplayRow.fail now message)).setJob worker none
  | .publish worker now parserVersion =>
      (state.jobs worker).map fun matchId =>
        (state.updateReplay matchId (ReplayRow.publish now parserVersion)).setJob worker none
  | .stop worker => some (state.setJob worker none)
  | .reclaimStale now olderThan =>
      some { state with table := DotaCollector.reclaimStale state.table now olderThan }

/-! ## The last operation on a row -/

inductive Operation where
  | claim
  | fail
  | publish
  | reclaimStale
  deriving DecidableEq

def noteOperation (last : MatchId → Option Operation) (operation : Operation) :
    Option MatchId → MatchId → Option Operation
  | some matchId => Function.update last matchId (some operation)
  | none => last

/-- The last operation of the parser on each row, behind one more step. -/
def lastOperation (state : State) (event : Event) (last : MatchId → Option Operation) :
    MatchId → Option Operation :=
  match event with
  | .claim _ _ locked => noteOperation last .claim (state.claimed locked)
  | .fail worker _ _ => noteOperation last .fail (state.jobs worker)
  | .publish worker _ _ => noteOperation last .publish (state.jobs worker)
  | .stop _ => last
  | .reclaimStale now olderThan => fun matchId =>
      if (state.table matchId).any (·.stale now olderThan) then some .reclaimStale
      else last matchId

/-- Some continuation of parser steps ends in a claim which returns the row. -/
def ComesBack (state : State) (matchId : MatchId) : Prop :=
  Schedule.Leads next (fun _ _ => True) (fun final => ∃ worker now locked after,
    final.claimed locked = some matchId ∧ next final (.claim worker now locked) = some after) state

/-! ## One step -/

variable {state after : State} {event : Event} {matchId : MatchId} {locked : List MatchId}

theorem claimable_of_claimed (taken : state.claimed locked = some matchId) :
    ∃ row, state.table matchId = some row ∧ row.claimable = true := by
  obtain ⟨⟨_, row⟩, first, rfl⟩ := Option.map_eq_some_iff.mp taken
  have member := List.mem_mergeSort.mp (List.mem_of_head? first)
  obtain ⟨id, -, chosen⟩ := List.mem_filterMap.mp member
  obtain ⟨found, filtered, pair⟩ := Option.map_eq_some_iff.mp chosen
  cases pair
  obtain ⟨present, free⟩ := Option.filter_eq_some_iff.mp filtered
  rw [Bool.and_eq_true] at free
  exact ⟨row, present, free.1⟩

/-- The row is failed or parsed. -/
def Closed (matchId : MatchId) (state : State) : Prop :=
  ∀ row, state.table matchId = some row → row.status = .failed ∨ row.status = .parsed

/-- A failed or parsed row is not claimed. -/
theorem Closed.claimed_ne (closed : Closed matchId state) :
    state.claimed locked ≠ some matchId := by
  intro taken
  obtain ⟨row, found, claimable⟩ := claimable_of_claimed taken
  simp only [ReplayRow.claimable, Bool.and_eq_true, decide_eq_true_eq] at claimable
  rcases closed row found with status | status
  · rw [status] at claimable
    cases claimable.1
  · rw [status] at claimable
    cases claimable.1

/-- An `UPDATE` keeps a row closed when it is of another row, or closes this one. -/
theorem Closed.updateReplay {other : MatchId} {set : ReplayRow → ReplayRow}
    (closed : Closed matchId state)
    (closes : other = matchId → ∀ row, (set row).status = .failed ∨ (set row).status = .parsed) :
    Closed matchId (state.updateReplay other set) := by
  intro row found
  change state.table.update other set matchId = some row at found
  rcases eq_or_ne matchId other with rfl | ne
  · rw [Table.update_self] at found
    obtain ⟨before, -, rfl⟩ := Option.map_eq_some_iff.mp found
    exact closes rfl before
  · rw [Table.update_of_ne ne] at found
    exact closed row found

theorem Closed.next (closed : Closed matchId state) (step : next state event = some after) :
    Closed matchId after := by
  cases event with
  | claim worker now locked =>
      simp only [FailedRows.next] at step
      split at step
      · rename_i other _ taken
        cases step
        refine closed.updateReplay fun same => ?_
        rw [same] at taken
        exact (closed.claimed_ne taken).elim
      · cases step
  | fail worker now message =>
      obtain ⟨other, -, rfl⟩ := Option.map_eq_some_iff.mp step
      exact closed.updateReplay fun _ _ => .inl rfl
  | publish worker now parserVersion =>
      obtain ⟨other, -, rfl⟩ := Option.map_eq_some_iff.mp step
      exact closed.updateReplay fun _ _ => .inr rfl
  | stop worker =>
      cases step
      exact closed
  | reclaimStale now olderThan =>
      cases step
      intro row found
      obtain ⟨before, present, rfl⟩ := Option.map_eq_some_iff.mp found
      have fresh : before.stale now olderThan = false := by
        rcases closed before present with status | status <;> simp [ReplayRow.stale, status]
      simpa [fresh] using closed before present

/-- No continuation claims a closed row. -/
theorem Closed.not_comesBack (closed : Closed matchId state) : ¬ ComesBack state matchId := by
  rintro ⟨continuation, final, -, execution, worker, now, locked, after, taken, -⟩
  have still : Closed matchId final :=
    Schedule.run_invariant (fun closed step => closed.next step) closed execution
  exact still.claimed_ne taken

/-! ## Every run -/

theorem closed_of_fail {worker : Nat} {now : Time} {message : String}
    (job : state.jobs worker = some matchId)
    (step : next state (.fail worker now message) = some after) : Closed matchId after := by
  simp only [next, job, Option.map_some, Option.some.injEq] at step
  subst step
  intro row found
  change state.table.update matchId (ReplayRow.fail now message) matchId = some row at found
  rw [Table.update_self] at found
  obtain ⟨before, -, rfl⟩ := Option.map_eq_some_iff.mp found
  exact .inl rfl

theorem noteOperation_eq_some {last : MatchId → Option Operation}
    {operation noted : Operation} {row : Option MatchId}
    (found : noteOperation last operation row matchId = some noted) :
    last matchId = some noted ∨ row = some matchId ∧ operation = noted := by
  cases row with
  | none => exact .inl found
  | some other =>
      rw [noteOperation] at found
      rcases eq_or_ne matchId other with rfl | ne
      · rw [Function.update_self] at found
        exact .inr ⟨rfl, Option.some.inj found⟩
      · rw [Function.update_of_ne ne] at found
        exact .inl found

/-- A row on which the last operation is `Fail` had it before, or has it by this step. -/
theorem lastOperation_eq_fail {last : MatchId → Option Operation}
    (failed : lastOperation state event last matchId = some .fail) :
    last matchId = some .fail ∨
      ∃ worker now message, event = .fail worker now message ∧
        state.jobs worker = some matchId := by
  cases event with
  | claim worker now locked =>
      exact (noteOperation_eq_some failed).imp_right fun ⟨_, other⟩ => by cases other
  | publish worker now parserVersion =>
      exact (noteOperation_eq_some failed).imp_right fun ⟨_, other⟩ => by cases other
  | fail worker now message =>
      refine (noteOperation_eq_some failed).imp_right ?_
      rintro ⟨job, -⟩
      exact ⟨worker, now, message, rfl, job⟩
  | stop worker => exact .inl failed
  | reclaimStale now olderThan =>
      simp only [lastOperation] at failed
      split at failed
      · cases failed
      · exact .inl failed

/-- The rows on which the last operation was `Fail` are closed. -/
def FailedClosed (observed : State × (MatchId → Option Operation)) : Prop :=
  ∀ matchId, observed.2 matchId = some .fail → Closed matchId observed.1

theorem FailedClosed.next {observed later : State × (MatchId → Option Operation)}
    (held : FailedClosed observed)
    (step : Schedule.observe next lastOperation observed event = some later) :
    FailedClosed later := by
  obtain ⟨moved, noted⟩ := Schedule.observe_eq_some.mp step
  intro matchId failed
  rw [← noted] at failed
  rcases lastOperation_eq_fail failed with before | ⟨worker, now, message, rfl, job⟩
  · exact (held matchId before).next moved
  · exact closed_of_fail job moved

theorem failedClosed_run {start : State} {events : List Event}
    {observed : State × (MatchId → Option Operation)}
    (execution : Schedule.run (Schedule.observe next lastOperation) (start, fun _ => none) events =
      some observed) : FailedClosed observed :=
  Schedule.run_invariant (fun held step => FailedClosed.next held step)
    (fun _ failed => by cases failed) execution

/-- From any rows, in every state the parser reaches, a row on which its last operation was
`Fail` is claimed in no continuation of parser steps. -/
theorem failed_row_never_comes_back (start final : State) (events : List Event)
    (last : MatchId → Option Operation) (matchId : MatchId)
    (execution : Schedule.run (Schedule.observe next lastOperation) (start, fun _ => none) events =
      some (final, last))
    (failed : last matchId = some .fail) : ¬ ComesBack final matchId :=
  (failedClosed_run execution matchId failed).not_comesBack

/-- One stored row. -/
def oneStored : State where
  ids := [7]
  table matchId :=
    if matchId = 7 then some { status := .stored, s3Key := some "7.dem.bz2" } else none

theorem claimed_oneStored : oneStored.claimed [] = some 7 := by
  have candidates : oneStored.candidates [] =
      [(7, { status := .stored, s3Key := some "7.dem.bz2" })] := rfl
  rw [State.claimed, candidates]
  simp

/-- A claim, and a demo which breaks off. -/
theorem run_oneStored : ∃ final last,
    Schedule.run (Schedule.observe next lastOperation) (oneStored, fun _ => none)
      [.claim 0 10 [], .fail 0 20 "unexpected EOF"] = some (final, last) ∧
    last 7 = some .fail ∧ (final.table 7).map (·.status) = some .failed := by
  have claim : next oneStored (.claim 0 10 []) =
      some ((oneStored.updateReplay 7 (ReplayRow.claim 10)).setJob 0 (some 7)) := by
    simp only [next, claimed_oneStored]
    rfl
  refine ⟨_, _, Schedule.run_cons_eq_some.mpr ⟨_, Schedule.observe_eq_some.mpr ⟨claim, rfl⟩,
    Schedule.run_cons_eq_some.mpr ⟨_, Schedule.observe_eq_some.mpr ⟨rfl, rfl⟩, rfl⟩⟩, rfl, rfl⟩

theorem broken_parse_never_comes_back : ∃ final last,
    Schedule.run (Schedule.observe next lastOperation) (oneStored, fun _ => none)
      [.claim 0 10 [], .fail 0 20 "unexpected EOF"] = some (final, last) ∧
    last 7 = some .fail ∧ ¬ ComesBack final 7 := by
  obtain ⟨final, last, execution, failed, -⟩ := run_oneStored
  exact ⟨final, last, execution, failed,
    failed_row_never_comes_back oneStored final _ last 7 execution failed⟩

/-- The row is failed, and it is not claimed even where nothing else is left to claim and any time
passes. -/
theorem failed_row_is_lost : ∃ final last,
    Schedule.run (Schedule.observe next lastOperation) (oneStored, fun _ => none)
      [.claim 0 10 [], .fail 0 20 "unexpected EOF"] = some (final, last) ∧
    (final.table 7).map (·.status) = some .failed ∧ ¬ ComesBack final 7 := by
  obtain ⟨final, last, execution, failed, status⟩ := run_oneStored
  exact ⟨final, last, execution, status, (failedClosed_run execution 7 failed).not_comesBack⟩

/-! ## A parse which stopped -/

theorem mem_candidates {row : ReplayRow} : (matchId, row) ∈ state.candidates locked ↔
    matchId ∈ state.ids ∧ state.table matchId = some row ∧ row.claimable = true ∧
      matchId ∉ locked := by
  simp only [State.candidates, List.mem_filterMap, Option.map_eq_some_iff,
    Option.filter_eq_some_iff, Bool.and_eq_true, decide_eq_true_eq, Prod.mk.injEq]
  constructor
  · rintro ⟨_, listed, _, ⟨found, free⟩, rfl, rfl⟩
    exact ⟨listed, found, free⟩
  · rintro ⟨listed, found, free⟩
    exact ⟨matchId, listed, row, ⟨found, free⟩, rfl, rfl⟩

/-- A claimable row is the next one when all others are locked. -/
theorem claimed_of_others_locked {row : ReplayRow} (listed : matchId ∈ state.ids)
    (found : state.table matchId = some row) (free : row.claimable = true) :
    state.claimed (state.ids.filter (· ≠ matchId)) = some matchId := by
  have member : (matchId, row) ∈ state.candidates (state.ids.filter (· ≠ matchId)) :=
    mem_candidates.mpr ⟨listed, found, free, by simp⟩
  rw [State.claimed]
  cases first : ((state.candidates (state.ids.filter (· ≠ matchId))).mergeSort
      fun left right => claimsBefore left.2 right.2).head? with
  | none =>
      have empty := List.head?_eq_none_iff.mp first
      rw [← List.mem_mergeSort, empty] at member
      cases member
  | some candidate =>
      obtain ⟨id, other⟩ := candidate
      have within := mem_candidates.mp (List.mem_mergeSort.mp (List.mem_of_head? first))
      have same : id = matchId := by
        by_contra ne
        exact within.2.2.2 (List.mem_filter.mpr ⟨within.1, by simpa using ne⟩)
      rw [same]
      rfl

/-- A row whose worker has stopped without a word does come back. -/
theorem comesBack_of_parsing {row : ReplayRow} (listed : matchId ∈ state.ids)
    (found : state.table matchId = some row) (parsing : row.status = .parsing)
    (located : (asString row.s3Key).isSome = true) : ComesBack state matchId := by
  let now := row.updatedAt + 1
  let released : State := { state.setJob 0 none with
    table := DotaCollector.reclaimStale state.table now 0 }
  have stale : row.stale now 0 = true := by
    simp only [ReplayRow.stale, parsing, now]
    simp
  have present : released.table matchId = some (row.reclaim now) := by
    simp [released, DotaCollector.reclaimStale, Table.updateWhere, found, stale]
  have free : (row.reclaim now).claimable = true := by
    simp [ReplayRow.claimable, ReplayRow.reclaim, located]
  have taken : released.claimed (released.ids.filter (· ≠ matchId)) = some matchId :=
    claimed_of_others_locked listed present free
  refine .step (.stop 0) trivial rfl (.step (.reclaimStale now 0) trivial rfl (.here ?_))
  have idle : released.jobs 0 = none := by simp [released, State.setJob]
  have step : next released (.claim 0 now (released.ids.filter (· ≠ matchId))) =
      some ((released.updateReplay matchId (ReplayRow.claim now)).setJob 0 (some matchId)) := by
    simp only [next, idle, taken]
  exact ⟨0, now, _, _, taken, step⟩

end FailedRows
end Parser
end DotaCollector
