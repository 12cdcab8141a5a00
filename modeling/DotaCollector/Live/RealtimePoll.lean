import DotaCollector.Library.Schedule
import DotaCollector.Matches.Operations

/-!
# The realtime poll

`poll_realtime_stats` asks for the statistics of the live matches with a server, those first whose
statistics are the oldest, until its deadline. Data which has come moves the match it is about to
the end of the listing; a match which turns out not to be a league match loses its server and with
it its place. After any other error nothing is written.
-/

namespace DotaCollector
namespace Live
namespace RealtimePoll

/-- What a call comes to. -/
inductive Outcome where
  /-- Data of a league match: its id, if it has one, the columns for `touchMatchLive`, and the
  game time. -/
  | data (matchId : Option MatchId) (facts : Facts) (gameTime : ℚ)
  /-- A league id which is not positive, or a `PublicMatchError`. -/
  | publicMatch
  /-- An empty body, any other error, or a transaction which was rolled back. -/
  | failed

/-- The outcomes which take the target's server away. -/
def Outcome.clears : Outcome → Bool
  | .publicMatch => true
  | .data _ _ _ | .failed => false

/-- A call which is made before the deadline, and the time it takes. -/
structure Call where
  elapsed : Nat := 0
  outcome : Outcome

/-- The ids of the rows, the rows, and the clock of the database. -/
structure State where
  ids : List MatchId
  table : Matches
  clock : Time := 0

/-- `ORDER BY last_realtime_at NULLS FIRST, match_id`. -/
def realtimeOrder (left right : Option Int × Nat) : Bool :=
  match left.1, right.1 with
  | none, none => left.2 ≤ right.2
  | none, some _ => true
  | some _, none => false
  | some first, some second => first < second || (first = second && left.2 ≤ right.2)

namespace State

/-- `status = 'live' AND server_steam_id IS NOT NULL`. -/
def listed (state : State) (matchId : MatchId) : Bool :=
  (state.table matchId).any fun row => row.status = .live && (row.facts .serverSteamId).isSome

def lastRealtimeAt (state : State) (matchId : MatchId) : Option Time :=
  (state.table matchId).bind MatchRow.lastRealtimeAt

def before (state : State) (left right : MatchId) : Bool :=
  realtimeOrder (state.lastRealtimeAt left, left) (state.lastRealtimeAt right, right)

/-- The rows of the query, without its limit. -/
def listing (state : State) : List MatchId := (state.ids.filter state.listed).mergeSort state.before

end State

def listLiveRealtimeTargets (state : State) (limit : Nat) : List MatchId :=
  state.listing.take limit

/-- The match whose data a call for a target has brought. -/
def Call.touched (target : MatchId) (call : Call) : Option MatchId :=
  match call.outcome with
  | .data matchId _ _ => some (matchId.getD target)
  | .publicMatch | .failed => none

/-- The statements on `matches` of the transaction which writes data of a match. -/
def dataTable (table : Matches) (now : Time) (matchId : MatchId) (facts : Facts) (gameTime : ℚ) :
    Matches :=
  noteLiveClock
    (touchRealtimeSeen (touchMatchLive table now { matchId, facts, ingest := .topLive }) now
      matchId)
    matchId gameTime

/-- One turn of the loop; the statements carry the time at which the call has returned. -/
def pollTarget (state : State) (target : MatchId) (call : Call) : State :=
  let now := state.clock + call.elapsed + 1
  match call.outcome with
  | .data matchId facts gameTime =>
      let matchId := matchId.getD target
      { ids := if matchId ∈ state.ids then state.ids else state.ids ++ [matchId]
        table := dataTable state.table now matchId facts gameTime
        clock := now }
  | .publicMatch => { state with table := clearServerSteamId state.table target, clock := now }
  | .failed => { state with clock := now }

def pollTargets (state : State) (scanned : List (MatchId × Call)) : State :=
  scanned.foldl (fun state turn => pollTarget state turn.1 turn.2) state

/-- The targets which a tick scans, each with its call. -/
def scans (state : State) (calls : List Call) : List (MatchId × Call) :=
  (listLiveRealtimeTargets state 200).zip calls

def runPollRealtimeStats (state : State) (calls : List Call) : State :=
  pollTargets state (scans state calls)

/-- A tick is always possible. -/
def next (state : State) (calls : List Call) : Option State :=
  some (runPollRealtimeStats state calls)

/-! ## Properties -/

/-- The targets which a tick scans. -/
def scanned (state : State) (calls : List Call) : List MatchId := (scans state calls).map Prod.fst

/-- What the tick has scanned and is still listed sorts behind whatever else is listed. -/
def Fair (state : State) (calls : List Call) : Prop :=
  let after := runPollRealtimeStats state calls
  ∀ target ∈ scanned state calls, target ∈ after.listing →
    ∀ other ∈ after.listing, other ∉ scanned state calls → after.before target other = false

/-- The matches whose data the calls have brought. -/
def touched (turns : List (MatchId × Call)) : List MatchId :=
  turns.filterMap fun turn => turn.2.touched turn.1

/-- Each scanned target is no league match, or some call of the tick has brought its data. -/
def Answered (state : State) (calls : List Call) : Prop :=
  ∀ turn ∈ scans state calls, turn.2.outcome.clears = true ∨
    turn.1 ∈ touched (scans state calls)

/-- Each row is listed once, and no data is of a later time than the clock's. -/
structure WellFormed (state : State) : Prop where
  nodup : state.ids.Nodup
  complete : ∀ matchId, (state.table matchId).isSome → matchId ∈ state.ids
  past : ∀ matchId, ∀ time ∈ state.lastRealtimeAt matchId, time ≤ state.clock

/-! ## One call -/

variable {state : State} {target matchId : MatchId} {call : Call}

theorem dataTable_of_ne {touched : MatchId} (ne : matchId ≠ touched) (table : Matches) (now : Time)
    (facts : Facts) (gameTime : ℚ) :
    dataTable table now touched facts gameTime matchId = table matchId := by
  unfold dataTable noteLiveClock
  split_ifs <;> simp [touchRealtimeSeen, touchMatchLive, ne]

/-- A live match with a server stays one behind its data. -/
theorem listed_merge (now : Time) (sighting : LiveSighting) {row : MatchRow}
    (live : row.status = .live) (server : (row.facts .serverSteamId).isSome = true) :
    (sighting.merge now row).status = .live ∧
      ((sighting.merge now row).facts .serverSteamId).isSome = true := by
  constructor
  · simp [LiveSighting.merge, liveSightingResumeSet, live]
  · simp only [LiveSighting.merge, Facts.overwrite, liveCols]
    cases sighting.facts .serverSteamId with
    | none => simpa using server
    | some id => simp

theorem dataTable_self (matchId : MatchId) (table : Matches) (now : Time) (facts : Facts)
    (gameTime : ℚ) :
    ∃ row, dataTable table now matchId facts gameTime matchId = some row ∧
      row.lastRealtimeAt = some now ∧
      ∀ old, table matchId = some old → old.status = .live →
        (old.facts .serverSteamId).isSome = true →
          row.status = .live ∧ (row.facts .serverSteamId).isSome = true := by
  let sighting : LiveSighting := { matchId, facts, ingest := .topLive }
  let row := ((table matchId).map (sighting.merge now)).getD (sighting.fresh now)
  have kept : ∀ old, table matchId = some old → old.status = .live →
      (old.facts .serverSteamId).isSome = true →
        row.status = .live ∧ (row.facts .serverSteamId).isSome = true := by
    intro old found live server
    have merged : row = sighting.merge now old := by simp [row, found]
    rw [merged]
    exact listed_merge now sighting live server
  have seen : touchRealtimeSeen (touchMatchLive table now sighting) now matchId matchId =
      some (row.seenRealtime now) := by
    rw [touchRealtimeSeen, Table.update_self, touchMatchLive, Table.upsert_self]
    rfl
  unfold dataTable noteLiveClock
  split_ifs
  · refine ⟨(row.seenRealtime now).noteClock gameTime, ?_, rfl, kept⟩
    rw [Table.update_self, seen]
    rfl
  · exact ⟨row.seenRealtime now, seen, rfl, kept⟩

/-- Data stamps the match it is about, and nothing else. -/
theorem lastRealtimeAt_pollTarget : (pollTarget state target call).lastRealtimeAt matchId =
    if call.touched target = some matchId then some (state.clock + call.elapsed + 1)
    else state.lastRealtimeAt matchId := by
  obtain ⟨elapsed, outcome⟩ := call
  cases outcome with
  | data named facts gameTime =>
      change (dataTable state.table (state.clock + elapsed + 1) (named.getD target) facts gameTime
        matchId).bind MatchRow.lastRealtimeAt = _
      simp only [Call.touched, Option.some.injEq]
      rcases eq_or_ne (named.getD target) matchId with rfl | ne
      · obtain ⟨row, found, stamped, -⟩ := dataTable_self (named.getD target) state.table
          (state.clock + elapsed + 1) facts gameTime
        rw [found, if_pos rfl]
        exact stamped
      · rw [dataTable_of_ne ne.symm, if_neg ne]
        rfl
  | publicMatch =>
      change (clearServerSteamId state.table target matchId).bind MatchRow.lastRealtimeAt = _
      rw [clearServerSteamId]
      rcases eq_or_ne matchId target with rfl | ne
      · rw [Table.update_self, State.lastRealtimeAt]
        cases state.table matchId <;> rfl
      · rw [Table.update_of_ne ne]
        rfl
  | failed => rfl

theorem clock_pollTarget :
    (pollTarget state target call).clock = state.clock + call.elapsed + 1 := by
  unfold pollTarget
  split <;> rfl

theorem listed_iff : state.listed matchId = true ↔
    ∃ row, state.table matchId = some row ∧ row.status = .live ∧
      (row.facts .serverSteamId).isSome = true := by
  rw [State.listed, Option.any_eq_true]
  simp

/-- A match stays listed unless its own call clears its server. -/
theorem listed_pollTarget (listed : state.listed matchId = true)
    (uncleared : target = matchId → call.outcome.clears = false) :
    (pollTarget state target call).listed matchId = true := by
  obtain ⟨old, found, live, server⟩ := listed_iff.mp listed
  obtain ⟨elapsed, outcome⟩ := call
  rw [listed_iff]
  cases outcome with
  | data named facts gameTime =>
      change ∃ row, dataTable state.table (state.clock + elapsed + 1) (named.getD target) facts
        gameTime matchId = some row ∧ _
      rcases eq_or_ne (named.getD target) matchId with rfl | ne
      · obtain ⟨row, stored, -, kept⟩ := dataTable_self (named.getD target) state.table
          (state.clock + elapsed + 1) facts gameTime
        exact ⟨row, stored, kept old found live server⟩
      · rw [dataTable_of_ne ne.symm]
        exact ⟨old, found, live, server⟩
  | publicMatch =>
      have ne : matchId ≠ target := by
        rintro rfl
        cases uncleared rfl
      refine ⟨old, ?_, live, server⟩
      change clearServerSteamId state.table target matchId = some old
      rw [clearServerSteamId, Table.update_of_ne ne]
      exact found
  | failed => exact ⟨old, found, live, server⟩

/-- Only data of a match puts it on the list. -/
theorem listed_of_pollTarget (untouched : call.touched target ≠ some matchId)
    (listed : (pollTarget state target call).listed matchId = true) :
    state.listed matchId = true ∧ (target = matchId → call.outcome.clears = false) := by
  obtain ⟨row, found, live, server⟩ := listed_iff.mp listed
  rw [listed_iff]
  obtain ⟨elapsed, outcome⟩ := call
  cases outcome with
  | data named facts gameTime =>
      have ne : matchId ≠ named.getD target := fun same => untouched (congrArg some same.symm)
      change dataTable state.table (state.clock + elapsed + 1) (named.getD target) facts gameTime
        matchId = some row at found
      rw [dataTable_of_ne ne] at found
      exact ⟨⟨row, found, live, server⟩, fun _ => rfl⟩
  | publicMatch =>
      change clearServerSteamId state.table target matchId = some row at found
      rw [clearServerSteamId] at found
      rcases eq_or_ne matchId target with rfl | ne
      · rw [Table.update_self] at found
        obtain ⟨old, -, rfl⟩ := Option.map_eq_some_iff.mp found
        simp [MatchRow.clearServer] at server
      · rw [Table.update_of_ne ne] at found
        exact ⟨⟨row, found, live, server⟩, fun same => (ne same.symm).elim⟩
  | failed => exact ⟨⟨row, found, live, server⟩, fun _ => rfl⟩

end RealtimePoll
end Live
end DotaCollector
