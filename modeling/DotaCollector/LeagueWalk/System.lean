import Mathlib.Data.List.Infix
import DotaCollector.Library.Paging
import DotaCollector.Library.Processes
import DotaCollector.Library.Schedule
import DotaCollector.Matches.Row

/-!
# The walk of a league's history

Runs of the walk on one league read its row, fetch the newest page of its listing or a page from
the tail on, persist the page, and write the row. A step of the system is one of these statements
of one run, a reset, a match which the service lists, or the clock. Runs overlap as they like: the
walker and `process_league` are different jobs.
-/

namespace DotaCollector
namespace LeagueWalk

open Paging (Page)

/-- A listed match. -/
structure HistoryMatch where
  match_id : MatchId
  match_seq_num : Option Nat := none
  deriving DecidableEq

/-- The columns of a `leagues` row which the walk reads and writes. -/
structure LeagueRow where
  history_tail_match_id : Option MatchId := none
  history_exhausted : Bool := false
  last_match_seq_num : Option Nat := none
  history_checked_at : Option Time := none
  deriving DecidableEq

/-- The settings of the walk, and the size of the pages which the service returns. -/
structure Settings where
  historyNewestRefreshMs : Int
  historyExhaustedRefreshMs : Int
  pageSize : Nat

/-- What a run knows from the row: the tail, and whether the newest page is due. -/
structure Plan where
  tail : Option MatchId
  refreshNewest : Bool
  deriving DecidableEq

/-- Where the page of a run starts. -/
def Plan.startAtMatchId (plan : Plan) : Option MatchId :=
  if plan.refreshNewest then none else plan.tail

/-- How far a run has come. A fetched page is kept with the listing it is from. -/
inductive Phase where
  | idle
  | ready (plan : Plan)
  | fetched (plan : Plan) (seen : List HistoryMatch)
  | persisted (plan : Plan) (seen : List HistoryMatch)
  deriving DecidableEq

/-- The state of the walk. The snapshot is the listing of the newest page completed last. -/
structure State where
  listing : List HistoryMatch := []
  row : LeagueRow := {}
  persisted : List HistoryMatch := []
  snapshot : List HistoryMatch := []
  runs : Nat → Phase := fun _ => .idle
  now : Time := 0

/-- The steps of the system. -/
inductive Event where
  | pass (ms : Nat)
  | publish (entry : HistoryMatch)
  | reset
  | start (run : Nat)
  | fetch (run : Nat)
  | persist (run : Nat)
  | update (run : Nat)
  | fail (run : Nat)
  deriving DecidableEq

/-! ## The statements of a run -/

/-- `resetLeagueHistory` -/
def LeagueRow.reset (row : LeagueRow) : LeagueRow :=
  { row with history_exhausted := false, history_checked_at := none }

def newestRefreshDue (checkedAt : Option Time) (exhausted : Bool) (settings : Settings)
    (now : Time) : Bool :=
  match checkedAt with
  | none => true
  | some checkedAt =>
      (if exhausted then settings.historyExhaustedRefreshMs
        else settings.historyNewestRefreshMs) ≤ now - checkedAt

/-- What a run makes of the row. -/
def LeagueRow.plan (row : LeagueRow) (settings : Settings) (now : Time) : Plan where
  tail := row.history_tail_match_id
  refreshNewest :=
    newestRefreshDue row.history_checked_at row.history_exhausted settings now

/-- The page of a run. -/
def Plan.page (plan : Plan) (settings : Settings) (seen : List HistoryMatch) :
    Page HistoryMatch :=
  Paging.serve HistoryMatch.match_id settings.pageSize seen plan.startAtMatchId

/-- The greater of two nullable numbers; a missing one does not count. -/
def greatest : Option Nat → Option Nat → Option Nat
  | some left, some right => some (max left right)
  | left, right => left <|> right

/-- The columns which an update changes. -/
structure CursorPatch where
  tailMatchId : Option MatchId
  lastMatchSeqNum : Option Nat
  exhausted : Bool
  deriving DecidableEq

/-- What a run makes of its page. -/
def Plan.patch (plan : Plan) (page : Page HistoryMatch) : CursorPatch :=
  let oldest := (page.entries.getLast?.map HistoryMatch.match_id) <|> plan.tail
  let empty := page.entries.isEmpty
  let noMore := page.remaining = 0 ∨ empty = true ∨ oldest = plan.tail
  { tailMatchId := oldest <|> plan.tail
    lastMatchSeqNum := page.entries.foldl (fun seq entry => greatest seq entry.match_seq_num) none
    exhausted := if plan.refreshNewest then empty else empty || decide noMore }

/-- `updateLeagueHistoryCursor` -/
def LeagueRow.update (row : LeagueRow) (patch : CursorPatch) (now : Time) : LeagueRow where
  history_tail_match_id := patch.tailMatchId <|> row.history_tail_match_id
  history_exhausted := patch.exhausted
  last_match_seq_num := greatest row.last_match_seq_num patch.lastMatchSeqNum
  history_checked_at := some now

/-! ## The system -/

def State.setRun (state : State) (run : Nat) (phase : Phase) : State :=
  { state with runs := Function.update state.runs run phase }

/-- The state after one step. -/
def next (settings : Settings) (state : State) : Event → Option State
  | .pass ms => some { state with now := state.now + ms }
  | .publish entry =>
      if state.listing.all (·.match_id < entry.match_id) then
        some { state with listing := entry :: state.listing }
      else none
  | .reset => some { state with row := state.row.reset }
  | .start run =>
      match state.runs run with
      | .idle => some (state.setRun run (.ready (state.row.plan settings state.now)))
      | _ => none
  | .fetch run =>
      match state.runs run with
      | .ready plan => some (state.setRun run (.fetched plan state.listing))
      | _ => none
  | .persist run =>
      match state.runs run with
      | .fetched plan seen =>
          some { state.setRun run (.persisted plan seen) with
            persisted := (plan.page settings seen).entries ++ state.persisted }
      | _ => none
  | .update run =>
      match state.runs run with
      | .persisted plan seen =>
          some { state.setRun run .idle with
            row := state.row.update (plan.patch (plan.page settings seen)) state.now
            snapshot := if plan.refreshNewest then seen else state.snapshot }
      | _ => none
  | .fail run => some (state.setRun run .idle)

/-- The tail which a run has read, when the run is about to update a deep page. -/
def State.deepTail (state : State) (run : Nat) : Option (Option MatchId) :=
  match state.runs run with
  | .persisted plan _ => if plan.refreshNewest then none else some plan.tail
  | _ => none

/-- A deep update finds the tail which its run has read. -/
def Unmoved (state : State) : Event → Prop
  | .update run => ∀ tail ∈ state.deepTail run, state.row.history_tail_match_id = tail
  | _ => True

instance (state : State) : (event : Event) → Decidable (Unmoved state event)
  | .update run =>
      inferInstanceAs (Decidable (∀ tail ∈ state.deepTail run,
        state.row.history_tail_match_id = tail))
  | .pass _ | .publish _ | .reset | .start _ | .fetch _ | .persist _ | .fail _ => .isTrue trivial

/-- The step is the update of a run on a deep page. -/
def DeepUpdate (state : State) : Event → Prop
  | .update run => state.deepTail run ≠ none
  | _ => False

instance (state : State) : (event : Event) → Decidable (DeepUpdate state event)
  | .update run => inferInstanceAs (Decidable (state.deepTail run ≠ none))
  | .pass _ | .publish _ | .reset | .start _ | .fetch _ | .persist _ | .fail _ => .isFalse id

/-- A tail below another one; below no tail is every tail. -/
def Older (after before : Option MatchId) : Prop :=
  ∃ tail ∈ after, ∀ previous ∈ before, tail < previous

end LeagueWalk
end DotaCollector
