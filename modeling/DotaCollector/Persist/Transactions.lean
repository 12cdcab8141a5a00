import DotaCollector.Library.ReadCommitted
import DotaCollector.Persist.Stamps

/-!
# The transactions of one match

The post-game writers and the live writers of one match run concurrently under READ COMMITTED.
The rows of `matches` and `match_players` are versioned and locked; the rows of `match_draft` and
the ids of `players` are the scene of each step, so that a statement may find any.
-/

namespace DotaCollector
namespace Persist

open Script

/-! ## Jobs -/

/-- The writers of one match. -/
inductive Job where
  | seq (now : Time) (record : PostgameRecord) (mustExist clearsAttempt : Bool)
  | gc (now : Time) (record : PostgameRecord)
  | live (now : Time) (game : LiveGame)
  | realtime (now : Time) (game : LiveGame)

def Job.matchId : Job → MatchId
  | .seq _ record _ _ => record.facts.matchId
  | .gc _ record => record.facts.matchId
  | .live _ game => game.sighting.matchId
  | .realtime _ game => game.sighting.matchId

/-- The job persists a post-game record. -/
def Job.postgame : Job → Bool
  | .seq .. | .gc .. => true
  | .live .. | .realtime .. => false

/-- A sequence-number persist: the record, its stamp, and for `fetchSeqDetails` the attempt. -/
def persistSeq (now : Time) (record : PostgameRecord) (mustExist clearsAttempt : Bool) :
    Writer Unit := do
  persistMatchRecord now record mustExist .seq
  issue (.operation (.markSeqFetched now [record.facts.matchId]))
  runIf clearsAttempt
    (issue (.operation (.stampMatchSeqAttempt record.facts.matchId none false true)))

/-- The transaction of a job. -/
def Job.script : Job → Writer Unit
  | .seq now record mustExist clearsAttempt => persistSeq now record mustExist clearsAttempt
  | .gc now record => persistMatchRecord now record false .gc
  | .live now game => pollLive now game
  | .realtime now game => pollRealtimeStats now game

/-- The jobs of a match. -/
abbrev MatchJob (matchId : MatchId) := { job : Job // job.matchId = matchId }

/-! ## Rows and locks -/

/-- What can be locked. -/
inductive Resource where
  | matchRow
  | player (slot : Nat)
  | other (row : OtherRow)
  deriving DecidableEq, Repr

/-- The row under each resource; of other tables only the lock matters. -/
abbrev Stored : Resource → Type
  | .matchRow => MatchRow
  | .player _ => PlayerRow
  | .other _ => Unit

/-- What a step meets outside the versioned rows. -/
structure Scene where
  draft : List DraftRow := []
  playerIds : Int → Option Int := fun _ => none

/-- What a transaction sees of the match. -/
def Scene.view (scene : Scene) (visible : ∀ key, Option (Stored key)) : MatchView where
  matchRow := visible .matchRow
  players slot := visible (.player slot)
  draft := scene.draft
  playerIds := scene.playerIds

/-- The rows of a view. -/
def MatchView.stored (view : MatchView) : (key : Resource) → Option (Stored key)
  | .matchRow => view.matchRow
  | .player slot => view.players slot
  | .other _ => some ()

/-- The operation locks the row of the match: it updates the row or inserts one. -/
def locksMatch (matchId : MatchId) (row : Option MatchRow) : Operation → Bool
  | .touchMatchLive _ sighting => matchId = sighting.matchId
  | .noteLiveFeedSeen _ _ seen => matchId = seen && row.isSome
  | .noteLiveFeedMisses feed seenIds => row.any (missedBy feed seenIds matchId)
  | .noteLiveClock timed duration => matchId = timed && 0 < duration && row.isSome
  | .finishMissingLiveMatches _ threshold _ => row.any (finishSelects threshold)
  | .touchRealtimeSeen _ seen => matchId = seen && row.isSome
  | .insertUndiscoveredMatch _ facts _ => matchId = facts.matchId && row.isNone
  | .saveMatchFacts _ facts _ => matchId = facts.matchId && row.isSome
  | .linkSeries linked _ => matchId = linked && row.any (·.facts .seriesId = none)
  | .stampMatchSeqAttempt stamped _ _ _ => matchId = stamped && row.isSome
  | .markSeqFetched _ matchIds => matchId ∈ matchIds && row.isSome
  -- the operations of the other jobs
  | change => row.isSome || (change.insertedRow matchId).isSome

/-- The players `fillPlayerIds` updates: their account has an id. -/
def hasPlayerId (view : MatchView) (slot : Nat) : Bool :=
  (view.players slot).any fun row => 0 < accountOf row && (view.playerIds (accountOf row)).isSome

/-- What a statement locks. -/
def Statement.touches (matchId : MatchId) (view : MatchView) : Statement → List Resource
  | .operation change => if locksMatch matchId view.matchRow change then [.matchRow] else []
  | .touch row => [.other row]
  | .insertMatchPlayers rows _ => rows.map fun row => .player row.1
  | .fillPlayerIds => (playerSlots.filter (hasPlayerId view)).map .player
  | .fillTeamIds =>
      if view.matchRow.isSome then
        (playerSlots.filter fun slot => (view.players slot).isSome).map .player
      else []
  | .stampDraftClock _ | .deleteDraft | .insertDraft _ | .fillDraftSlots | .fillDraftLinks
  | .fillDraftTeams => []

/-- The database of one match. -/
def database (matchId : MatchId) :
    ReadCommitted.Database Stored Scene Statement Query Query.Answer where
  effect statement scene visible :=
    (statement.execute matchId (scene.view visible)).map fun after =>
      { touched := statement.touches matchId (scene.view visible), rows := after.stored }
  answer query scene visible := query.answer (scene.view visible)

/-! ## The system -/

abbrev Tx (matchId : MatchId) :=
  ReadCommitted.Tx Stored (MatchJob matchId) Statement Query Query.Answer

abbrev State (matchId : MatchId) :=
  ReadCommitted.State Stored (MatchJob matchId) Statement Query Query.Answer

abbrev Event (matchId : MatchId) := ReadCommitted.Event (MatchJob matchId) Scene

def next (matchId : MatchId) : State matchId → Event matchId → Option (State matchId) :=
  ReadCommitted.next (database matchId) fun job => job.val.script

end Persist
end DotaCollector
