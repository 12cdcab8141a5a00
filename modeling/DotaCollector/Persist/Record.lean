import DotaCollector.Library.Script
import DotaCollector.Matches.System
import DotaCollector.Persist.Draft

/-!
# The writers of a match record

`persistMatchRecord` and the two live jobs write one match in one transaction each. Their scripts
follow the source statement by statement over the tables below; statements on other tables are
kept for the rows they lock. A script decides once, from a question to `matches`, whether it may
overwrite or only fills.
-/

namespace DotaCollector
namespace Persist

open Nullable Script

/-! ## Statements and questions -/

/-- A row of another table which a statement locks. -/
inductive OtherRow where
  | team (teamId : Int)
  | series (seriesId : Int)
  | account (accountId : Int)
  deriving DecidableEq, Repr

/-- The statements of the writers. -/
inductive Statement where
  | operation (change : Operation)
  | touch (row : OtherRow)
  | insertMatchPlayers (rows : List (Nat × PlayerRow)) (fillOnly : Bool)
  | fillPlayerIds
  | fillTeamIds
  | stampDraftClock (pick : DraftPick)
  | deleteDraft
  | insertDraft (rows : List DraftRow)
  | fillDraftSlots
  | fillDraftLinks
  | fillDraftTeams

/-- The questions of the writers. -/
inductive Query where
  | matchPostgameWritten
  | lookupPlayerIds
  | matchSideTeamIds
  | countDraft
  | draftRows

/-- What a question returns. -/
def Query.Answer : Query → Type
  | .matchPostgameWritten => Bool
  | .lookupPlayerIds => Int → Option Int
  | .matchSideTeamIds => Option Int × Option Int
  | .countDraft => DraftCounts
  | .draftRows => List DraftRow

/-- A script of a writer. -/
abbrev Writer := Script Statement Query Query.Answer

def ask (query : Query) : Writer query.Answer := Script.query query

/-! ## Parts of the scripts -/

def upsertTeam : Option Int → Writer Unit
  | none => return ()
  | some teamId => if teamId = 0 then return () else issue (.touch (.team teamId))

def upsertPlayer (player : PlayerFacts) : Writer Unit :=
  if player.accountId ≤ 0 then return () else issue (.touch (.account player.accountId))

/-- The statement of `upsertSeriesForMatch`, for the series it finds or makes up. -/
def upsertSeriesForMatch : Option Int → Writer Unit
  | none => return ()
  | some seriesId => issue (.touch (.series seriesId))

def fillDraftPlayerSlots : Writer Unit := do
  issue .fillDraftSlots
  issue .fillDraftLinks
  issue .fillDraftTeams

/-- The side of a slot, of two values for the sides. -/
def sideTeamId (slot : Nat) (sides : Option Int × Option Int) : Option Int :=
  if slot < 128 then sides.1 else sides.2

/-- The row of a player whose slot is one. -/
def resolvePlayer (playerIds : Int → Option Int) (sides : Option Int × Option Int)
    (player : PlayerFacts) : Option (Nat × PlayerRow) :=
  (normalizeValvePlayerSlot player.playerSlot).map fun slot =>
    (slot, player.row slot
      (if 0 < player.accountId then playerIds player.accountId else none) (sideTeamId slot sides))

/-- The writes for resolved players. -/
def insertResolved (rows : List (Nat × PlayerRow)) (fillOnly : Bool) : Writer Unit :=
  if rows.isEmpty then return ()
  else do
    issue (.insertMatchPlayers rows fillOnly)
    fillDraftPlayerSlots

def upsertMatchPlayers (players : List PlayerFacts) (fillOnly : Bool) : Writer Unit :=
  if players.isEmpty then return ()
  else do
    let playerIds ← ask .lookupPlayerIds
    let sides ← ask .matchSideTeamIds
    insertResolved (players.filterMap (resolvePlayer playerIds sides)) fillOnly

/-- One turn of `stampDraftClocks`. -/
def stampDraftClock (pick : DraftPick) : Writer Unit :=
  if pick.clock = none ∨ pick.clock = some 0 then return () else issue (.stampDraftClock pick)

/-- The branch of `replaceMatchDraft` which keeps the rows. -/
def keepDraft (picks : List DraftPick) : Writer Unit := do
  forEach stampDraftClock picks
  fillDraftPlayerSlots

/-- The branch of `replaceMatchDraft` which replaces the rows. -/
def rewriteDraft (picks : List DraftPick) : Writer Unit := do
  let previous ← ask .draftRows
  issue .deleteDraft
  let sides ← ask .matchSideTeamIds
  issue (.insertDraft (picks.map fun pick => pick.row previous sides))
  fillDraftPlayerSlots

def replaceMatchDraft (picks : List DraftPick) (fillOnly : Bool) : Writer Unit :=
  if picks.isEmpty then return ()
  else do
    let counts ← ask .countDraft
    if fillOnly || (draftLooksComplete counts.n counts.picks && 0 < counts.clocks) then
      keepDraft picks
    else rewriteDraft picks

/-- The statements of `fillMatchPlayerLinks` on `match_players`. -/
def fillMatchPlayerLinks : Writer Unit := do
  issue .fillPlayerIds
  issue .fillTeamIds

/-! ## The post-game writers -/

/-- A post-game record, with the series found for it. -/
structure PostgameRecord where
  facts : MatchFacts
  seriesId : Option Int := none
  players : List PlayerFacts := []
  picksBans : List (Option RawPick) := []

/-- `UPDATE matches SET series_id = …`, when there is a series. -/
def linkSeries (matchId : MatchId) : Option Int → Writer Unit
  | none => return ()
  | some seriesId => issue (.operation (.linkSeries matchId seriesId))

/-- What `persistMatchRecord` writes once it knows whether it only fills. -/
def persistFacts (now : Time) (record : PostgameRecord) (fetched : Fetched) (fillOnly : Bool) :
    Writer Unit := do
  issue (.operation (.saveMatchFacts now record.facts fetched))
  forEach upsertPlayer record.players
  upsertMatchPlayers record.players fillOnly
  replaceMatchDraft (extractDraft record.picksBans) fillOnly
  fillMatchPlayerLinks

def persistMatchRecord (now : Time) (record : PostgameRecord) (mustExist : Bool)
    (fetched : Fetched) : Writer Unit := do
  upsertTeam (record.facts.facts.number .radiantTeamId)
  upsertTeam (record.facts.facts.number .direTeamId)
  runIf (!mustExist) (issue (.operation (.insertUndiscoveredMatch now record.facts fetched)))
  upsertSeriesForMatch record.seriesId
  linkSeries record.facts.matchId record.seriesId
  let fillOnly ← ask .matchPostgameWritten
  persistFacts now record fetched fillOnly

/-! ## The live writers -/

/-- One game of a live poll; `changed` compares it with the last poll. -/
structure LiveGame where
  sighting : LiveSighting
  seriesId : Option Int := none
  changed : Bool := true
  roster : List PlayerFacts := []
  draft : List DraftPick := []
  duration : ℚ := 0
  liveStats : List PlayerFacts := []
  currentIds : List MatchId := []
  threshold : Nat := 3
  replayDelayMs : Int := 0

/-- What a live poll writes for a game which has changed. -/
def writeChangedGame (now : Time) (game : LiveGame) (fillOnly : Bool) : Writer Unit := do
  issue (.operation (.touchMatchLive now game.sighting))
  forEach upsertPlayer game.roster
  upsertMatchPlayers game.roster fillOnly
  replaceMatchDraft game.draft fillOnly
  fillMatchPlayerLinks
  issue (.operation (.noteLiveClock game.sighting.matchId game.duration))
  upsertMatchPlayers game.liveStats fillOnly

/-- What a live poll writes for a game which has not changed. -/
def writeUnchangedGame (now : Time) (game : LiveGame) : Writer Unit := do
  issue (.operation (.noteLiveFeedSeen now .liveLeague game.sighting.matchId))
  issue (.operation (.noteLiveClock game.sighting.matchId game.duration))

/-- The end of a live poll, unless it listed nothing. -/
def closePoll (now : Time) (game : LiveGame) : Writer Unit :=
  if game.currentIds.isEmpty then return ()
  else do
    issue (.operation (.noteLiveFeedMisses .liveLeague game.currentIds))
    issue (.operation (.finishMissingLiveMatches now game.threshold game.replayDelayMs))

/-- The part of a live poll which concerns one game, and its end. -/
def pollLive (now : Time) (game : LiveGame) : Writer Unit := do
  upsertTeam (game.sighting.facts.number .radiantTeamId)
  upsertTeam (game.sighting.facts.number .direTeamId)
  upsertSeriesForMatch game.seriesId
  if game.changed then do
    let fillOnly ← ask .matchPostgameWritten
    writeChangedGame now game fillOnly
    closePoll now game
  else do
    writeUnchangedGame now game
    closePoll now game

/-- The transaction of a realtime poll. -/
def pollRealtimeStats (now : Time) (game : LiveGame) : Writer Unit := do
  upsertTeam (game.sighting.facts.number .radiantTeamId)
  upsertTeam (game.sighting.facts.number .direTeamId)
  issue (.operation (.touchMatchLive now game.sighting))
  issue (.operation (.touchRealtimeSeen now game.sighting.matchId))
  issue (.operation (.noteLiveClock game.sighting.matchId game.duration))
  let fillOnly ← ask .matchPostgameWritten
  forEach upsertPlayer game.roster
  upsertMatchPlayers game.roster fillOnly
  replaceMatchDraft game.draft fillOnly
  fillMatchPlayerLinks

/-! ## What a statement does -/

/-- What a transaction sees of one match. -/
structure MatchView where
  matchRow : Option MatchRow := none
  players : Nat → Option PlayerRow := fun _ => none
  draft : List DraftRow := []
  playerIds : Int → Option Int := fun _ => none

/-- The post-game stamps of a row. -/
def postgameWritten (row : MatchRow) : Bool :=
  row.seqFetchedAt.isSome || row.detailsFetchedAt.isSome

/-- A `matches` table with the row of one match only. -/
def oneMatch (matchId : MatchId) (row : Option MatchRow) : Matches :=
  fun other => if other = matchId then row else none

/-- The row of a match after an operation. -/
def onMatch (matchId : MatchId) (row : Option MatchRow) (operation : Operation) :
    Option MatchRow :=
  operation.apply (oneMatch matchId row) matchId

def MatchView.sides (view : MatchView) : Option Int × Option Int :=
  match view.matchRow with
  | none => (none, none)
  | some row => (row.facts.number .radiantTeamId, row.facts.number .direTeamId)

/-- A row after an upsert. -/
def upsertPlayerRow (fillOnly : Bool) (stored : Option PlayerRow) (row : PlayerRow) : PlayerRow :=
  match stored with
  | none => row
  | some stored => mergePlayer fillOnly stored row

/-- The rows of a match after an upsert. -/
def upsertRows (rows : List (Nat × PlayerRow)) (fillOnly : Bool)
    (players : Nat → Option PlayerRow) (slot : Nat) : Option PlayerRow :=
  match rows.find? (·.1 = slot) with
  | none => players slot
  | some (_, row) => some (upsertPlayerRow fillOnly (players slot) row)

/-- `player_id = COALESCE(mp.player_id, p.id)`. -/
def fillPlayerId (playerIds : Int → Option Int) (row : PlayerRow) : PlayerRow :=
  if 0 < accountOf row then
    Function.update row .playerId
      (coalesce (row .playerId) ((playerIds (accountOf row)).map .int))
  else row

/-- `team_id = COALESCE(mp.team_id, …)`. -/
def fillTeamId (sides : Option Int × Option Int) (slot : Nat) (row : PlayerRow) : PlayerRow :=
  Function.update row .teamId (coalesce (row .teamId) ((sideTeamId slot sides).map .int))

/-- What a transaction sees after a statement. Rows need their match, and no key may be inserted
twice. -/
def Statement.execute (matchId : MatchId) (view : MatchView) : Statement → Option MatchView
  | .operation change =>
      some { view with matchRow := onMatch matchId view.matchRow change }
  | .touch _ => some view
  | .insertMatchPlayers rows fillOnly =>
      if view.matchRow.isSome && decide (rows.map Prod.fst).Nodup then
        some { view with players := upsertRows rows fillOnly view.players }
      else none
  | .fillPlayerIds =>
      some
        { view with
          players := fun slot => (view.players slot).map (fillPlayerId view.playerIds) }
  | .fillTeamIds =>
      some
        { view with
          players := fun slot =>
            if view.matchRow.isSome then (view.players slot).map (fillTeamId view.sides slot)
            else view.players slot }
  | .stampDraftClock pick => some { view with draft := view.draft.map pick.stamp }
  | .deleteDraft => some { view with draft := [] }
  | .insertDraft rows =>
      if view.matchRow.isSome && decide ((view.draft ++ rows).map DraftRow.ord).Nodup then
        some { view with draft := view.draft ++ rows }
      else none
  | .fillDraftSlots =>
      some { view with draft := view.draft.map (DraftRow.fillSlot view.players) }
  | .fillDraftLinks =>
      some { view with draft := view.draft.map (DraftRow.fillLinks view.players) }
  | .fillDraftTeams => some { view with draft := view.draft.map (DraftRow.fillTeam view.sides) }

section Executed

variable {matchId : MatchId} {statement : Statement} {view after : MatchView}

/-- Only an operation moves the row of the match. -/
theorem matchRow_of_execute (executed : statement.execute matchId view = some after) :
    after.matchRow =
      match statement with
      | .operation change => onMatch matchId view.matchRow change
      | _ => view.matchRow := by
  cases statement with
  | insertMatchPlayers | insertDraft =>
      obtain ⟨-, ⟨⟩⟩ := Option.ite_none_right_eq_some.mp executed
      rfl
  | _ =>
      cases executed
      rfl

/-- What moves the players of the match. -/
theorem players_of_execute (executed : statement.execute matchId view = some after) :
    after.players =
      match statement with
      | .insertMatchPlayers rows fillOnly => upsertRows rows fillOnly view.players
      | .fillPlayerIds => fun slot => (view.players slot).map (fillPlayerId view.playerIds)
      | .fillTeamIds => fun slot =>
          if view.matchRow.isSome then (view.players slot).map (fillTeamId view.sides slot)
          else view.players slot
      | _ => view.players := by
  cases statement with
  | insertMatchPlayers | insertDraft =>
      obtain ⟨-, ⟨⟩⟩ := Option.ite_none_right_eq_some.mp executed
      rfl
  | _ =>
      cases executed
      rfl

/-- Players need their match. -/
theorem matchRow_of_insertMatchPlayers {rows : List (Nat × PlayerRow)} {fillOnly : Bool}
    (executed : (Statement.insertMatchPlayers rows fillOnly).execute matchId view = some after) :
    ∃ row, view.matchRow = some row := by
  obtain ⟨checked, -⟩ := Option.ite_none_right_eq_some.mp executed
  exact Option.isSome_iff_exists.mp (Bool.and_eq_true_iff.mp checked).1

end Executed

/-- The answer to a question. -/
def Query.answer (view : MatchView) : (query : Query) → query.Answer
  | .matchPostgameWritten => view.matchRow.any postgameWritten
  | .lookupPlayerIds => view.playerIds
  | .matchSideTeamIds => view.sides
  | .countDraft => DotaCollector.Persist.countDraft view.draft
  | .draftRows => view.draft

/-- The database as a script meets it when its transaction runs alone. -/
abbrev single (matchId : MatchId) : Contract Statement Query Query.Answer MatchView :=
  alone (fun statement view => statement.execute matchId view) fun query view =>
    query.answer view

/-- A script run as a transaction of its own. -/
def transaction {Value : Type} (matchId : MatchId) (script : Writer Value) (view : MatchView) :
    Option (Value × MatchView) :=
  script.exec (fun statement view => statement.execute matchId view)
    (fun query view => query.answer view) view

end Persist
end DotaCollector
