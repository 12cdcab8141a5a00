import DotaCollector.Library.Batches
import DotaCollector.Parser.Handle

/-!
# Extracting a result from a demo

A session answers the events of a demo with changes of its own state and with rows of the three
bulk tables. With a sink, a bulk table which has reached `flushBatch` rows is handed on and cut to
nothing; without one it grows to the end of the demo. No callback reads the bulk tables back: only
`finishSummaries`, behind the last event, does. What the callbacks make of an event is a
parameter.
-/

namespace DotaCollector
namespace Parse

open DotaCollector.Parser (flushBatch)

variable {Scalar Columns CombatLog Action Small Event : Type}

/-- A row of the interval table: the columns which a summary is made of, and the others. -/
structure Interval (Scalar Columns : Type) where
  time : Int
  slot : Int
  x : Scalar
  y : Scalar
  stuns : Scalar
  teamfightParticipation : Scalar
  towersKilled : Nat
  roshansKilled : Nat
  obsPlaced : Nat
  senPlaced : Nat
  campsStacked : Nat
  creepsStacked : Nat
  runePickups : Nat
  firstbloodClaimed : Nat
  columns : Columns

structure Player (Scalar : Type) where
  slot : Int
  valveSlot : Int
  team : Int
  posSamples : List (Scalar × Scalar)

structure Objective where
  time : Int
  kind : String
  team : Option Int := none
  slot : Option Int := none
  key : String := ""
  value : Option Int := none

/-- A session without its bulk tables. `players` are the first `playerCount` entries of the
array, `small` is everything which neither the bulk tables nor the summaries look at. -/
structure World (Scalar Small : Type) where
  players : List (Option (Player Scalar))
  laneUntil : Int
  gameState : Int
  clock : Int
  raxRadiant : Nat
  raxDire : Nat
  raxSeen : Bool
  objectives : List Objective
  small : Small

inductive Emission (Scalar Columns CombatLog Action : Type) where
  | combat (row : CombatLog)
  | interval (row : Interval Scalar Columns)
  | action (row : Action)

structure Session (Scalar Columns CombatLog Action Small : Type) where
  world : World Scalar Small
  combatLog : Buffer CombatLog := {}
  intervals : Buffer (Interval Scalar Columns) := {}
  actions : Buffer Action := {}

/-! ## The bulk tables -/

/-- The size at which a bulk table is flushed. -/
def capacity (sink : Bool) : Option Nat := if sink then some flushBatch else none

namespace Session

def addCombat (sink : Bool) (session : Session Scalar Columns CombatLog Action Small)
    (row : CombatLog) : Session Scalar Columns CombatLog Action Small :=
  { session with combatLog := session.combatLog.push (capacity sink) row }

def addInterval (sink : Bool) (session : Session Scalar Columns CombatLog Action Small)
    (row : Interval Scalar Columns) : Session Scalar Columns CombatLog Action Small :=
  { session with intervals := session.intervals.push (capacity sink) row }

def addAction (sink : Bool) (session : Session Scalar Columns CombatLog Action Small)
    (row : Action) : Session Scalar Columns CombatLog Action Small :=
  { session with actions := session.actions.push (capacity sink) row }

def emit (sink : Bool) (session : Session Scalar Columns CombatLog Action Small) :
    Emission Scalar Columns CombatLog Action → Session Scalar Columns CombatLog Action Small
  | .combat row => session.addCombat sink row
  | .interval row => session.addInterval sink row
  | .action row => session.addAction sink row

end Session

/-- What the callbacks of one event do to the session, and the rows they emit. -/
abbrev Callbacks (Scalar Columns CombatLog Action Small Event : Type) :=
  Event → World Scalar Small → World Scalar Small × List (Emission Scalar Columns CombatLog Action)

def Session.step (sink : Bool) (handle : Callbacks Scalar Columns CombatLog Action Small Event)
    (session : Session Scalar Columns CombatLog Action Small) (event : Event) :
    Session Scalar Columns CombatLog Action Small :=
  let (world, rows) := handle event session.world
  rows.foldl (Session.emit sink) { session with world }

/-! ## The summaries -/

/-- The loop from the last interval row back: the newest row of every slot, until there are as
many as players. -/
def scanBack (playerCount : Nat) (last : List (Interval Scalar Columns)) :
    List (Interval Scalar Columns) → List (Interval Scalar Columns)
  | [] => last
  | row :: earlier =>
      let last := if last.any (·.slot = row.slot) then last else last ++ [row]
      if playerCount ≤ last.length then last else scanBack playerCount last earlier

def lastInterval (playerCount : Nat) (rows : List (Interval Scalar Columns)) (slot : Int) :
    Option (Interval Scalar Columns) :=
  (scanBack playerCount [] rows.reverse).find? (·.slot = slot)

/-! Positions are `float32`; only their arithmetic and their comparisons are used. -/

variable [BEq Scalar] [Add Scalar] [Sub Scalar] [Mul Scalar] [NatCast Scalar] [LT Scalar]
  [DecidableLT Scalar]

def intervalLaneSamples (rows : List (Interval Scalar Columns)) (slot until_ : Int) :
    List (Scalar × Scalar) :=
  (rows.filter fun row =>
    row.slot = slot && 0 ≤ row.time && row.time ≤ until_ &&
      !(row.x == ((0 : Nat) : Scalar) && row.y == ((0 : Nat) : Scalar))).map fun row => (row.x, row.y)

/-- The counters of `inferLane`. -/
structure LaneVotes where
  mid : Nat := 0
  top : Nat := 0
  bot : Nat := 0
  jungle : Nat := 0

def LaneVotes.count (votes : LaneVotes) (sample : Scalar × Scalar) : LaneVotes :=
  let (x, y) := sample
  let dx := x - ((128 : Nat) : Scalar)
  let dy := y - ((128 : Nat) : Scalar)
  if dx * dx + dy * dy < ((18 * 18 : Nat) : Scalar) then { votes with mid := votes.mid + 1 }
  else
    -- jungle ring around the river
    let ring : Bool := ((90 : Nat) : Scalar) < x && x < ((160 : Nat) : Scalar) &&
      ((90 : Nat) : Scalar) < y && y < ((160 : Nat) : Scalar) &&
      ((22 * 22 : Nat) : Scalar) < dx * dx + dy * dy
    let votes := if ring then { votes with jungle := votes.jungle + 1 } else votes
    if x < y then { votes with top := votes.top + 1 } else { votes with bot := votes.bot + 1 }

/-- Lane, role, and whether the player roams. -/
def inferLane (samples : List (Scalar × Scalar)) (team : Int) : Int × Int × Bool :=
  if samples.length < 4 then (0, 0, false)
  else
    let votes := samples.foldl LaneVotes.count {}
    if samples.length < votes.jungle * 3 then (4, 4, true)
    else if samples.length < votes.mid * 2 then (2, 2, false)
    else if team = 2 then
      if votes.top ≤ votes.bot then (1, 1, false) else (3, 3, false)
    else if votes.bot ≤ votes.top then (1, 1, false)
    else (3, 3, false)

structure PlayerSummary (Scalar : Type) where
  slot : Int
  lane : Int
  laneRole : Int
  isRoaming : Bool
  stuns : Scalar
  teamfightParticipation : Scalar
  towersKilled : Nat
  roshansKilled : Nat
  observersPlaced : Nat
  sentriesPlaced : Nat
  campsStacked : Nat
  creepsStacked : Nat
  runePickups : Nat
  firstbloodClaimed : Nat

/-- The positions a lane is inferred from. -/
def laneSamples (laneUntil : Int) (rows : List (Interval Scalar Columns))
    (player : Player Scalar) : List (Scalar × Scalar) :=
  if player.posSamples.length < 4 then
    player.posSamples ++ intervalLaneSamples rows player.slot laneUntil
  else player.posSamples

def summarize (playerCount : Nat) (laneUntil : Int) (rows : List (Interval Scalar Columns))
    (player : Player Scalar) : Option (PlayerSummary Scalar) :=
  (lastInterval playerCount rows player.slot).map fun row =>
    let (lane, laneRole, isRoaming) := inferLane (laneSamples laneUntil rows player) player.team
    { slot := player.valveSlot, lane, laneRole, isRoaming
      stuns := row.stuns
      teamfightParticipation := row.teamfightParticipation
      towersKilled := row.towersKilled
      roshansKilled := row.roshansKilled
      observersPlaced := row.obsPlaced
      sentriesPlaced := row.senPlaced
      campsStacked := row.campsStacked
      creepsStacked := row.creepsStacked
      runePickups := row.runePickups
      firstbloodClaimed := row.firstbloodClaimed }

structure Result (Scalar Columns CombatLog Action Small : Type) where
  combatLog : Buffer CombatLog
  intervals : Buffer (Interval Scalar Columns)
  actions : Buffer Action
  playerSummary : List (PlayerSummary Scalar)
  barracksRadiant : Nat
  barracksDire : Nat
  barracksKnown : Bool
  objectives : List Objective
  small : Small

/-- The summaries of the players, from the rows which the interval table still holds. -/
def playerSummaries (world : World Scalar Small) (rows : List (Interval Scalar Columns)) :
    List (PlayerSummary Scalar) :=
  world.players.filterMap fun player =>
    player.bind (summarize world.players.length world.laneUntil rows)

def Session.finishSummaries (session : Session Scalar Columns CombatLog Action Small) :
    Result Scalar Columns CombatLog Action Small where
  combatLog := session.combatLog
  intervals := session.intervals
  actions := session.actions
  playerSummary := playerSummaries session.world session.intervals.rows
  barracksRadiant := session.world.raxRadiant
  barracksDire := session.world.raxDire
  barracksKnown := session.world.raxSeen
  objectives :=
    if 6 ≤ session.world.gameState then
      session.world.objectives ++ [{ time := session.world.clock, kind := "win" }]
    else session.world.objectives
  small := session.world.small

/-! ## The parsers -/

/-- Decode a demo from its first event to its last and finish the summaries. -/
def parseStream (sink : Bool) (handle : Callbacks Scalar Columns CombatLog Action Small Event)
    (start : World Scalar Small) (demo : List Event) :
    Result Scalar Columns CombatLog Action Small :=
  let session : Session Scalar Columns CombatLog Action Small := { world := start }
  (demo.foldl (Session.step sink handle) session).finishSummaries

def parseReader (handle : Callbacks Scalar Columns CombatLog Action Small Event)
    (start : World Scalar Small) (demo : List Event) :
    Result Scalar Columns CombatLog Action Small :=
  parseStream false handle start demo

/-- With a sink, as the parser worker calls it. -/
def parseReaderWithSink (handle : Callbacks Scalar Columns CombatLog Action Small Event)
    (start : World Scalar Small) (demo : List Event) :
    Result Scalar Columns CombatLog Action Small :=
  parseStream true handle start demo

end Parse
end DotaCollector
