import Mathlib.Algebra.Group.Pi.Basic
import Mathlib.Algebra.Order.Group.Multiset
import DotaCollector.Library.Script
import DotaCollector.Replays.Row

/-!
# Handling one claimed replay

A parser worker decodes the replay of one match and writes its rows to ClickHouse. Rows of the
three bulk tables are buffered and inserted in batches while the replay is being decoded; the
leftovers and the small tables follow at the end, and only then the publication in Postgres. A
replay table holds a multiset of rows: there is no key, so a row inserted twice is there twice.
The match id is not zero.
-/

namespace DotaCollector
namespace Parser

/-- The tables a decoder flushes in batches. -/
inductive BulkTable where
  | combatLog
  | intervals
  | actions
  deriving DecidableEq, Repr

/-- The tables which `Finish` writes at the end of the demo. -/
inductive SmallTable where
  | pings
  | wards
  | chat
  | announcements
  | draft
  | abilityLevels
  | inventory
  | neutrals
  | cosmetics
  | alerts
  | metaRow
  | metaTeams
  | metaPlayers
  | metaKills
  | metaPlayerKills
  | metaPurchases
  | metaInventory
  | metaTips
  deriving DecidableEq, Repr

/-- The `replay_*` tables. -/
inductive ReplayTable where
  | bulk (table : BulkTable)
  | small (table : SmallTable)
  deriving DecidableEq, Repr

/-- The tables whose goroutines `Finish` starts. -/
def smallTables : List SmallTable :=
  [.pings, .wards, .chat, .announcements, .draft, .abilityLevels, .inventory, .neutrals,
    .cosmetics, .alerts, .metaRow, .metaTeams, .metaPlayers, .metaKills, .metaPlayerKills,
    .metaPurchases, .metaInventory, .metaTips]

def replayTables : List ReplayTable :=
  [.bulk .combatLog, .bulk .intervals, .bulk .actions] ++ smallTables.map .small

theorem mem_smallTables (table : SmallTable) : table ∈ smallTables := by
  cases table <;> simp [smallTables]

theorem mem_replayTables (table : ReplayTable) : table ∈ replayTables := by
  cases table with
  | bulk table => cases table <;> simp [replayTables]
  | small table => simp [replayTables, mem_smallTables]

/-- The rows of one match in every replay table. -/
abbrev StoredRows (Row : Type) := ReplayTable → Multiset Row

/-- Rows of one table, and none of any other. -/
def rowsIn {Row : Type} (table : ReplayTable) (rows : List Row) : StoredRows Row :=
  fun other => if other = table then rows else 0

/-! ## What a replay contains -/

/-- What decoding a replay to its end extracts: the rows of the bulk tables in the order they are
emitted, and the rows the result holds for the small tables. -/
structure Extraction (Row : Type) where
  stream : List (BulkTable × Row)
  result : SmallTable → List Row

variable {Row : Type}

/-- The rows a stream emits for one table. -/
def emitted (stream : List (BulkTable × Row)) (table : BulkTable) : List Row :=
  (stream.filter (·.1 = table)).map Prod.snd

/-- The rows of one complete parse. -/
def Extraction.complete (demo : Extraction Row) : StoredRows Row
  | .bulk table => emitted demo.stream table
  | .small table => demo.result table

/-! ## The calls of a worker -/

/-- The calls whose error the worker ignores. -/
inductive Statement where
  | deleteTable (table : ReplayTable)
  | fail (message : String)

/-- The calls whose error the worker looks at. -/
inductive Query (Row : Type) where
  | getObject
  | openDemo
  | read
  | insert (table : ReplayTable) (rows : List Row)
  | publish

/-- A script of a parser worker; a call answers with its error, if any. -/
abbrev Handler (Row : Type) :=
  Script Statement (Query Row) fun _ => Option String

def call (query : Query Row) : Handler Row (Option String) := Script.query query

def fail (message : String) : Handler Row Unit := Script.issue (.fail message)

/-- The loop of `DeleteMatch`; it goes on after an error. -/
def deleteTables : List ReplayTable → Handler Row Unit
  | [] => return ()
  | table :: tables => do
      Script.issue (.deleteTable table)
      deleteTables tables

def deleteMatch : Handler Row Unit := deleteTables replayTables

def insert (table : ReplayTable) (rows : List Row) : Handler Row (Option String) :=
  if rows.isEmpty then return none else call (.insert table rows)

/-! ## Decoding -/

def flushBatch : Nat := 8192

/-- The buffers of a session. -/
abbrev Buffers (Row : Type) := BulkTable → List Row

/-- Buffer a row, and flush the buffer of its table once it is full. -/
def addRow (table : BulkTable) (buffers : Buffers Row) (row : Row) :
    Handler Row (Except String (Buffers Row)) :=
  let rows := buffers table ++ [row]
  if rows.length < flushBatch then return .ok (Function.update buffers table rows)
  else do
    match ← insert (.bulk table) rows with
    | some err => return .error err
    | none => return .ok (Function.update buffers table [])

def addCombat : Buffers Row → Row → Handler Row (Except String (Buffers Row)) :=
  addRow .combatLog

def addInterval : Buffers Row → Row → Handler Row (Except String (Buffers Row)) :=
  addRow .intervals

def addAction : Buffers Row → Row → Handler Row (Except String (Buffers Row)) :=
  addRow .actions

/-- The callback which emits a row of a bulk table. -/
def emit : BulkTable → Buffers Row → Row → Handler Row (Except String (Buffers Row))
  | .combatLog => addCombat
  | .intervals => addInterval
  | .actions => addAction

/-- `parser.Start`: the demo is read to its end, or to the first error of the stream or of a
callback. -/
def decode :
    List (BulkTable × Row) → Buffers Row → Handler Row (Except String (Buffers Row))
  | [], buffers => do
      match ← call .read with
      | some err => return .error err
      | none => return .ok buffers
  | (table, row) :: stream, buffers => do
      match ← call .read with
      | some err => return .error err
      | none =>
          match ← emit table buffers row with
          | .error err => return .error err
          | .ok buffers => decode stream buffers

/-- What `ParseReaderWithSink` returns: an error without a result, an error with one, or the
result with the buffers as they are at the end of the demo. -/
inductive Parsed (Row : Type) where
  | unopened (err : String)
  | broken (err : String)
  | finished (buffers : Buffers Row)

def parseReaderWithSink (demo : Extraction Row) : Handler Row (Parsed Row) := do
  match ← call .openDemo with
  | some err => return .unopened err
  | none =>
      match ← decode demo.stream (fun _ => []) with
      | .error err => return .broken err
      | .ok buffers => return .finished buffers

/-! ## Finishing -/

/-- The goroutines of `Finish`, in the order in which their inserts arrive. All of them are
awaited, and the first error to arrive is returned. -/
def insertSmall (result : SmallTable → List Row) :
    List SmallTable → Option String → Handler Row (Option String)
  | [], first => return first
  | table :: tables, first => do
      let err ← insert (.small table) (result table)
      insertSmall result tables (first <|> err)

def finish (buffers : Buffers Row) (result : SmallTable → List Row) (arrival : List SmallTable) :
    Handler Row (Option String) := do
  match ← insert (.bulk .combatLog) (buffers .combatLog) with
  | some err => return some err
  | none =>
      match ← insert (.bulk .intervals) (buffers .intervals) with
      | some err => return some err
      | none =>
          match ← insert (.bulk .actions) (buffers .actions) with
          | some err => return some err
          | none => insertSmall result arrival none

/-! ## The worker -/

/-- What `handle` reads of a claimed row. -/
structure Claimed where
  parserVersion : Option Int

/-- Delete the rows of an earlier publication. An empty delete still enqueues a mutation, so the
first parse skips it. -/
def deletePublished (job : Claimed) : Handler Row Unit :=
  if job.parserVersion.isSome then deleteMatch else return ()

/-- Handle one claimed replay. -/
def handle (job : Claimed) (demo : Extraction Row) (arrival : List SmallTable) :
    Handler Row Unit := do
  match ← call .getObject with
  | some err => fail err
  | none => do
      deletePublished job
      match ← parseReaderWithSink demo with
      | .unopened err => fail err
      | .broken err => do
          deleteMatch
          fail err
      | .finished buffers =>
          match ← finish buffers demo.result arrival with
          | some err => do
              deleteMatch
              fail err
          | none =>
              match ← call .publish with
              | some err => do
                  deleteMatch
                  fail err
              | none => return ()

end Parser
end DotaCollector
