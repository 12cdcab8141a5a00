import DotaCollector.Persist.Players

/-!
# The `match_draft` table

The draft of a post-game record is a list of picks and bans in order. Stored rows are either
replaced as a whole or only given the clocks they miss; afterwards they are linked to the players
of the match.
-/

namespace DotaCollector
namespace Persist

open Nullable

/-! ## The draft of a record -/

/-- The `is_pick` field of a raw entry. -/
inductive RawFlag (Number : Type := Int) where
  | missing
  | bool (value : Bool)
  | number (value : Number)

/-- An entry of `picks_bans`. -/
structure RawPick (Number : Type := Int) where
  heroId : Option Number
  isPick : RawFlag Number := .missing
  team : Option Number := none
  order : Option Number := none
  ord : Option Number := none
  playerSlot : Option Number := none
  clock : Option Number := none

/-- An entry of an extracted draft. -/
structure DraftPick (Number : Type := Int) where
  ord : Number
  isPick : Bool
  heroId : Number
  team : Number
  playerSlot : Option Number
  clock : Option Number
  deriving DecidableEq

section Extract

variable {Number : Type} [DecidableEq Number] [AddGroupWithOne Number]

def RawFlag.isPick : RawFlag Number → Bool
  | .missing => true
  | .bool value => value
  | .number value => value = 1

/-- The pick at an index; an entry without a hero is skipped. -/
def RawPick.extract (index : Nat) (row : RawPick Number) : Option (DraftPick Number) :=
  match row.heroId with
  | none => none
  | some heroId =>
      if heroId = 0 then none
      else some
        { ord := (row.order <|> row.ord).getD index
          isPick := row.isPick.isPick
          heroId
          team := row.team.getD 0
          playerSlot := row.playerSlot
          clock := row.clock }

/-- `extractDraft`: an entry which is not an object is skipped, and still counts. -/
def extractDraft (picksBans : List (Option (RawPick Number))) : List (DraftPick Number) :=
  picksBans.zipIdx.filterMap fun (item, index) => item.bind (RawPick.extract index)

end Extract

/-! ## Stored rows -/

/-- A row of `match_draft`. -/
structure DraftRow where
  ord : Int
  isPick : Bool
  heroId : Int
  team : Int
  playerSlot : Option Int := none
  clock : Option Int := none
  accountId : Option Int := none
  playerId : Option Int := none
  teamId : Option Int := none
  deriving DecidableEq

/-- The clock of a row is stamped. -/
def DraftRow.hasClock (row : DraftRow) : Bool := row.clock.any (· ≠ 0)

/-- What `replaceMatchDraft` counts: heroes, picked heroes, and stamped clocks. -/
structure DraftCounts where
  n : Nat
  picks : Nat
  clocks : Nat

def countDraft (rows : List DraftRow) : DraftCounts where
  n := rows.countP fun row => 0 < row.heroId
  picks := rows.countP fun row => row.isPick && 0 < row.heroId
  clocks := rows.countP DraftRow.hasClock

def draftLooksComplete (n picks : Nat) : Bool := 20 ≤ n && n ≤ 32 && 10 ≤ picks

/-- The stamped clock of a hero before the rows are replaced; a later row wins. -/
def previousClock (rows : List DraftRow) (heroId : Int) (isPick : Bool) : Option Int :=
  (rows.reverse.find? fun row =>
    row.hasClock && row.heroId = heroId && row.isPick = isPick).bind DraftRow.clock

/-- The row inserted for a pick. -/
def DraftPick.row (pick : DraftPick) (previous : List DraftRow)
    (sides : Option Int × Option Int) : DraftRow where
  ord := pick.ord
  isPick := pick.isPick
  heroId := pick.heroId
  team := pick.team
  playerSlot := pick.playerSlot
  clock := coalesce pick.clock (previousClock previous pick.heroId pick.isPick)
  teamId := if pick.team = 0 then sides.1 else sides.2

/-- One `UPDATE` of `stampDraftClocks`. -/
def DraftPick.stamp (pick : DraftPick) (row : DraftRow) : DraftRow :=
  if row.heroId = pick.heroId ∧ row.isPick = pick.isPick ∧ row.hasClock = false then
    { row with clock := pick.clock }
  else row

/-! ## Links to the players -/

/-- The slot of the player with a hero. -/
def slotOfHero (players : Nat → Option PlayerRow) (heroId : Int) : Option Nat :=
  playerSlots.find? fun slot => (players slot).any (· .heroId = some (.int heroId))

/-- The first statement of `fillDraftPlayerSlots`. -/
def DraftRow.fillSlot (players : Nat → Option PlayerRow) (row : DraftRow) : DraftRow :=
  if row.isPick ∧ row.heroId ≠ 0 ∧ row.playerSlot = none then
    { row with playerSlot := (slotOfHero players row.heroId).map Int.ofNat }
  else row

/-- An integer cell. -/
def intCell (row : PlayerRow) (col : PlayerCol) : Option Int :=
  match row col with
  | some (.int value) => some value
  | _ => none

/-- The second statement of `fillDraftPlayerSlots`. -/
def DraftRow.fillLinks (players : Nat → Option PlayerRow) (row : DraftRow) : DraftRow :=
  match row.playerSlot.bind fun slot => if slot < 0 then none else players slot.toNat with
  | none => row
  | some player =>
      { row with
        accountId := coalesce row.accountId (intCell player .accountId)
        playerId := coalesce row.playerId (intCell player .playerId)
        teamId := coalesce row.teamId (intCell player .teamId) }

/-- The third statement of `fillDraftPlayerSlots`. -/
def DraftRow.fillTeam (sides : Option Int × Option Int) (row : DraftRow) : DraftRow :=
  { row with teamId := coalesce row.teamId (if row.team = 0 then sides.1 else sides.2) }

/-! ## Entries -/

/-- What a draft says: the order, the hero, the side, and whether it is a pick. -/
structure DraftEntry where
  ord : Int
  heroId : Int
  team : Int
  isPick : Bool
  deriving DecidableEq

def DraftPick.entry (pick : DraftPick) : DraftEntry :=
  ⟨pick.ord, pick.heroId, pick.team, pick.isPick⟩

def DraftRow.entry (row : DraftRow) : DraftEntry :=
  ⟨row.ord, row.heroId, row.team, row.isPick⟩

@[simp] theorem DraftPick.entry_row (pick : DraftPick) (previous : List DraftRow)
    (sides : Option Int × Option Int) : (pick.row previous sides).entry = pick.entry := rfl

@[simp] theorem DraftPick.entry_stamp (pick : DraftPick) (row : DraftRow) :
    (pick.stamp row).entry = row.entry := by
  rw [DraftPick.stamp]
  split <;> rfl

@[simp] theorem DraftRow.entry_fillSlot (players : Nat → Option PlayerRow) (row : DraftRow) :
    (row.fillSlot players).entry = row.entry := by
  rw [DraftRow.fillSlot]
  split <;> rfl

@[simp] theorem DraftRow.entry_fillLinks (players : Nat → Option PlayerRow) (row : DraftRow) :
    (row.fillLinks players).entry = row.entry := by
  rw [DraftRow.fillLinks]
  split <;> rfl

@[simp] theorem DraftRow.entry_fillTeam (sides : Option Int × Option Int) (row : DraftRow) :
    (row.fillTeam sides).entry = row.entry := rfl

end Persist
end DotaCollector
