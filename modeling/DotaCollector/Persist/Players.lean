import DotaCollector.Matches.Row

/-!
# The `match_players` table

Ten rows per match, keyed by the slot. A writer either overwrites, where its own value wins over
the stored one, or only fills, where the stored value wins. A zero in one of the id columns
counts as an empty cell.
-/

namespace DotaCollector
namespace Persist

open Nullable

/-- The columns of `match_players` which an upsert writes. -/
inductive PlayerCol where
  | accountId | heroId | heroVariant | playerName | proName | realName | teamNumber | teamSlot
  | kills | deaths | assists | lastHits | denies | gold | goldSpent | level | goldPerMin
  | xpPerMin | netWorth | heroDamage | towerDamage | heroHealing | scaledHeroDamage
  | scaledTowerDamage | scaledHeroHealing | item0 | item1 | item2 | item3 | item4 | item5
  | itemNeutral | itemNeutral2 | item6 | item7 | item8 | item9 | item10 | item10Lvl | backpack0
  | backpack1 | backpack2 | selectedFacet | aghanimsScepter | aghanimsShard | moonshard
  | abilityUpgrades | leaverStatus | partyId | claimedFarmGold | supportGold | claimedDenies
  | claimedMisses | misses | supportAbilityValue | scaledKills | scaledDeaths | scaledAssists
  | heroPickOrder | heroWasRandomed | secondsDead | goldLostToDeath | laneSelectionFlags
  | bountyRunes | outpostsCaptured | disableDuration | side | playerId | teamId
  deriving DecidableEq, Repr

/-- The item columns, which `asItemId` normalises. -/
def itemCols : List PlayerCol :=
  [.item0, .item1, .item2, .item3, .item4, .item5, .itemNeutral, .itemNeutral2, .item6, .item7,
    .item8, .item9, .item10, .backpack0, .backpack1, .backpack2]

/-- The columns in which a zero is empty. -/
def zeroIds : List PlayerCol := [.accountId, .heroId] ++ itemCols

/-- A row of `match_players`. -/
abbrev PlayerRow := PlayerCol → Option Value

/-- The assignment of one column on conflict. -/
def takePlayerCol (fillOnly zeroEmpty : Bool) (stored excluded : Option Value) : Option Value :=
  if zeroEmpty then
    if fillOnly then
      coalesce (nullif stored (.int 0)) (coalesce (nullif excluded (.int 0)) stored)
    else coalesce (nullif excluded (.int 0)) (coalesce (nullif stored (.int 0)) (some (.int 0)))
  else if fillOnly then coalesce stored excluded
  else coalesce excluded stored

/-- The row `ON CONFLICT … DO UPDATE` leaves. -/
def mergePlayer (fillOnly : Bool) (stored excluded : PlayerRow) : PlayerRow
  | .side => if fillOnly then stored .side else excluded .side
  | .playerId => coalesce (stored .playerId) (excluded .playerId)
  | .teamId => coalesce (stored .teamId) (excluded .teamId)
  | col => takePlayerCol fillOnly (col ∈ zeroIds) (stored col) (excluded col)

/-! ## The rows of a record -/

def normalizeValvePlayerSlot (slot : Int) : Option Nat :=
  if 0 ≤ slot ∧ slot ≤ 4 then some slot.toNat
  else if 128 ≤ slot ∧ slot ≤ 132 then some slot.toNat
  else if 5 ≤ slot ∧ slot ≤ 9 then some (128 + (slot.toNat - 5))
  else none

/-- A slot which has been normalised stays as it is. -/
theorem normalizeValvePlayerSlot_idem {slot : Int} {normal : Nat}
    (normalised : normalizeValvePlayerSlot slot = some normal) :
    normalizeValvePlayerSlot normal = some normal := by
  unfold normalizeValvePlayerSlot at *
  grind

/-- Every slot a row can have. -/
def playerSlots : List Nat := [0, 1, 2, 3, 4, 128, 129, 130, 131, 132]

/-- The facts of one player; `stats` are the nullable ones. -/
structure PlayerFacts (Number : Type := Int) where
  accountId : Number
  playerSlot : Number
  heroId : Number
  stats : PlayerCol → Option Value := fun _ => none

/-- Inventory id. Valve `-1` means empty, same as `0`. -/
def asItemId : Option Value → Option Value
  | some (.int id) => some (.int (if id < 0 then 0 else id))
  | _ => none

/-- The row of a player, with the ids found for it. -/
def PlayerFacts.row (player : PlayerFacts) (slot : Nat) (playerId teamId : Option Int) : PlayerRow
  | .accountId => some (.int player.accountId)
  | .heroId => some (.int player.heroId)
  | .side => some (.text (if slot < 128 then "radiant" else "dire"))
  | .playerId => playerId.map .int
  | .teamId => teamId.map .int
  | col => if col ∈ itemCols then asItemId (player.stats col) else player.stats col

/-- The account of a stored row. -/
def accountOf (row : PlayerRow) : Int :=
  match row .accountId with
  | some (.int accountId) => accountId
  | _ => 0

/-! ## Cells which keep their value -/

/-- The cell holds a value: not null, and not zero in an id column. -/
def Filled (col : PlayerCol) (value : Option Value) : Prop :=
  value ≠ none ∧ (col ∈ zeroIds → value ≠ some (.int 0))

/-- A writer which only fills keeps every filled cell. -/
theorem mergePlayer_fillOnly {col : PlayerCol} {stored : PlayerRow} (excluded : PlayerRow)
    (filled : Filled col (stored col)) : mergePlayer true stored excluded col = stored col := by
  have takes : takePlayerCol true (col ∈ zeroIds) (stored col) (excluded col) = stored col := by
    by_cases zero : col ∈ zeroIds
    · simp only [takePlayerCol, zero, decide_true, if_true]
      rw [nullif_of_ne (filled.2 zero), coalesce_of_ne_none filled.1]
    · simp only [takePlayerCol, zero, decide_false, Bool.false_eq_true, if_false, if_true]
      exact coalesce_of_ne_none filled.1 _
  cases col with
  | side => rfl
  | playerId | teamId => exact coalesce_of_ne_none filled.1 _
  | _ => exact takes

end Persist
end DotaCollector
