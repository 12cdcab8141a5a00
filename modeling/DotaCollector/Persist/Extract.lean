import DotaCollector.Jobs.Payload
import DotaCollector.Persist.Draft

/-!
# Reading a match record

A match record is an object from the web API or the game coordinator. Six extractors read its
arrays: an entry which is not an object is skipped, and so is one without an id. An entry without a
number of its own takes its index for it. The numbers of a record are doubles: they need not be
integers before Postgres has seen them.
-/

namespace DotaCollector
namespace Persist

open Jobs (Json Record asNumber asString asRecord)

/-! ## Fields -/

def asBool : Option Json → Option Bool
  | some (.bool value) => some value
  | _ => none

/-- `Array.isArray(row[name]) ? row[name] : null` -/
def arrayField (row : Record) (name : String) : Option (List Json) :=
  match row.get name with
  | some (.array items) => some items
  | _ => none

/-- `Array.isArray(row[name]) ? row[name] : []` -/
def rowsOf (row : Record) (name : String) : List Json := (arrayField row name).getD []

def asIntArray (items : List Json) : List ℚ :=
  items.filterMap fun item =>
    match item with
    | .number value => some value
    | item => (asRecord (some item)).bind fun row => asNumber (row.get "ability")

/-- The first of some fields which is a number. -/
def numberField (row : Record) (names : List String) : Option ℚ :=
  names.findSome? fun name => asNumber (row.get name)

def textField (row : Record) (names : List String) : Option String :=
  names.findSome? fun name => asString (row.get name)

def boolField (row : Record) (names : List String) : Option Bool :=
  names.findSome? fun name => asBool (row.get name)

/-- A number, as the value of a column. -/
def valueOf (number : ℚ) : Value := if number.den = 1 then .int number.num else .real number

/-- `asItemId` -/
def itemId (value : Option Json) : Option Value :=
  (asNumber value).map fun id => valueOf (if id < 0 then 0 else id)

def itemField (row : Record) (names : List String) : Option Value :=
  names.findSome? fun name => itemId (row.get name)

/-! ## Slots -/

/-- A number which names a player: 0–4 or 128–132, or 5–9 for the latter. -/
def IsSlot (slot : ℚ) : Prop :=
  (0 ≤ slot ∧ slot ≤ 4) ∨ (128 ≤ slot ∧ slot ≤ 132) ∨ (5 ≤ slot ∧ slot ≤ 9)

instance (slot : ℚ) : Decidable (IsSlot slot) := inferInstanceAs (Decidable (_ ∨ _))

/-- 5–9 stand for 128–132; the sum is a double. -/
def valveSlot (slot : ℚ) : ℚ :=
  if 5 ≤ slot ∧ slot ≤ 9 then Double.nearest (128 + (slot - 5)) else slot

namespace Raw

/-- The slot of a record, which need not be an integer. -/
def normalizeValvePlayerSlot (slot : ℚ) : Option ℚ :=
  if 0 ≤ slot ∧ slot ≤ 4 then some slot
  else if 128 ≤ slot ∧ slot ≤ 132 then some slot
  else if 5 ≤ slot ∧ slot ≤ 9 then some (Double.nearest (128 + (slot - 5)))
  else none

theorem normalizeValvePlayerSlot_eq (slot : ℚ) :
    normalizeValvePlayerSlot slot = if IsSlot slot then some (valveSlot slot) else none := by
  unfold normalizeValvePlayerSlot IsSlot valveSlot
  split_ifs <;> first | rfl | grind

/-- A slot which has been normalised stays as it is. -/
theorem normalizeValvePlayerSlot_idem {slot normal : ℚ}
    (normalised : normalizeValvePlayerSlot slot = some normal) :
    normalizeValvePlayerSlot normal = some normal := by
  unfold normalizeValvePlayerSlot at normalised
  split_ifs at normalised with radiant dire linear
  · cases normalised
    exact if_pos radiant
  · cases normalised
    rw [normalizeValvePlayerSlot, if_neg radiant, if_pos dire]
  · have low : Double.nearest 128 ≤ Double.nearest (128 + (slot - 5)) :=
      Double.nearest_mono (by norm_num) (by linarith)
    have high : Double.nearest (128 + (slot - 5)) ≤ Double.nearest 132 :=
      Double.nearest_mono (by linarith) (by linarith)
    have first : Double.nearest 128 = 128 := by decide +kernel
    have last : Double.nearest 132 = 132 := by decide +kernel
    rw [Option.some_inj] at normalised
    rw [first, normalised] at low
    rw [last, normalised] at high
    rw [normalizeValvePlayerSlot, if_neg (by grind), if_pos ⟨low, high⟩]

/-- The slots of the integers. -/
theorem normalizeValvePlayerSlot_intCast (slot : Int) :
    normalizeValvePlayerSlot slot = (Persist.normalizeValvePlayerSlot slot).map (↑) := by
  have shifted : ∀ slot : Int, 5 ≤ slot ∧ slot ≤ 9 →
      Double.nearest (128 + ((slot : ℚ) - 5)) = ((128 + (slot.toNat - 5) : Nat) : ℚ) := by
    intro slot linear
    have cases : slot = 5 ∨ slot = 6 ∨ slot = 7 ∨ slot = 8 ∨ slot = 9 := by omega
    rcases cases with rfl | rfl | rfl | rfl | rfl
    all_goals decide +kernel
  unfold normalizeValvePlayerSlot Persist.normalizeValvePlayerSlot
  have bounds : ((0 ≤ (slot : ℚ) ∧ (slot : ℚ) ≤ 4) ↔ 0 ≤ slot ∧ slot ≤ 4) ∧
      ((128 ≤ (slot : ℚ) ∧ (slot : ℚ) ≤ 132) ↔ 128 ≤ slot ∧ slot ≤ 132) ∧
      ((5 ≤ (slot : ℚ) ∧ (slot : ℚ) ≤ 9) ↔ 5 ≤ slot ∧ slot ≤ 9) := by
    refine ⟨?_, ?_, ?_⟩
    all_goals norm_cast
  have whole (nonneg : 0 ≤ slot) : (slot : ℚ) = (slot.toNat : ℚ) := by
    exact_mod_cast (Int.toNat_of_nonneg nonneg).symm
  simp only [bounds.1, bounds.2.1, bounds.2.2]
  split_ifs with radiant dire linear
  · exact congrArg some (whole radiant.1)
  · exact congrArg some (whole (by omega))
  · exact congrArg some (shifted slot linear)
  · rfl

end Raw

/-! ## The parts of a player -/

structure BuffFacts where
  buffId : ℚ
  stackCount : ℚ
  grantTime : Option ℚ

structure UnitFacts where
  unitName : String
  items : List (Option Value)

structure AbilityUpgradeFacts where
  seq : ℚ
  abilityId : ℚ
  time : Option ℚ
  level : Option ℚ

inductive Direction where
  | received
  | dealt
  deriving DecidableEq

structure DamageBreakdownFacts where
  direction : Direction
  damageType : ℚ
  preReduction : Option ℚ
  postReduction : Option ℚ

def buffIdOf (buff : Record) : Option ℚ := numberField buff ["permanent_buff", "buff_id"]

def extractBuff (item : Json) : Option BuffFacts :=
  (asRecord (some item)).bind fun buff =>
    (buffIdOf buff).map fun buffId =>
      { buffId
        stackCount := (numberField buff ["stack_count", "stacks"]).getD 1
        grantTime := asNumber (buff.get "grant_time") }

def unitNameOf (unit : Record) : Option String := textField unit ["unitname", "unit_name"]

def extractUnit (item : Json) : Option UnitFacts :=
  (asRecord (some item)).bind fun unit =>
    (unitNameOf unit).map fun unitName =>
      let items := arrayField unit "items"
      { unitName
        items :=
          ["item_0", "item_1", "item_2", "item_3", "item_4", "item_5"].zipIdx.map
            fun (name, index) =>
              itemId (unit.get name) <|> items.bind fun items => itemId items[index]? }

/-- The upgrade at an index; a bare number is an ability. -/
def extractAbilityUpgrade (item : Json) (index : Nat) : Option AbilityUpgradeFacts :=
  match item with
  | .number abilityId => some { seq := index, abilityId, time := none, level := some (index + 1) }
  | item =>
      (asRecord (some item)).bind fun upgrade =>
        (numberField upgrade ["ability", "ability_id"]).map fun abilityId =>
          { seq := (asNumber (upgrade.get "seq")).getD index
            abilityId
            time := asNumber (upgrade.get "time")
            level := asNumber (upgrade.get "level") }

def upgradeItems (row : Record) : List Json :=
  (arrayField row "ability_upgrades" <|> arrayField row "ability_upgrades_arr").getD []

def extractAbilityUpgrades (row : Record) : List AbilityUpgradeFacts :=
  (upgradeItems row).zipIdx.filterMap fun (item, index) => extractAbilityUpgrade item index

def damageTypeOf (dmg : Record) : ℚ := (asNumber (dmg.get "damage_type")).getD 0

def extractDamage (row : Record) (key : String) (direction : Direction) :
    List DamageBreakdownFacts :=
  (rowsOf row key).filterMap fun item =>
    (asRecord (some item)).map fun dmg =>
      { direction
        damageType := damageTypeOf dmg
        preReduction := asNumber (dmg.get "pre_reduction")
        postReduction := asNumber (dmg.get "post_reduction") }

/-! ## A player -/

/-- The columns which are the first number of some fields. -/
def numberFields : PlayerCol → List String
  | .heroVariant => ["hero_variant", "selected_facet"]
  | .selectedFacet => ["selected_facet", "hero_variant"]
  | .teamNumber => ["team_number"]
  | .teamSlot => ["team_slot"]
  | .kills => ["kills"]
  | .deaths => ["deaths", "death"]
  | .assists => ["assists"]
  | .lastHits => ["last_hits"]
  | .denies => ["denies"]
  | .gold => ["gold"]
  | .goldSpent => ["gold_spent"]
  | .goldPerMin => ["gold_per_min"]
  | .xpPerMin => ["xp_per_min"]
  | .netWorth => ["net_worth"]
  | .level => ["level"]
  | .heroDamage => ["hero_damage"]
  | .towerDamage => ["tower_damage"]
  | .heroHealing => ["hero_healing"]
  | .scaledHeroDamage => ["scaled_hero_damage"]
  | .scaledTowerDamage => ["scaled_tower_damage"]
  | .scaledHeroHealing => ["scaled_hero_healing"]
  | .item10Lvl => ["item_10_lvl"]
  | .leaverStatus => ["leaver_status"]
  | .partyId => ["party_id"]
  | .claimedFarmGold => ["claimed_farm_gold"]
  | .supportGold => ["support_gold"]
  | .claimedDenies => ["claimed_denies"]
  | .claimedMisses => ["claimed_misses"]
  | .misses => ["misses"]
  | .supportAbilityValue => ["support_ability_value"]
  | .scaledKills => ["scaled_kills"]
  | .scaledDeaths => ["scaled_deaths"]
  | .scaledAssists => ["scaled_assists"]
  | .heroPickOrder => ["hero_pick_order"]
  | .secondsDead => ["seconds_dead"]
  | .goldLostToDeath => ["gold_lost_to_death"]
  | .laneSelectionFlags => ["lane_selection_flags"]
  | .bountyRunes => ["bounty_runes"]
  | .outpostsCaptured => ["outposts_captured", "outposts"]
  | .disableDuration => ["disable_duration"]
  | _ => []

/-- The fields of an item column. -/
def itemFields : PlayerCol → List String
  | .item0 => ["item_0", "item0"]
  | .item1 => ["item_1", "item1"]
  | .item2 => ["item_2", "item2"]
  | .item3 => ["item_3", "item3"]
  | .item4 => ["item_4", "item4"]
  | .item5 => ["item_5", "item5"]
  | .itemNeutral => ["item_neutral", "item_9"]
  | .itemNeutral2 => ["item_neutral2", "item_10"]
  | .item6 => ["item_6"]
  | .item7 => ["item_7"]
  | .item8 => ["item_8"]
  | .item9 => ["item_9"]
  | .item10 => ["item_10"]
  | .backpack0 => ["backpack_0", "item_6"]
  | .backpack1 => ["backpack_1", "item_7"]
  | .backpack2 => ["backpack_2", "item_8"]
  | _ => []

/-- The items a player holds. -/
def held (row : Record) : List (Option Value) :=
  [PlayerCol.item0, .item1, .item2, .item3, .item4, .item5, .backpack0, .backpack1, .backpack2,
    .item9, .item10].map fun col => itemField row (itemFields col)

def scepterItems : List Int := [108, 271]

def shardItem : Int := 609

def moonShardItem : Int := 247

/-- One when an item is held. -/
def heldFlag (held : List (Option Value)) (itemIds : List Int) : Option ℚ :=
  if itemIds.any fun id => some (.int id) ∈ held then some 1 else none

/-- The array of abilities, from the fields or from the extracted upgrades. -/
def abilityIds (row : Record) (upgrades : List AbilityUpgradeFacts) : Option (List ℚ) :=
  (arrayField row "ability_upgrades_arr").map asIntArray <|>
    (arrayField row "ability_upgrades").map asIntArray <|>
    if upgrades.isEmpty then none else some (upgrades.map AbilityUpgradeFacts.abilityId)

def extractStats (row : Record) : PlayerCol → Option Value
  | .playerName => (textField row ["personaname", "player_name", "name"]).map .text
  | .proName => (textField row ["pro_name"]).map .text
  | .realName => (textField row ["real_name"]).map .text
  | .aghanimsScepter =>
      (numberField row ["aghanims_scepter"] <|> heldFlag (held row) scepterItems).map valueOf
  | .aghanimsShard =>
      (numberField row ["aghanims_shard"] <|> heldFlag (held row) [shardItem]).map valueOf
  | .moonshard =>
      (numberField row ["moonshard"] <|> heldFlag (held row) [moonShardItem]).map valueOf
  | .abilityUpgrades => (abilityIds row (extractAbilityUpgrades row)).map .numbers
  | .heroWasRandomed => (boolField row ["hero_was_randomed", "randomed"]).map .bool
  | col =>
      if col ∈ itemCols then itemField row (itemFields col)
      else (numberField row (numberFields col)).map valueOf

/-- A player with the rows of its own tables. -/
structure ExtractedPlayer where
  facts : PlayerFacts ℚ
  abilityUpgradeRows : List AbilityUpgradeFacts
  buffs : List BuffFacts
  units : List UnitFacts
  damageBreakdown : List DamageBreakdownFacts

def extractPlayer (row : Record) (slot : ℚ) : ExtractedPlayer where
  facts :=
    { accountId := (asNumber (row.get "account_id")).getD 0
      playerSlot := slot
      heroId := (asNumber (row.get "hero_id")).getD 0
      stats := extractStats row }
  abilityUpgradeRows := extractAbilityUpgrades row
  buffs := (rowsOf row "permanent_buffs").filterMap extractBuff
  units := (rowsOf row "additional_units").filterMap extractUnit
  damageBreakdown :=
    extractDamage row "hero_damage_received" .received ++
      extractDamage row "hero_damage_dealt" .dealt

/-- The slot which an entry names, or else its index. -/
def rawSlot (row : Record) (index : Nat) : ℚ := (asNumber (row.get "player_slot")).getD index

def extractPlayers (raw : Record) : List ExtractedPlayer :=
  (rowsOf raw "players").zipIdx.filterMap fun (item, index) =>
    (asRecord (some item)).bind fun row =>
      (Raw.normalizeValvePlayerSlot (rawSlot row index)).map (extractPlayer row)

/-! ## The draft, the coaches and the broadcasters -/

def rawFlag : Option Json → RawFlag ℚ
  | some (.bool value) => .bool value
  | some (.number value) => .number value
  | _ => .missing

def rawPick (item : Json) : Option (RawPick ℚ) :=
  (asRecord (some item)).map fun row =>
    { heroId := asNumber (row.get "hero_id")
      isPick := rawFlag (row.get "is_pick")
      team := asNumber (row.get "team")
      order := asNumber (row.get "order")
      ord := asNumber (row.get "ord")
      playerSlot := asNumber (row.get "player_slot")
      clock := asNumber (row.get "clock") }

def picksBans (raw : Record) : List (Option (RawPick ℚ)) := (rowsOf raw "picks_bans").map rawPick

structure CoachFacts where
  accountId : ℚ
  coachName : Option String
  coachRating : Option ℚ
  coachTeam : Option ℚ
  coachPartyId : Option ℚ
  isPrivateCoach : Option Bool

def extractCoach (item : Json) : Option CoachFacts :=
  (asRecord (some item)).bind fun row =>
    (asNumber (row.get "account_id")).bind fun accountId =>
      if accountId ≤ 0 then none
      else some
        { accountId
          coachName := asString (row.get "coach_name")
          coachRating := asNumber (row.get "coach_rating")
          coachTeam := asNumber (row.get "coach_team")
          coachPartyId := asNumber (row.get "coach_party_id")
          isPrivateCoach := asBool (row.get "is_private_coach") }

def extractCoaches (raw : Record) : List CoachFacts :=
  (rowsOf raw "coaches").filterMap extractCoach

structure BroadcasterFacts where
  seq : Nat
  countryCode : Option String
  description : Option String
  languageCode : Option String
  accountId : Option ℚ
  name : Option String

/-- The casters of a channel, each with its channel; a channel without a list is its own caster. -/
def channelInfos (item : Json) : List (Record × Record) :=
  match asRecord (some item) with
  | none => []
  | some channel =>
      ((arrayField channel "broadcaster_infos").getD [item]).filterMap fun info =>
        (asRecord (some info)).map fun info => (channel, info)

/-- The rows are counted as they are pushed. -/
def extractBroadcasters (raw : Record) : List BroadcasterFacts :=
  ((rowsOf raw "broadcaster_channels").flatMap channelInfos).zipIdx.map
    fun ((channel, info), seq) =>
      { seq
        countryCode := asString (channel.get "country_code")
        description := asString (channel.get "description")
        languageCode := asString (channel.get "language_code")
        accountId := asNumber (info.get "account_id")
        name := asString (info.get "name") }

end Persist
end DotaCollector
