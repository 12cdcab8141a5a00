import DotaCollector.Persist.Extract

/-!
# The scoreboard of a live game

A live poll hands the rows of a scoreboard to two writers: the statistics of `match_players` and
the player ticks of ClickHouse. Slots 0–4 of a scoreboard are per side. The tick writer knows the
side and the place of a row, and falls back on them; the statistics know neither. The numbers of a
scoreboard are doubles.
-/

namespace DotaCollector
namespace Live

open Jobs (Json Record asNumber asString asRecord)
open Persist (PlayerFacts PlayerCol IsSlot valveSlot valueOf)
open Persist.Raw (normalizeValvePlayerSlot)

inductive Side where
  | radiant
  | dire
  deriving DecidableEq, Repr

/-- An entry of the roster of a game. -/
structure RosterPlayer where
  account_id : ℚ
  hero_id : ℚ
  team : ℚ

/-- The players of a game, and the rows of the sides of its scoreboard. -/
structure Game where
  players : List RosterPlayer := []
  rows : Side → List Json

def Side.team : Side → ℚ
  | .radiant => 0
  | .dire => 1

/-- Valve `player_slot`: 0–4 radiant, 128–132 dire. -/
def valvePlayerSlot (team teamSlot : ℚ) : ℚ :=
  if team = 0 then teamSlot else 128 + teamSlot

/-! ## The statistics -/

/-- The fields of a row which a column is read from, the first number of them. -/
def statFields : PlayerCol → List String
  | .kills => ["kills"]
  | .deaths => ["death", "deaths"]
  | .assists => ["assists"]
  | .lastHits => ["last_hits"]
  | .denies => ["denies"]
  | .gold => ["gold"]
  | .level => ["level"]
  | .goldPerMin => ["gold_per_min"]
  | .xpPerMin => ["xp_per_min"]
  | .netWorth => ["net_worth"]
  | .item0 => ["item0", "item_0"]
  | .item1 => ["item1", "item_1"]
  | .item2 => ["item2", "item_2"]
  | .item3 => ["item3", "item_3"]
  | .item4 => ["item4", "item_4"]
  | .item5 => ["item5", "item_5"]
  | _ => []

def statOf (side : Side) (row : Record) : PlayerCol → Option Value
  | .playerName =>
      match row.get "name" with
      | some (.string name) => some (.text name)
      | _ => none
  | .teamNumber => some (valueOf side.team)
  | col =>
      ((statFields col).findSome? fun name => asNumber (row.get name)).map fun number =>
        if col ∈ Persist.itemCols then valueOf (if number < 0 then 0 else number)
        else valueOf number

/-- The statistics of a row; `player_slot` alone decides its slot. -/
def liveStat (side : Side) (item : Json) : Option (PlayerFacts ℚ) :=
  (asRecord (some item)).bind fun row =>
    (normalizeValvePlayerSlot ((asNumber (row.get "player_slot")).getD (-1))).map fun slot =>
      { accountId := (asNumber (row.get "account_id")).getD 0
        playerSlot := slot
        heroId := (asNumber (row.get "hero_id")).getD 0
        stats := statOf side row }

def liveStats (game : Game) : List (PlayerFacts ℚ) :=
  [Side.radiant, .dire].flatMap fun side => (game.rows side).filterMap (liveStat side)

/-! ## The ticks -/

def slotFromScoreboard (side : Side) (index : Nat) : Option ℚ → ℚ
  | some raw =>
      if 128 ≤ raw ∧ raw ≤ 132 then raw
      else if 5 ≤ raw ∧ raw ≤ 9 then Double.nearest (128 + (raw - 5))
      else if 0 ≤ raw ∧ raw ≤ 4 then
        if side = .radiant then raw else Double.nearest (128 + raw)
      else valvePlayerSlot side.team index
  | none => valvePlayerSlot side.team index

/-- Who a row is about. -/
structure Identity where
  playerSlot : ℚ
  accountId : ℚ
  deriving DecidableEq

/-- Scoreboard rows often omit `account_id`; 0–4 slots are per-side. -/
def resolveLivePlayerTick (roster : List RosterPlayer) (side : Side) (index : Nat)
    (row : Record) : Identity :=
  let playerSlot := slotFromScoreboard side index (asNumber (row.get "player_slot"))
  let accountId := (asNumber (row.get "account_id")).getD 0
  if 0 < accountId then { playerSlot, accountId }
  else
    let mates := roster.filter (·.team = side.team)
    let heroId := (asNumber (row.get "hero_id")).getD 0
    let byHero := if 0 < heroId then mates.find? (·.hero_id = heroId) else none
    match byHero <|> mates[index]? with
    | some hit => { playerSlot, accountId := hit.account_id }
    | none => { playerSlot, accountId }

/-- ClickHouse unsigned columns: Valve uses -1 for “empty”. -/
def asUInt32 (value : Option Json) : Int :=
  match asNumber value with
  | some number => if number < 0 then 0 else ⌊number⌋
  | none => 0

/-- The first of some fields which is there. -/
def firstField (row : Record) (names : List String) : Option Json :=
  names.findSome? fun name =>
    match row.get name with
    | some .null => none
    | value => value

/-- A row of `live_player_ticks`; `counters` are the unsigned columns which the statistics share. -/
structure LivePlayerTick where
  player_slot : Int
  account_id : Int
  hero_id : ℚ
  counters : PlayerCol → Int

def playerTick (roster : List RosterPlayer) (side : Side) (index : Nat) (item : Json) :
    Option LivePlayerTick :=
  (asRecord (some item)).map fun row =>
    let ident := resolveLivePlayerTick roster side index row
    { player_slot := asUInt32 (some (.number ident.playerSlot))
      account_id := asUInt32 (some (.number ident.accountId))
      hero_id := (asNumber (row.get "hero_id")).getD 0
      counters := fun col => asUInt32 (firstField row (statFields col)) }

def appendTicks (game : Game) : List LivePlayerTick :=
  [Side.radiant, .dire].flatMap fun side =>
    (game.rows side).zipIdx.filterMap fun (item, index) => playerTick game.players side index item

/-! ## Agreement -/

/-- The slot under which the statistics of a row are upserted. -/
def storedSlot (side : Side) (item : Json) : Option ℚ :=
  (liveStat side item).bind fun facts => normalizeValvePlayerSlot facts.playerSlot

/-- Both writers keep or drop a row, and give it one slot. -/
def SlotsAgree (game : Game) : Prop :=
  ∀ side index item, (game.rows side)[index]? = some item →
    storedSlot side item =
      (playerTick game.players side index item).map fun tick => (tick.player_slot : ℚ)

/-- The row is not an object, or names a whole slot without the side. -/
def PlainSlot (side : Side) (item : Json) : Prop :=
  ∀ row ∈ asRecord (some item), ∃ slot ∈ asNumber (row.get "player_slot"),
    ((128 ≤ slot ∧ slot ≤ 132) ∨ (5 ≤ slot ∧ slot ≤ 9) ∨
      (0 ≤ slot ∧ slot ≤ 4 ∧ side = .radiant)) ∧ (valveSlot slot).den = 1

theorem storedSlot_eq (side : Side) (item : Json) :
    storedSlot side item = (asRecord (some item)).bind fun row =>
      normalizeValvePlayerSlot ((asNumber (row.get "player_slot")).getD (-1)) := by
  unfold storedSlot liveStat
  cases asRecord (some item) with
  | none => rfl
  | some row =>
      simp only [Option.bind_some]
      cases normalised :
        normalizeValvePlayerSlot ((asNumber (row.get "player_slot")).getD (-1)) with
      | none => rfl
      | some slot =>
          simp [Persist.Raw.normalizeValvePlayerSlot_idem normalised]

theorem nearest_nonneg {x : ℚ} (nonneg : 0 ≤ x) : 0 ≤ Double.nearest x := by
  rw [← Double.nearest_zero]
  exact Double.nearest_mono (le_refl _) nonneg

theorem slotFromScoreboard_nonneg (side : Side) (index : Nat) (raw : Option ℚ) :
    0 ≤ slotFromScoreboard side index raw := by
  have fallback : 0 ≤ valvePlayerSlot side.team index := by
    unfold valvePlayerSlot
    split
    all_goals positivity
  unfold slotFromScoreboard
  split
  · split_ifs with dire linear radiant here
    · linarith
    · exact nearest_nonneg (by linarith)
    · exact radiant.1
    · exact nearest_nonneg (by linarith)
    · exact fallback
  · exact fallback

theorem tickSlot_eq (roster : List RosterPlayer) (side : Side) (index : Nat) (item : Json) :
    (playerTick roster side index item).map LivePlayerTick.player_slot =
      (asRecord (some item)).map fun row =>
        ⌊slotFromScoreboard side index (asNumber (row.get "player_slot"))⌋ := by
  unfold playerTick
  rw [Option.map_map]
  congr 1
  funext row
  have slot : (resolveLivePlayerTick roster side index row).playerSlot =
      slotFromScoreboard side index (asNumber (row.get "player_slot")) := by
    unfold resolveLivePlayerTick
    dsimp only
    repeat' split
    all_goals rfl
  have nonneg := slotFromScoreboard_nonneg side index (asNumber (row.get "player_slot"))
  rw [← slot] at nonneg ⊢
  exact if_neg (not_lt.mpr nonneg)

theorem eq_floor_iff (x : ℚ) : x = (⌊x⌋ : Int) ↔ x.den = 1 := by
  constructor
  · intro whole
    rw [whole]
    exact Rat.den_intCast _
  · intro whole
    rw [← (Rat.den_eq_one_iff x).mp whole, Int.floor_intCast]

/-- For one raw slot: without the side the normaliser reads a slot as the scoreboard means it,
unless it is 0–4 on the dire side, is out of range, is no whole number or is missing. -/
theorem normalizeValvePlayerSlot_eq_iff (side : Side) (index : Nat) (raw : Option ℚ) :
    normalizeValvePlayerSlot (raw.getD (-1)) =
        some ((⌊slotFromScoreboard side index raw⌋ : Int) : ℚ) ↔
      ∃ slot ∈ raw, ((128 ≤ slot ∧ slot ≤ 132) ∨ (5 ≤ slot ∧ slot ≤ 9) ∨
        (0 ≤ slot ∧ slot ≤ 4 ∧ side = .radiant)) ∧ (valveSlot slot).den = 1 := by
  cases raw with
  | none =>
      have missing : normalizeValvePlayerSlot (-1) = none := by decide +kernel
      simp [missing]
  | some slot =>
      simp only [Option.getD_some, Option.mem_def, Option.some.injEq, exists_eq_left']
      unfold normalizeValvePlayerSlot slotFromScoreboard valveSlot
      by_cases dire : 128 ≤ slot ∧ slot ≤ 132
      · have radiant : ¬ (0 ≤ slot ∧ slot ≤ 4) := by grind
        have linear : ¬ (5 ≤ slot ∧ slot ≤ 9) := by grind
        simp only [if_neg radiant, if_pos dire, if_neg linear, Option.some_inj, eq_floor_iff]
        simp [dire]
      by_cases linear : 5 ≤ slot ∧ slot ≤ 9
      · have radiant : ¬ (0 ≤ slot ∧ slot ≤ 4) := by grind
        simp only [if_neg radiant, if_neg dire, if_pos linear, Option.some_inj, eq_floor_iff]
        simp [linear]
      by_cases radiant : 0 ≤ slot ∧ slot ≤ 4
      · simp only [if_pos radiant, if_neg dire, if_neg linear, Option.some_inj]
        cases side with
        | radiant =>
            simp only [if_true, eq_floor_iff]
            simp [radiant]
        | dire =>
            -- The tick has 128 or more.
            have high : 128 ≤ Double.nearest (128 + slot) := by
              have mono : Double.nearest 128 ≤ Double.nearest (128 + slot) :=
                Double.nearest_mono (by norm_num) (by linarith [radiant.1])
              rwa [show Double.nearest 128 = 128 by decide +kernel] at mono
            have floor : (128 : ℚ) ≤ (⌊Double.nearest (128 + slot)⌋ : Int) := by
              exact_mod_cast Int.le_floor.mpr (by exact_mod_cast high)
            simp only [reduceCtorEq, if_false, and_false, or_false]
            constructor
            · intro same
              linarith [radiant.2]
            · rintro ⟨beyond | five, -⟩
              · exact (dire beyond).elim
              · exact (linear five).elim
      · simp [← and_assoc, radiant, dire, linear]

/-- The writers agree about a game exactly when each row of its scoreboard names its slot in a way
which needs no side. -/
theorem slotsAgree_iff (game : Game) :
    SlotsAgree game ↔ ∀ side, ∀ item ∈ game.rows side, PlainSlot side item := by
  have row_iff : ∀ side index item,
      storedSlot side item =
          (playerTick game.players side index item).map (fun tick => (tick.player_slot : ℚ)) ↔
        PlainSlot side item := by
    intro side index item
    have tick : (playerTick game.players side index item).map
        (fun tick => (tick.player_slot : ℚ)) =
        ((playerTick game.players side index item).map LivePlayerTick.player_slot).map
          (fun slot : Int => (slot : ℚ)) := by
      rw [Option.map_map]
      rfl
    rw [storedSlot_eq, tick, tickSlot_eq]
    unfold PlainSlot
    cases asRecord (some item) with
    | none => simp
    | some row =>
        simp only [Option.bind_some, Option.map_some, Option.mem_def, Option.some.injEq,
          forall_eq']
        exact normalizeValvePlayerSlot_eq_iff side index _
  constructor
  · intro agree side item member
    obtain ⟨index, bound, rfl⟩ := List.mem_iff_getElem.mp member
    exact (row_iff side index _).mp (agree side index _ (List.getElem?_eq_getElem bound))
  · intro plain side index item here
    exact (row_iff side index item).mpr (plain side item (List.mem_of_getElem? here))

/-- The first dire player, as the scoreboard numbers it. -/
def firstDire : Game where
  rows
    | .radiant => []
    | .dire => [.object [("player_slot", .number 0), ("hero_id", .number 10)]]

/-- The statistics of the first dire player are stored as those of the first radiant player. -/
theorem first_dire_stored_as_radiant :
    ¬ SlotsAgree firstDire ∧
      (liveStats firstDire).map PlayerFacts.playerSlot = [0] ∧
      (appendTicks firstDire).map LivePlayerTick.player_slot = [128] := by
  refine ⟨fun agree => ?_, by decide +kernel, by decide +kernel⟩
  have same := agree .dire 0 _ rfl
  revert same
  decide +kernel

end Live
end DotaCollector
