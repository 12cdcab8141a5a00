import Mathlib.Data.List.Sigma
import DotaCollector.Persist.Extract
import DotaCollector.Persist.Record

/-!
# Rows of one statement

A persist writes the rows of a table with one `INSERT` of many rows. Postgres refuses it when two
of its rows have one key, and the transaction is lost: of one match, or of a whole window of the
sequence walk. Nothing makes the rows of a statement distinct; they are so when the entries of the
record are, each by the number or the name which the extractor reads from it.
-/

namespace DotaCollector
namespace Persist
namespace Bulk

open Jobs (Json Record asNumber asRecord)

/-! ## The statements -/

/-- An `INSERT` of many rows. -/
inductive BulkInsert where
  | matchPlayers (rows : List (ℚ × ExtractedPlayer))
  | buffs (slot : ℚ) (rows : List BuffFacts)
  | units (slot : ℚ) (rows : List UnitFacts)
  | abilityUpgrades (slot : ℚ) (rows : List AbilityUpgradeFacts)
  | damageBreakdown (slot : ℚ) (rows : List DamageBreakdownFacts)
  | draft (rows : List (DraftPick ℚ))
  | coaches (rows : List CoachFacts)
  | broadcasters (rows : List BroadcasterFacts)

/-- The unique key of a row, without the match, as the numbers and texts that are sent. -/
inductive Key where
  | player (slot : ℚ)
  | buff (slot : ℚ) (buffId : ℚ)
  | unit (slot : ℚ) (unitName : String)
  | abilityUpgrade (slot : ℚ) (seq : ℚ)
  | damage (slot : ℚ) (direction : Direction) (damageType : ℚ)
  | pick (ord : ℚ)
  | coach (accountId : ℚ)
  | broadcaster (seq : Nat)
  deriving DecidableEq

def BulkInsert.keys : BulkInsert → List Key
  | .matchPlayers rows => rows.map fun row => .player row.1
  | .buffs slot rows => rows.map fun row => .buff slot row.buffId
  | .units slot rows => rows.map fun row => .unit slot row.unitName
  | .abilityUpgrades slot rows => rows.map fun row => .abilityUpgrade slot row.seq
  | .damageBreakdown slot rows => rows.map fun row => .damage slot row.direction row.damageType
  | .draft rows => rows.map fun row => .pick row.ord
  | .coaches rows => rows.map fun row => .coach row.accountId
  | .broadcasters rows => rows.map fun row => .broadcaster row.seq

/-- What Postgres says of two rows with one key, which is the only complaint told here. The draft
is inserted without `ON CONFLICT`, after the old rows are deleted. -/
def BulkInsert.complaint : BulkInsert → String
  | .draft _ => "duplicate key value violates unique constraint"
  | _ => "ON CONFLICT DO UPDATE command cannot affect row a second time"

def BulkInsert.execute (insert : BulkInsert) : Except String Unit :=
  if insert.keys.Nodup then .ok () else .error insert.complaint

/-! ## The scripts -/

/-- A statement for some rows, unless there are none. -/
def insertRows {Row : Type} (make : List Row → BulkInsert) (rows : List Row) : List BulkInsert :=
  if rows.isEmpty then [] else [make rows]

/-- The players whose slot is one. -/
def resolved (players : List ExtractedPlayer) : List (ℚ × ExtractedPlayer) :=
  players.filterMap fun player =>
    (Raw.normalizeValvePlayerSlot player.facts.playerSlot).map fun slot => (slot, player)

/-- The statements of a player. -/
def childInserts (slot : ℚ) (player : ExtractedPlayer) : List BulkInsert :=
  insertRows (.buffs slot) player.buffs ++ insertRows (.units slot) player.units ++
    insertRows (.abilityUpgrades slot) player.abilityUpgradeRows ++
    insertRows (.damageBreakdown slot) player.damageBreakdown

def upsertMatchPlayers (players : List ExtractedPlayer) : List BulkInsert :=
  insertRows .matchPlayers (resolved players) ++
    (resolved players).flatMap fun (slot, player) => childInserts slot player

/-- What the transaction finds of the match: whether it was written before, and its draft. -/
structure Found where
  fillOnly : Bool
  counts : DraftCounts

/-- The stored draft stays. -/
def Found.keepsDraft (found : Found) : Bool :=
  found.fillOnly ||
    (draftLooksComplete found.counts.n found.counts.picks && 0 < found.counts.clocks)

def replaceMatchDraft (rows : List (DraftPick ℚ)) (found : Found) : List BulkInsert :=
  if found.keepsDraft then [] else insertRows .draft rows

def replaceCoaches (rows : List CoachFacts) : List BulkInsert := insertRows .coaches rows

def replaceBroadcasters (rows : List BroadcasterFacts) : List BulkInsert :=
  insertRows .broadcasters rows

/-- The statements of many rows which a persist issues. -/
def persistMatchRecord (raw : Record) (found : Found) : List BulkInsert :=
  upsertMatchPlayers (extractPlayers raw) ++
    replaceMatchDraft (extractDraft (picksBans raw)) found ++
    replaceCoaches (extractCoaches raw) ++ replaceBroadcasters (extractBroadcasters raw)

def executeAll (inserts : List BulkInsert) : Except String Unit :=
  inserts.forM BulkInsert.execute

/-- The transaction of `runFetchSeqWindow`: the first complaint ends it for every match. -/
def windowTransaction (window : List (Record × Found)) : Except String Unit :=
  window.forM fun (raw, found) => executeAll (persistMatchRecord raw found)

/-! ## Entries with one key -/

section Entries

variable {Item Id : Type}

/-- The entries have an id, and it is the same. -/
def Clash (id : Item → Option Id) (a b : Item) : Prop := ∃ same, id a = some same ∧ id b = some same

/-- No two entries have the same id. -/
def Apart (id : Item → Option Id) (items : List Item) : Prop :=
  items.Pairwise fun a b => ¬ Clash id a b

theorem nodup_filterMap_iff (id : Item → Option Id) (items : List Item) :
    (items.filterMap id).Nodup ↔ Apart id items := by
  rw [List.Nodup, List.pairwise_filterMap, Apart]
  refine List.Pairwise.iff fun a b => ?_
  constructor
  · rintro different ⟨same, first, second⟩
    exact different same first same second rfl
  · rintro apart one first other second rfl
    exact apart ⟨one, first, second⟩

/-- The rows of a statement have one key each when their entries are apart. -/
theorem nodup_keys_iff {Row Key' : Type} {extract : Item → Option Row} {key : Row → Key'}
    (idOf : Row → Id) (same_key : ∀ a b, key a = key b ↔ idOf a = idOf b) (items : List Item) :
    ((items.filterMap extract).map key).Nodup ↔
      Apart (fun item => (extract item).map idOf) items := by
  rw [← nodup_filterMap_iff, ← List.map_filterMap]
  rw [List.Nodup, List.Nodup, List.pairwise_map, List.pairwise_map]
  exact List.Pairwise.iff fun a b => not_congr (same_key a b)

end Entries

theorem forall_insertRows_iff {Row : Type} {make : List Row → BulkInsert} {key : Row → Key}
    (keyed : ∀ rows, (make rows).keys = rows.map key) (rows : List Row) :
    (∀ insert ∈ insertRows make rows, insert.keys.Nodup) ↔ (rows.map key).Nodup := by
  rw [insertRows]
  cases rows with
  | nil => simp
  | cons row rows => simp [keyed]

/-! ## The entries of a record -/

/-- The id which an entry of `permanent_buffs` names. -/
def buffEntry (item : Json) : Option ℚ :=
  (asRecord (some item)).bind fun buff => numberField buff ["permanent_buff", "buff_id"]

def unitEntry (item : Json) : Option String :=
  (asRecord (some item)).bind fun unit => textField unit ["unitname", "unit_name"]

/-- A bare ability counts by its index, and so does one without a `seq`. -/
def upgradeEntry : Json × Nat → Option ℚ
  | (.number _, index) => some index
  | (item, index) =>
      (asRecord (some item)).bind fun upgrade =>
        (numberField upgrade ["ability", "ability_id"]).map fun _ =>
          (asNumber (upgrade.get "seq")).getD index

/-- Damage without a type has type zero. -/
def damageEntry (item : Json) : Option ℚ :=
  (asRecord (some item)).map fun dmg => (asNumber (dmg.get "damage_type")).getD 0

def coachEntry (item : Json) : Option ℚ :=
  (asRecord (some item)).bind fun row => (asNumber (row.get "account_id")).filter (0 < ·)

/-- A hero counts by its `order` or `ord`, and by its index when it has neither. -/
def pickEntry : Json × Nat → Option ℚ
  | (item, index) =>
      (asRecord (some item)).bind fun row =>
        ((asNumber (row.get "hero_id")).filter (· ≠ 0)).map fun _ =>
          (numberField row ["order", "ord"]).getD index

/-- The numbers name one player: they are equal, or one is 5 to 9 and stands for the other. -/
def SameSlot (slot other : ℚ) : Prop :=
  IsSlot slot ∧ IsSlot other ∧ valveSlot slot = valveSlot other

/-- The records of the players with a slot. -/
def playerRows (raw : Record) : List Record :=
  (rowsOf raw "players").zipIdx.filterMap fun (item, index) =>
    (asRecord (some item)).filter fun row => IsSlot (rawSlot row index)

/-- Two entries of `players` name one player. -/
def SamePlayer (a b : Json × Nat) : Prop :=
  ∃ row ∈ asRecord (some a.1), ∃ other ∈ asRecord (some b.1),
    SameSlot (rawSlot row a.2) (rawSlot other b.2)

/-- The arrays of a player have no two entries with one id. -/
structure PartsApart (row : Record) : Prop where
  buffs : Apart buffEntry (rowsOf row "permanent_buffs")
  units : Apart unitEntry (rowsOf row "additional_units")
  upgrades : Apart upgradeEntry (upgradeItems row).zipIdx
  received : Apart damageEntry (rowsOf row "hero_damage_received")
  dealt : Apart damageEntry (rowsOf row "hero_damage_dealt")

/-- The arrays of a record have no two entries with one id; the draft does not matter when the
stored one stays. -/
structure EntriesApart (raw : Record) (found : Found) : Prop where
  players : (rowsOf raw "players").zipIdx.Pairwise fun a b => ¬ SamePlayer a b
  parts : ∀ row ∈ playerRows raw, PartsApart row
  draft : found.keepsDraft = true ∨ Apart pickEntry (rowsOf raw "picks_bans").zipIdx
  coaches : Apart coachEntry (rowsOf raw "coaches")

/-! ## Each statement -/

section Statements

variable {raw row : Record} {slot : ℚ}

theorem buffs_iff :
    (∀ insert ∈ insertRows (.buffs slot) (extractPlayer row slot).buffs, insert.keys.Nodup) ↔
      Apart buffEntry (rowsOf row "permanent_buffs") := by
  have entry : (fun item => (extractBuff item).map BuffFacts.buffId) = buffEntry := by
    funext item
    simp [extractBuff, buffEntry, buffIdOf, Option.map_bind, Function.comp_def]
  rw [forall_insertRows_iff fun _ => rfl, extractPlayer,
    nodup_keys_iff BuffFacts.buffId (by simp), entry]

theorem units_iff :
    (∀ insert ∈ insertRows (.units slot) (extractPlayer row slot).units, insert.keys.Nodup) ↔
      Apart unitEntry (rowsOf row "additional_units") := by
  have entry : (fun item => (extractUnit item).map UnitFacts.unitName) = unitEntry := by
    funext item
    simp [extractUnit, unitEntry, unitNameOf, Option.map_bind, Function.comp_def]
  rw [forall_insertRows_iff fun _ => rfl, extractPlayer,
    nodup_keys_iff UnitFacts.unitName (by simp), entry]

theorem abilityUpgrades_iff :
    (∀ insert ∈ insertRows (.abilityUpgrades slot) (extractPlayer row slot).abilityUpgradeRows,
      insert.keys.Nodup) ↔ Apart upgradeEntry (upgradeItems row).zipIdx := by
  have entry : (fun entry : Json × Nat =>
      (extractAbilityUpgrade entry.1 entry.2).map AbilityUpgradeFacts.seq) = upgradeEntry := by
    funext ⟨item, index⟩
    cases item with
    | number => rfl
    | _ => simp [extractAbilityUpgrade, upgradeEntry, Option.map_bind, Function.comp_def]
  rw [forall_insertRows_iff fun _ => rfl, extractPlayer, extractAbilityUpgrades,
    nodup_keys_iff AbilityUpgradeFacts.seq (by simp), entry]

theorem keys_of_damage (key : String) (direction : Direction) :
    ((extractDamage row key direction).map fun dmg =>
      Key.damage slot dmg.direction dmg.damageType) =
      ((rowsOf row key).filterMap damageEntry).map (Key.damage slot direction) := by
  rw [extractDamage, List.map_filterMap, List.map_filterMap]
  congr 1
  funext item
  simp [damageEntry, damageTypeOf, Function.comp_def]

theorem nodup_damage_iff (direction : Direction) (items : List Json) :
    ((items.filterMap damageEntry).map (Key.damage slot direction)).Nodup ↔
      Apart damageEntry items := by
  have injective : Function.Injective (Key.damage slot direction) := by
    intro type other same
    cases same
    rfl
  rw [List.nodup_map_iff injective, nodup_filterMap_iff]

theorem damageBreakdown_iff :
    (∀ insert ∈ insertRows (.damageBreakdown slot) (extractPlayer row slot).damageBreakdown,
      insert.keys.Nodup) ↔
      Apart damageEntry (rowsOf row "hero_damage_received") ∧
        Apart damageEntry (rowsOf row "hero_damage_dealt") := by
  rw [forall_insertRows_iff fun _ => rfl, extractPlayer, List.map_append, keys_of_damage,
    keys_of_damage, List.nodup_append, nodup_damage_iff, nodup_damage_iff]
  constructor
  · rintro ⟨received, dealt, -⟩
    exact ⟨received, dealt⟩
  · rintro ⟨received, dealt⟩
    refine ⟨received, dealt, ?_⟩
    -- the direction is part of the key
    intro first member second member' same
    obtain ⟨type, -, rfl⟩ := List.mem_map.mp member
    obtain ⟨type', -, rfl⟩ := List.mem_map.mp member'
    cases same

theorem coaches_iff : (∀ insert ∈ replaceCoaches (extractCoaches raw), insert.keys.Nodup) ↔
    Apart coachEntry (rowsOf raw "coaches") := by
  have entry : (fun item => (extractCoach item).map CoachFacts.accountId) = coachEntry := by
    funext item
    rw [extractCoach, coachEntry, Option.map_bind]
    congr 1
    funext row
    rw [Function.comp_apply]
    cases asNumber (row.get "account_id") with
    | none => rfl
    | some accountId =>
        by_cases positive : 0 < accountId
        · simp [positive, Option.filter]
        · simp [positive, Option.filter, not_lt.mp positive]
  rw [replaceCoaches, forall_insertRows_iff fun _ => rfl, extractCoaches,
    nodup_keys_iff CoachFacts.accountId (by simp), entry]

theorem extractDraft_picksBans : extractDraft (picksBans raw) =
    (rowsOf raw "picks_bans").zipIdx.filterMap fun entry =>
      (rawPick entry.1).bind (RawPick.extract entry.2) := by
  rw [extractDraft, picksBans, List.zipIdx_map, List.filterMap_map]
  rfl

theorem draft_iff (found : Found) :
    (∀ insert ∈ replaceMatchDraft (extractDraft (picksBans raw)) found, insert.keys.Nodup) ↔
      found.keepsDraft = true ∨ Apart pickEntry (rowsOf raw "picks_bans").zipIdx := by
  have entry : (fun entry : Json × Nat =>
      ((rawPick entry.1).bind (RawPick.extract entry.2)).map DraftPick.ord) = pickEntry := by
    funext ⟨item, index⟩
    rw [rawPick, pickEntry]
    cases asRecord (some item) with
    | none => rfl
    | some row =>
        simp only [Option.map_some, Option.bind_some, RawPick.extract, numberField]
        cases asNumber (row.get "hero_id") with
        | none => rfl
        | some heroId =>
            by_cases hero : heroId = 0
            · simp [hero, Option.filter]
            · cases first : asNumber (row.get "order") with
              | none =>
                  cases second : asNumber (row.get "ord") with
                  | none => simp [hero, Option.filter, List.findSome?, first, second]
                  | some ord => simp [hero, Option.filter, List.findSome?, first, second]
              | some order => simp [hero, Option.filter, List.findSome?, first]
  rw [replaceMatchDraft]
  split_ifs with keeps
  · simp [keeps]
  · rw [forall_insertRows_iff fun _ => rfl, extractDraft_picksBans,
      nodup_keys_iff DraftPick.ord (by simp), entry]
    simp [keeps]

/-- The broadcasters number themselves. -/
theorem broadcasters_nodup :
    ∀ insert ∈ replaceBroadcasters (extractBroadcasters raw), insert.keys.Nodup := by
  rw [replaceBroadcasters, forall_insertRows_iff fun _ => rfl, extractBroadcasters, List.map_map]
  have injective : Function.Injective Key.broadcaster := fun _ _ => Key.broadcaster.inj
  have numbers :=
    List.nodup_zipIdx_map_snd ((rowsOf raw "broadcaster_channels").flatMap channelInfos)
  rw [← List.nodup_map_iff injective, List.map_map] at numbers
  exact numbers

/-! ### The players -/

theorem isSlot_iff (slot : ℚ) :
    IsSlot slot ↔ ∃ normal, Raw.normalizeValvePlayerSlot slot = some normal := by
  rw [Raw.normalizeValvePlayerSlot_eq]
  split_ifs with named
  · simp [named]
  · simp [named]

theorem sameSlot_iff (slot other : ℚ) :
    SameSlot slot other ↔ ∃ normal, Raw.normalizeValvePlayerSlot slot = some normal ∧
      Raw.normalizeValvePlayerSlot other = some normal := by
  rw [SameSlot, Raw.normalizeValvePlayerSlot_eq, Raw.normalizeValvePlayerSlot_eq]
  split_ifs with named named'
  all_goals simp [*]
  exact eq_comm

/-- A slot is normalised twice, the second time without effect. -/
theorem resolved_extractPlayers : resolved (extractPlayers raw) =
    (rowsOf raw "players").zipIdx.filterMap fun (item, index) =>
      (asRecord (some item)).bind fun row =>
        (Raw.normalizeValvePlayerSlot (rawSlot row index)).map fun slot =>
          (slot, extractPlayer row slot) := by
  rw [resolved, extractPlayers, List.filterMap_filterMap]
  congr 1
  funext ⟨item, index⟩
  simp only
  cases asRecord (some item) with
  | none => rfl
  | some row =>
      simp only [Option.bind_some]
      cases normalised : Raw.normalizeValvePlayerSlot (rawSlot row index) with
      | none => rfl
      | some slot =>
          simp [extractPlayer, Raw.normalizeValvePlayerSlot_idem normalised]

theorem players_iff :
    (∀ insert ∈ insertRows .matchPlayers (resolved (extractPlayers raw)), insert.keys.Nodup) ↔
      (rowsOf raw "players").zipIdx.Pairwise fun a b => ¬ SamePlayer a b := by
  rw [forall_insertRows_iff fun _ => rfl, resolved_extractPlayers,
    nodup_keys_iff Prod.fst (by simp), Apart]
  refine List.Pairwise.iff fun a b => not_congr ?_
  obtain ⟨item, index⟩ := a
  obtain ⟨item', index'⟩ := b
  rw [Clash, SamePlayer]
  cases found : asRecord (some item) with
  | none => simp [found]
  | some row =>
      cases found' : asRecord (some item') with
      | none => simp [found']
      | some row' => simp [found, found', sameSlot_iff]

theorem parts_iff : (∀ insert ∈ childInserts slot (extractPlayer row slot), insert.keys.Nodup) ↔
    PartsApart row := by
  simp only [childInserts, List.forall_mem_append, buffs_iff, units_iff, abilityUpgrades_iff,
    damageBreakdown_iff]
  constructor
  · rintro ⟨⟨⟨buffs, units⟩, upgrades⟩, received, dealt⟩
    exact ⟨buffs, units, upgrades, received, dealt⟩
  · rintro ⟨buffs, units, upgrades, received, dealt⟩
    exact ⟨⟨⟨buffs, units⟩, upgrades⟩, received, dealt⟩

theorem children_iff :
    (∀ insert ∈ (resolved (extractPlayers raw)).flatMap fun (slot, player) =>
      childInserts slot player, insert.keys.Nodup) ↔ ∀ row ∈ playerRows raw, PartsApart row := by
  simp only [List.forall_mem_flatMap, resolved_extractPlayers, playerRows]
  constructor
  · intro accepted row member
    obtain ⟨⟨item, index⟩, entry, kept⟩ := List.mem_filterMap.mp member
    obtain ⟨found, named⟩ := Option.filter_eq_some_iff.mp kept
    obtain ⟨slot, normalised⟩ := (isSlot_iff _).mp (of_decide_eq_true named)
    refine parts_iff.mp (accepted (slot, extractPlayer row slot)
      (List.mem_filterMap.mpr ⟨(item, index), entry, ?_⟩))
    simp [found, normalised]
  · rintro apart ⟨slot, player⟩ member
    obtain ⟨⟨item, index⟩, entry, kept⟩ := List.mem_filterMap.mp member
    obtain ⟨row, found, kept⟩ := Option.bind_eq_some_iff.mp kept
    obtain ⟨slot', normalised, same⟩ := Option.map_eq_some_iff.mp kept
    cases same
    refine parts_iff.mpr (apart row (List.mem_filterMap.mpr ⟨(item, index), entry, ?_⟩))
    have named : IsSlot (rawSlot row index) := (isSlot_iff _).mpr ⟨slot, normalised⟩
    simp [found, named]

end Statements

/-! ## A persist -/

theorem persist_accepted_iff (raw : Record) (found : Found) :
    (∀ insert ∈ persistMatchRecord raw found, insert.keys.Nodup) ↔ EntriesApart raw found := by
  simp only [persistMatchRecord, upsertMatchPlayers, List.forall_mem_append, players_iff,
    children_iff, draft_iff, coaches_iff]
  constructor
  · rintro ⟨⟨⟨⟨players, parts⟩, draft⟩, coaches⟩, -⟩
    exact ⟨players, parts, draft, coaches⟩
  · rintro ⟨players, parts, draft, coaches⟩
    exact ⟨⟨⟨⟨players, parts⟩, draft⟩, coaches⟩, broadcasters_nodup⟩

/-- Players with integers for slots are those of the script of the writer, which refuses equal slots
too. -/
theorem insertMatchPlayers_accepted_iff {matchId : MatchId} {view : MatchView}
    (stored : view.matchRow.isSome) (players : List ExtractedPlayer) (facts : List PlayerFacts)
    (whole : players.map (·.facts.playerSlot) = facts.map fun player => (player.playerSlot : ℚ))
    (fillOnly : Bool) (playerIds : Int → Option Int) (sides : Option Int × Option Int) :
    ((Statement.insertMatchPlayers (facts.filterMap
      (resolvePlayer playerIds sides)) fillOnly).execute matchId view).isSome ↔
      (BulkInsert.matchPlayers (resolved players)).keys.Nodup := by
  have slots : (resolved players).map Prod.fst =
      ((facts.filterMap (resolvePlayer playerIds sides)).map Prod.fst).map Nat.cast := by
    have read : (resolved players).map Prod.fst =
        (players.map (·.facts.playerSlot)).filterMap Raw.normalizeValvePlayerSlot := by
      rw [resolved, List.map_filterMap, List.filterMap_map]
      congr 1
      funext player
      simp [Function.comp_def]
    rw [read, whole, List.filterMap_map, List.map_filterMap, List.map_filterMap]
    congr 1
    funext player
    simp [resolvePlayer, Function.comp_def, Raw.normalizeValvePlayerSlot_intCast]
  have injective : Function.Injective Key.player := fun _ _ => Key.player.inj
  have keys : (BulkInsert.matchPlayers (resolved players)).keys =
      ((resolved players).map Prod.fst).map Key.player := by
    rw [List.map_map]
    rfl
  rw [keys, List.nodup_map_iff injective, slots, List.nodup_map_iff Nat.cast_injective,
    Statement.execute, stored, Bool.true_and]
  by_cases distinct : ((facts.filterMap (resolvePlayer playerIds sides)).map Prod.fst).Nodup
  · simp [distinct]
  · simp [distinct]

theorem forM_eq_ok_iff {Item : Type} (act : Item → Except String Unit) (items : List Item) :
    items.forM act = .ok () ↔ ∀ item ∈ items, act item = .ok () := by
  induction items with
  | nil => simp [pure, Except.pure]
  | cons item items ih =>
      rw [List.forall_mem_cons, ← ih]
      change (act item >>= fun _ => items.forM act) = _ ↔ _
      cases act item with
      | error message => simp [bind, Except.bind]
      | ok value => simp [bind, Except.bind]

theorem execute_eq_ok_iff (insert : BulkInsert) : insert.execute = .ok () ↔ insert.keys.Nodup := by
  rw [BulkInsert.execute]
  split_ifs with distinct
  · simp [distinct]
  · simp [distinct]

theorem executeAll_eq_ok_iff (raw : Record) (found : Found) :
    executeAll (persistMatchRecord raw found) = .ok () ↔ EntriesApart raw found := by
  rw [executeAll, forM_eq_ok_iff, ← persist_accepted_iff]
  simp only [execute_eq_ok_iff]

/-- The statements of a persist have distinct keys when the entries of its record are apart, and a
window is written when this is so for each of its matches. -/
theorem persist_has_distinct_keys_iff (raw : Record) (found : Found)
    (window : List (Record × Found)) :
    ((∀ insert ∈ persistMatchRecord raw found, insert.keys.Nodup) ↔ EntriesApart raw found) ∧
      (windowTransaction window = .ok () ↔ ∀ item ∈ window, EntriesApart item.1 item.2) := by
  refine ⟨persist_accepted_iff raw found, ?_⟩
  rw [windowTransaction, forM_eq_ok_iff]
  simp only [executeAll_eq_ok_iff]

/-- Two players of a record name one slot in the two ways, and a match which could be written is
lost with it. -/
theorem two_names_of_a_slot : ∃ (good bad : Record) (found : Found),
    executeAll (persistMatchRecord good found) = .ok () ∧
      (¬ ∀ insert ∈ persistMatchRecord bad found, insert.keys.Nodup) ∧
      windowTransaction [(good, found), (bad, found)] =
        .error "ON CONFLICT DO UPDATE command cannot affect row a second time" := by
  let player (slot : ℚ) : Json := .object [("player_slot", .number slot)]
  let good : Record := [("players", .array [player 0, player 128])]
  let bad : Record := [("players", .array [player 5, player 128])]
  let found : Found := { fillOnly := false, counts := { n := 0, picks := 0, clocks := 0 } }
  refine ⟨good, bad, found, by decide +kernel, by decide +kernel, by decide +kernel⟩

end Bulk
end Persist
end DotaCollector
