import DotaCollector.Gc.Protobuf

/-!
# The decoder of a match

Each message of a match has a decoder, which is a table: the key of the record, and how its value
is read from the fields of the message. A record inside a message is decoded by the table of its
own. A string is kept as the bytes which `TextDecoder` reads, and a float as its bits.
-/

namespace DotaCollector
namespace Gc

inductive GcValue where
  | undefined
  | null
  | number (value : Nat)
  | float (bits : Nat)
  | text (utf8 : Uint8Array)
  | flag (value : Bool)
  | numbers (values : List Nat)
  | records (items : List (List (String × GcValue)))

/-- A plain object of the code, its keys in the order of the literal. -/
abbrev GcRecord := List (String × GcValue)

def first (fields : List ProtoField) (id : Nat) : Option ProtoField :=
  fields.find? (·.field = id)

def str (field : Option ProtoField) : Option Uint8Array := field.bind (·.bytes)

def float32 (field : Option ProtoField) : Option Nat := field.bind (·.fixed32)

def bool (field : Option ProtoField) : Option Bool :=
  (field.bind (·.varint)).map fun value => decide (value ≠ 0)

/-- How the value of a key is read; `repeated` stands for `repeatedUint32` and for
`repeatedInt32`, which calls it. -/
inductive Reader where
  | num (id : Nat)
  | numOr (id default : Nat)
  | str (id : Nat)
  | float32 (id : Nat)
  | bool (id : Nat)
  | boolOr (id : Nat) (default : Bool)
  | repeated (id : Nat)
  | element (id index : Nat)

def Reader.read (fields : List ProtoField) : Reader → Except String GcValue
  | .num id => .ok (((Gc.num (first fields id)).map .number).getD .undefined)
  | .numOr id default => .ok (.number ((Gc.num (first fields id)).getD default))
  | .str id => .ok (((Gc.str (first fields id)).map .text).getD .undefined)
  | .float32 id => .ok (((Gc.float32 (first fields id)).map .float).getD .undefined)
  | .bool id => .ok (((Gc.bool (first fields id)).map .flag).getD .undefined)
  | .boolOr id default => .ok (.flag ((Gc.bool (first fields id)).getD default))
  | .repeated id => (repeatedUint32 fields id).map .numbers
  | .element id index => (repeatedUint32 fields id).map fun values =>
      (values[index]?.map .number).getD .null

/-- The table of a decoder, in the order of the source. -/
inductive Decoder where
  | done
  | field (key : String) (reader : Reader) (rest : Decoder)
  | records (key : String) (id : Nat) (item : Decoder) (rest : Decoder)

/-- The byte fields of a number. -/
def chunks (fields : List ProtoField) (id : Nat) : List Uint8Array :=
  (all fields id).filterMap (·.bytes)

/-- The object literal of a decoder. -/
def Decoder.read : Decoder → List ProtoField → Except String GcRecord
  | .done, _ => return []
  | .field key reader rest, fields => do
      let value ← reader.read fields
      return (key, value) :: (← rest.read fields)
  | .records key id item rest, fields => do
      let items ← (chunks fields id).mapM fun bytes => do item.read (← decodeFields bytes)
      return (key, .records items) :: (← rest.read fields)

def Decoder.run (decoder : Decoder) (bytes : Uint8Array) : Except String GcRecord := do
  decoder.read (← decodeFields bytes)

/-! ### The tables -/

def decodePickBan : Decoder :=
  .field "is_pick" (.boolOr 1 false) <|
  .field "team" (.numOr 2 0) <|
  .field "hero_id" (.numOr 3 0) <|
  .done

def decodeAbilityUpgrade : Decoder :=
  .field "ability" (.num 1) <|
  .field "time" (.num 2) <|
  .done

def decodeBuff : Decoder :=
  .field "permanent_buff" (.num 1) <|
  .field "stack_count" (.num 2) <|
  .field "grant_time" (.num 3) <|
  .done

def decodeUnit : Decoder :=
  .field "unit_name" (.str 1) <|
  .field "items" (.repeated 2) <|
  .done

def decodeHeroDamage : Decoder :=
  .field "pre_reduction" (.num 1) <|
  .field "post_reduction" (.num 2) <|
  .field "damage_type" (.numOr 3 0) <|
  .done

def decodeCoach : Decoder :=
  .field "account_id" (.num 1) <|
  .field "coach_name" (.str 2) <|
  .field "coach_rating" (.num 3) <|
  .field "coach_team" (.num 4) <|
  .field "coach_party_id" (.num 5) <|
  .field "is_private_coach" (.bool 6) <|
  .done

def decodeBroadcaster : Decoder :=
  .field "account_id" (.num 1) <|
  .field "name" (.str 2) <|
  .done

def decodeBroadcasterChannel : Decoder :=
  .field "country_code" (.str 1) <|
  .field "description" (.str 2) <|
  .records "broadcaster_infos" 3 decodeBroadcaster <|
  .field "language_code" (.str 4) <|
  .done

def decodeGcPlayer : Decoder :=
  .field "account_id" (.num 1) <|
  .field "player_slot" (.num 2) <|
  .field "hero_id" (.num 3) <|
  .field "item_0" (.num 4) <|
  .field "item_1" (.num 5) <|
  .field "item_2" (.num 6) <|
  .field "item_3" (.num 7) <|
  .field "item_4" (.num 8) <|
  .field "item_5" (.num 9) <|
  .field "item_6" (.num 59) <|
  .field "item_7" (.num 60) <|
  .field "item_8" (.num 61) <|
  .field "item_9" (.num 76) <|
  .field "item_10" (.num 83) <|
  .field "item_10_lvl" (.num 84) <|
  .field "kills" (.num 14) <|
  .field "deaths" (.num 15) <|
  .field "assists" (.num 16) <|
  .field "leaver_status" (.num 17) <|
  .field "gold" (.num 18) <|
  .field "last_hits" (.num 19) <|
  .field "denies" (.num 20) <|
  .field "gold_per_min" (.num 21) <|
  .field "xp_per_min" (.num 22) <|
  .field "gold_spent" (.num 23) <|
  .field "hero_damage" (.num 24) <|
  .field "tower_damage" (.num 25) <|
  .field "hero_healing" (.num 26) <|
  .field "disable_duration" (.num 85) <|
  .field "level" (.num 27) <|
  .field "player_name" (.str 29) <|
  .field "support_ability_value" (.num 30) <|
  .field "party_id" (.num 38) <|
  .field "scaled_hero_damage" (.num 54) <|
  .field "scaled_tower_damage" (.num 55) <|
  .field "scaled_hero_healing" (.num 56) <|
  .field "scaled_kills" (.float32 39) <|
  .field "scaled_deaths" (.float32 40) <|
  .field "scaled_assists" (.float32 41) <|
  .field "claimed_farm_gold" (.num 42) <|
  .field "support_gold" (.num 43) <|
  .field "claimed_denies" (.num 44) <|
  .field "claimed_misses" (.num 45) <|
  .field "misses" (.num 46) <|
  .records "ability_upgrades" 47 decodeAbilityUpgrade <|
  .records "additional_units" 48 decodeUnit <|
  .records "permanent_buffs" 57 decodeBuff <|
  .field "net_worth" (.num 52) <|
  .field "hero_pick_order" (.num 63) <|
  .field "hero_was_randomed" (.bool 64) <|
  .records "hero_damage_received" 67 decodeHeroDamage <|
  .records "hero_damage_dealt" 79 decodeHeroDamage <|
  .field "seconds_dead" (.num 70) <|
  .field "gold_lost_to_death" (.num 71) <|
  .field "pro_name" (.str 72) <|
  .field "real_name" (.str 73) <|
  .field "lane_selection_flags" (.num 75) <|
  .field "bounty_runes" (.num 77) <|
  .field "outposts_captured" (.num 78) <|
  .field "team_number" (.num 80) <|
  .field "team_slot" (.num 81) <|
  .field "selected_facet" (.num 82) <|
  .done

/-- The keys are those which `extractMatchFacts` and `extractPlayers` use. -/
def gcMatch : Decoder :=
  .field "duration" (.num 3) <|
  .field "start_time" (.num 4) <|
  .records "players" 5 decodeGcPlayer <|
  .field "match_id" (.num 6) <|
  .field "tower_status" (.repeated 8) <|
  .field "tower_status_radiant" (.element 8 0) <|
  .field "tower_status_dire" (.element 8 1) <|
  .field "barracks_status" (.repeated 9) <|
  .field "barracks_status_radiant" (.element 9 0) <|
  .field "barracks_status_dire" (.element 9 1) <|
  .field "cluster" (.num 10) <|
  .field "first_blood_time" (.num 12) <|
  .field "replay_salt" (.num 13) <|
  .field "lobby_type" (.num 16) <|
  .field "human_players" (.num 17) <|
  .field "game_balance" (.float32 19) <|
  .field "radiant_team_id" (.num 20) <|
  .field "dire_team_id" (.num 21) <|
  .field "leagueid" (.num 22) <|
  .field "radiant_team_name" (.str 23) <|
  .field "dire_team_name" (.str 24) <|
  .field "radiant_team_logo" (.num 25) <|
  .field "dire_team_logo" (.num 26) <|
  .field "radiant_team_complete" (.num 27) <|
  .field "dire_team_complete" (.num 28) <|
  .field "game_mode" (.num 31) <|
  .records "picks_bans" 32 decodePickBan <|
  .field "match_seq_num" (.num 33) <|
  .field "replay_state" (.num 34) <|
  .field "radiant_guild_id" (.num 35) <|
  .field "dire_guild_id" (.num 36) <|
  .field "radiant_team_tag" (.str 37) <|
  .field "dire_team_tag" (.str 38) <|
  .field "series_id" (.num 39) <|
  .field "series_type" (.num 40) <|
  .records "broadcaster_channels" 43 decodeBroadcasterChannel <|
  .field "engine" (.num 44) <|
  .field "match_flags" (.num 46) <|
  .field "radiant_score" (.num 48) <|
  .field "dire_score" (.num 49) <|
  .field "match_outcome" (.num 50) <|
  .field "tournament_id" (.num 51) <|
  .field "tournament_round" (.num 52) <|
  .field "pre_game_duration" (.num 53) <|
  .field "radiant_team_logo_url" (.str 54) <|
  .field "dire_team_logo_url" (.str 55) <|
  .records "coaches" 57 decodeCoach <|
  .done

/-- The towers and the barracks are read before the object is built. -/
def decodeGcMatch (bytes : Uint8Array) : Except String GcRecord := do
  let fields ← decodeFields bytes
  let _towers ← repeatedUint32 fields 8
  let _barracks ← repeatedUint32 fields 9
  gcMatch.read fields

/-! ### What a table finds -/

/-- What a table says about a key. -/
inductive Entry where
  | field (reader : Reader)
  | records (id : Nat) (item : Decoder)

def Entry.read (fields : List ProtoField) : Entry → Except String GcValue
  | .field reader => reader.read fields
  | .records id item => .records <$> (chunks fields id).mapM item.run

def Decoder.entry : Decoder → String → Option Entry
  | .done, _ => none
  | .field key reader rest, wanted =>
      if wanted = key then some (.field reader) else rest.entry wanted
  | .records key id item rest, wanted =>
      if wanted = key then some (.records id item) else rest.entry wanted

/-- Every key of the table gives an entry of the record. -/
theorem Decoder.lookup_read {decoder : Decoder} {fields : List ProtoField} {record : GcRecord}
    {key : String} {entry : Entry} (read : decoder.read fields = .ok record)
    (found : decoder.entry key = some entry) :
    ∃ value, entry.read fields = .ok value ∧ record.lookup key = some value := by
  induction decoder generalizing record with
  | done => cases found
  | field key' reader rest ih =>
      simp only [Decoder.read, bind_eq_ok_iff, pure_eq_ok_iff] at read
      obtain ⟨value, first, later, second, rfl⟩ := read
      rw [Decoder.entry] at found
      split_ifs at found with same
      · cases found
        subst same
        exact ⟨value, first, List.lookup_cons_self⟩
      · obtain ⟨value', read, inside⟩ := ih second found
        refine ⟨value', read, ?_⟩
        rw [List.lookup_cons, beq_false_of_ne same]
        exact inside
  | records key' id item rest _ ih =>
      simp only [Decoder.read, bind_eq_ok_iff, pure_eq_ok_iff] at read
      obtain ⟨items, first, later, second, rfl⟩ := read
      rw [Decoder.entry] at found
      split_ifs at found with same
      · cases found
        subst same
        exact ⟨.records items, map_eq_ok_iff.mpr ⟨items, first, rfl⟩, List.lookup_cons_self⟩
      · obtain ⟨value', read, inside⟩ := ih second found
        refine ⟨value', read, ?_⟩
        rw [List.lookup_cons, beq_false_of_ne same]
        exact inside

/-- A decoded array has the decoded items in their places. -/
theorem getElem?_mapM_ok {α β : Type} {f : α → Except String β} {items : List α}
    {results : List β} (mapped : items.mapM f = .ok results) {index : Nat} {item : α}
    (found : items[index]? = some item) : ∃ b, f item = .ok b ∧ results[index]? = some b := by
  induction items generalizing results index with
  | nil => cases found
  | cons head items ih =>
      simp only [List.mapM_cons, bind_eq_ok_iff, pure_eq_ok_iff] at mapped
      obtain ⟨b, first, rest, second, rfl⟩ := mapped
      cases index with
      | zero =>
          cases found
          exact ⟨b, first, rfl⟩
      | succ index => exact ih second found

theorem mapM_ok_of_forall {α β : Type} {f : α → Except String β} {items : List α}
    (each : ∀ item ∈ items, ∃ b, f item = .ok b) : ∃ results, items.mapM f = .ok results := by
  induction items with
  | nil => exact ⟨[], rfl⟩
  | cons head items ih =>
      obtain ⟨b, first⟩ := each head (.head _)
      obtain ⟨rest, second⟩ := ih fun item member => each item (.tail _ member)
      refine ⟨b :: rest, ?_⟩
      simp only [List.mapM_cons, bind_eq_ok_iff, pure_eq_ok_iff]
      exact ⟨b, first, rest, second, rfl⟩

end Gc
end DotaCollector
