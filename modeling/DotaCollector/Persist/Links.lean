import DotaCollector.Library.OrderedMap
import DotaCollector.Library.Schedule
import DotaCollector.Persist.Players

/-!
# The players of a match

A row of `match_players`, and every row of what belongs to it, names an account and links to the
row of `players` which has this account. Each statement merges the two columns by rules of their
own, so a link can come to be that of another account.
-/

namespace DotaCollector
namespace Persist
namespace Links

open Nullable OrderedMap

/-- `account_id`, where zero is nobody, and `player_id`. -/
structure Link where
  accountId : Int := 0
  playerId : Option Int := none
  deriving DecidableEq

/-- The two columns on conflict. Whatever belongs to a player is only filled. -/
def Link.merge (fillOnly : Bool) (stored excluded : Link) : Link where
  accountId :=
    if fillOnly then if stored.accountId ≠ 0 then stored.accountId else excluded.accountId
    else if excluded.accountId ≠ 0 then excluded.accountId else stored.accountId
  playerId := coalesce stored.playerId excluded.playerId

def linkOf (row : PlayerRow) : Link where
  accountId := accountOf row
  playerId :=
    match row .playerId with
    | some (.int playerId) => some playerId
    | _ => none

/-- The tables with rows of a slot which `insertMatchPlayers` writes: `match_player_buffs`,
`match_player_units`, `match_player_ability_upgrades` and `match_player_damage_breakdown`. -/
inductive ChildTable where
  | buffs
  | units
  | abilityUpgrades
  | damageBreakdown
  deriving DecidableEq

variable {Writer Child : Type}

/-- The tables of one match. `Child` tells the rows apart which one table has of a slot. -/
structure State (Writer Child : Type) where
  /-- `players`: the ids of the accounts. -/
  players : List (Int × Int) := []
  rows : List (Nat × Link) := []
  children : List ((Nat × ChildTable × Child) × Link) := []
  /-- What a writer knows from `lookupPlayerIds`. -/
  playerIds : Writer → Int → Option Int := fun _ _ => none

inductive Event (Writer Child : Type) where
  /-- With the id which a new row gets. -/
  | upsertPlayer (accountId id : Int)
  /-- A row of another transaction is visible once it is committed. -/
  | lookupPlayerIds (writer : Writer) (visible : Int → Bool)
  | insertMatchPlayers (writer : Writer) (fillOnly : Bool) (accounts : List (Nat × Int))
  | insertChildren (writer : Writer) (table : ChildTable) (slot : Nat) (accountId : Int)
      (children : List Child)
  /-- The statements of `fillMatchPlayerLinks`: one `UPDATE` of the players, and one of each table
  with rows of them. -/
  | fillPlayerIds (visible : Int → Bool)
  | fillChildren (table : ChildTable)

namespace State

variable (state : State Writer Child)

def playerId (accountId : Int) : Option Int := get? state.players accountId

/-- The columns of a new row. -/
def resolve (writer : Writer) (accountId : Int) : Link where
  accountId
  playerId := if 0 < accountId then state.playerIds writer accountId else none

/-- What is found of a player by the writer or the statement which looks. -/
def find (visible : Int → Bool) (accountId : Int) : Option Int :=
  if visible accountId then state.playerId accountId else none

def fillPlayerId (visible : Int → Bool) (link : Link) : Link :=
  if 0 < link.accountId then
    { link with playerId := coalesce link.playerId (state.find visible link.accountId) }
  else link

/-- A row of the table takes what it lacks from the row of its slot. -/
def fillChild (table : ChildTable) (key : Nat × ChildTable × Child) (link : Link) : Link :=
  if key.2.1 = table then (get? state.rows key.1).elim link (link.merge true) else link

def fillPlayerIds (visible : Int → Bool) : State Writer Child :=
  { state with rows := state.rows.map fun row => (row.1, state.fillPlayerId visible row.2) }

def fillChildren (table : ChildTable) : State Writer Child :=
  { state with
    children := state.children.map fun row => (row.1, state.fillChild table row.1 row.2) }

end State

/-- A new row, or what it is merged to. -/
def mergeRow {Key : Type} (fillOnly : Bool) (stored : Option Link) (row : Key × Link) : Link :=
  stored.elim row.2 fun link => link.merge fillOnly row.2

/-- `INSERT … ON CONFLICT … DO UPDATE`, for one of the rows. -/
def upsertLink {Key : Type} [DecidableEq Key] (fillOnly : Bool) :
    List (Key × Link) → Key × Link → List (Key × Link) :=
  note Prod.fst (mergeRow fillOnly)

/-- A statement does not affect a row twice. -/
def upsertLinks {Key : Type} [DecidableEq Key] (fillOnly : Bool) (table rows : List (Key × Link)) :
    Option (List (Key × Link)) :=
  if (rows.map Prod.fst).Nodup then some (rows.foldl (upsertLink fillOnly) table) else none

section Step

variable [DecidableEq Writer] [DecidableEq Child]

def next (state : State Writer Child) : Event Writer Child → Option (State Writer Child)
  | .upsertPlayer accountId id =>
      if accountId ≤ 0 ∨ (state.playerId accountId).isSome then some state
      else if id ∈ state.players.map Prod.snd then none
      else some { state with players := put state.players accountId id }
  | .lookupPlayerIds writer visible =>
      some { state with
        playerIds := Function.update state.playerIds writer (state.find visible) }
  | .insertMatchPlayers writer fillOnly accounts =>
      (upsertLinks fillOnly state.rows
        (accounts.map fun row => (row.1, state.resolve writer row.2))).map
        fun rows => { state with rows }
  | .insertChildren writer table slot accountId children =>
      (upsertLinks true state.children
        (children.map fun child => ((slot, table, child), state.resolve writer accountId))).map
        fun children => { state with children }
  | .fillPlayerIds visible => some (state.fillPlayerIds visible)
  | .fillChildren table => some (state.fillChildren table)

end Step

/-! ## The columns of a row -/

/-- A row whose two columns hold what their types allow. -/
structure Typed (row : PlayerRow) : Prop where
  accountId : ∃ accountId, row .accountId = some (.int accountId)
  playerId : ∃ playerId : Option Int, row .playerId = playerId.map .int

theorem typed_row (player : PlayerFacts) (slot : Nat) (playerId teamId : Option Int) :
    Typed (player.row slot playerId teamId) :=
  ⟨⟨player.accountId, rfl⟩, ⟨playerId, rfl⟩⟩

theorem linkOf_row (player : PlayerFacts) (slot : Nat) (playerId teamId : Option Int) :
    linkOf (player.row slot playerId teamId) = { accountId := player.accountId, playerId } := by
  cases playerId <;> rfl

/-- The statement on whole rows does this to the two columns. -/
theorem linkOf_mergePlayer (fillOnly : Bool) {stored excluded : PlayerRow} (typed : Typed stored)
    (other : Typed excluded) :
    linkOf (mergePlayer fillOnly stored excluded) =
      (linkOf stored).merge fillOnly (linkOf excluded) := by
  obtain ⟨⟨account, accountIs⟩, ⟨player, playerIs⟩⟩ := typed
  obtain ⟨⟨newAccount, newAccountIs⟩, ⟨newPlayer, newPlayerIs⟩⟩ := other
  have zero : PlayerCol.accountId ∈ zeroIds := by decide
  have accounts : mergePlayer fillOnly stored excluded .accountId =
      takePlayerCol fillOnly true (some (.int account)) (some (.int newAccount)) := by
    simp [mergePlayer, zero, accountIs, newAccountIs]
  have players : mergePlayer fillOnly stored excluded .playerId =
      coalesce (player.map .int) (newPlayer.map .int) := by
    simp [mergePlayer, playerIs, newPlayerIs]
  have taken : takePlayerCol fillOnly true (some (.int account)) (some (.int newAccount)) =
      some (.int (Link.merge fillOnly { accountId := account }
        { accountId := newAccount }).accountId) := by
    unfold takePlayerCol Link.merge nullif
    cases fillOnly <;> by_cases none : account = 0 <;> by_cases new : newAccount = 0 <;>
      simp [none, new]
  unfold linkOf accountOf
  rw [accounts, players, accountIs, newAccountIs, playerIs, newPlayerIs, taken]
  cases player <;> cases newPlayer <;> rfl

/-! ## Links to the right player -/

/-- The link of a row is to the player of its account. -/
def Link.Sound (players : List (Int × Int)) (link : Link) : Prop :=
  ∀ id, link.playerId = some id → get? players link.accountId = some id

/-- Accounts are positive, and each has an id of its own. -/
structure Directory (players : List (Int × Int)) : Prop where
  positive : ∀ accountId id, get? players accountId = some id → 0 < accountId
  inj : ∀ first second id, get? players first = some id → get? players second = some id →
    first = second

/-- A merge does not bring together an account and the link of another one: when it fills, it takes
a link only for the account which is there or for none; when it overwrites, it changes the account
only where there is no link. -/
def Link.Fits (fillOnly : Bool) (stored excluded : Link) : Prop :=
  if fillOnly then
    stored.accountId = 0 ∨ stored.playerId ≠ none ∨ excluded.playerId = none ∨
      excluded.accountId = stored.accountId
  else stored.playerId = none ∨ excluded.accountId = 0 ∨ excluded.accountId = stored.accountId

variable {players : List (Int × Int)} {stored excluded : Link} {fillOnly : Bool}

/-- Nobody has no link. -/
theorem Link.Sound.playerId_eq_none (directory : Directory players) (sound : stored.Sound players)
    (nobody : stored.accountId = 0) : stored.playerId = none := by
  by_contra linked
  obtain ⟨id, found⟩ := Option.ne_none_iff_exists'.mp linked
  have positive := directory.positive _ _ (sound id found)
  omega

theorem Link.merge_sound_iff (directory : Directory players) (sound : stored.Sound players)
    (other : excluded.Sound players) :
    (stored.merge fillOnly excluded).Sound players ↔ stored.Fits fillOnly excluded := by
  have nobody := sound.playerId_eq_none directory
  have newNobody := other.playerId_eq_none directory
  have apart (id : Int) (first : get? players stored.accountId = some id)
      (second : get? players excluded.accountId = some id) :
      stored.accountId = excluded.accountId := directory.inj _ _ id first second
  unfold Link.Sound Link.Fits Link.merge coalesce at *
  cases linked : stored.playerId <;> cases new : excluded.playerId <;> grind

section Tables

variable {Key : Type} [DecidableEq Key]

def SoundTable (players : List (Int × Int)) (table : List (Key × Link)) : Prop :=
  ∀ key link, get? table key = some link → link.Sound players

variable {table rows after : List (Key × Link)}

theorem upsertLink_cells (fillOnly : Bool) : Keyed.Cells (@upsertLink Key _ fillOnly) get?
    Prod.fst fun stored row => some (mergeRow fillOnly stored row) :=
  cells_note Prod.fst (mergeRow fillOnly)

/-- What an `INSERT` of many rows makes of the row of a key. -/
theorem get?_upsertLinks (step : upsertLinks fillOnly table rows = some after) :
    (∀ row ∈ rows, get? after row.1 = some (mergeRow fillOnly (get? table row.1) row)) ∧
      ∀ key, key ∉ rows.map Prod.fst → get? after key = get? table key := by
  obtain ⟨nodup, ⟨⟩⟩ := Option.ite_none_right_eq_some.mp step
  exact ⟨fun row member => (upsertLink_cells fillOnly).look_foldl_of_nodup table nodup member,
    fun key absent => (upsertLink_cells fillOnly).look_foldl_of_not_mem table absent⟩

theorem upsertLinks_sound_iff (directory : Directory players) (sound : SoundTable players table)
    (resolved : ∀ row ∈ rows, row.2.Sound players)
    (step : upsertLinks fillOnly table rows = some after) :
    SoundTable players after ↔ ∀ row ∈ rows, ∀ stored, get? table row.1 = some stored →
      stored.Fits fillOnly row.2 := by
  obtain ⟨mine, others⟩ := get?_upsertLinks step
  constructor
  · intro afterwards row member stored found
    have merged := mine row member
    rw [found] at merged
    exact (Link.merge_sound_iff directory (sound _ _ found) (resolved row member)).mp
      (afterwards _ _ merged)
  · intro fits key link found
    by_cases written : key ∈ rows.map Prod.fst
    · obtain ⟨row, member, rfl⟩ := List.mem_map.mp written
      rw [mine row member] at found
      cases before : get? table row.1 with
      | none =>
          rw [before] at found
          cases found
          exact resolved row member
      | some stored =>
          rw [before] at found
          cases found
          exact (Link.merge_sound_iff directory (sound _ _ before) (resolved row member)).mpr
            (fits row member stored before)
    · rw [others key written] at found
      exact sound key link found

end Tables

/-! ## Runs -/

structure Sound (state : State Writer Child) [DecidableEq Child] : Prop where
  rows : SoundTable state.players state.rows
  children : SoundTable state.players state.children

structure Linked (state : State Writer Child) [DecidableEq Child] : Prop where
  directory : Directory state.players
  known : ∀ writer accountId id, state.playerIds writer accountId = some id →
    state.playerId accountId = some id
  sound : Sound state

section Runs

variable [DecidableEq Writer] [DecidableEq Child] {state after : State Writer Child}
  {event : Event Writer Child}

/-- No statement brings together an account and the link of another one. -/
def Agrees (state : State Writer Child) : Event Writer Child → Prop
  | .insertMatchPlayers writer fillOnly accounts =>
      ∀ slot accountId, (slot, accountId) ∈ accounts → ∀ stored,
        get? state.rows slot = some stored → stored.Fits fillOnly (state.resolve writer accountId)
  | .insertChildren writer table slot accountId children =>
      ∀ child ∈ children, ∀ stored, get? state.children (slot, table, child) = some stored →
        stored.Fits true (state.resolve writer accountId)
  | .fillChildren table =>
      ∀ slot child stored row, get? state.children (slot, table, child) = some stored →
        get? state.rows slot = some row → stored.Fits true row
  | _ => True

omit [DecidableEq Writer] in
theorem Linked.resolve_sound (linked : Linked state) (writer : Writer) (accountId : Int) :
    (state.resolve writer accountId).Sound state.players := by
  intro id found
  obtain ⟨-, known⟩ := Option.ite_none_right_eq_some.mp found
  exact linked.known writer accountId id known

omit [DecidableEq Writer] [DecidableEq Child] in
theorem find_eq {visible : Int → Bool} {accountId id : Int}
    (found : state.find visible accountId = some id) : state.playerId accountId = some id :=
  (Option.ite_none_right_eq_some.mp found).2

omit [DecidableEq Writer] [DecidableEq Child] in
theorem fillPlayerId_sound (visible : Int → Bool) {link : Link}
    (sound : link.Sound state.players) : (state.fillPlayerId visible link).Sound state.players := by
  unfold State.fillPlayerId
  split_ifs
  · intro id filled
    cases own : link.playerId with
    | some mine =>
        simp only [own, coalesce_some] at filled
        exact sound id (own.trans filled)
    | none =>
        simp only [own, coalesce_none] at filled
        exact find_eq filled
  · exact sound

/-- A new player leaves the others, and is none that a link is to. -/
theorem get?_put_new {accountId id : Int} (absent : get? players accountId = none)
    {other known : Int} (found : get? players other = some known) :
    get? (put players accountId id) other = some known := by
  have ne : other ≠ accountId := by
    rintro rfl
    rw [absent] at found
    cases found
  rw [get?_put_of_ne ne, found]

theorem Directory.put (directory : Directory players) {accountId id : Int}
    (positive : 0 < accountId) (fresh : id ∉ players.map Prod.snd) :
    Directory (put players accountId id) := by
  have absent (other : Int) : get? players other ≠ some id := by
    intro found
    obtain ⟨entry, there, rfl⟩ := Option.map_eq_some_iff.mp found
    exact fresh (List.mem_map.mpr ⟨entry, List.mem_of_find?_eq_some there, rfl⟩)
  have look (other : Int) : get? (OrderedMap.put players accountId id) other =
      if other = accountId then some id else get? players other := by
    split_ifs with same
    · rw [same, get?_put_self]
    · exact get?_put_of_ne same
  constructor
  · intro other known found
    rw [look] at found
    split_ifs at found with same
    · exact same ▸ positive
    · exact directory.positive other known found
  · intro first second known here there
    rw [look] at here there
    split_ifs at here there with same same'
    · rw [same, same']
    · exact absurd (there.trans here.symm) (absent second)
    · exact absurd (here.trans there.symm) (absent first)
    · exact directory.inj first second known here there

omit [DecidableEq Writer] in
/-- One more player. -/
theorem Linked.upsertPlayer (linked : Linked state) {accountId id : Int} (positive : 0 < accountId)
    (absent : state.playerId accountId = none) (fresh : id ∉ state.players.map Prod.snd) :
    Linked { state with players := put state.players accountId id } where
  directory := linked.directory.put positive fresh
  known writer other known found := get?_put_new absent (linked.known writer other known found)
  sound :=
    { rows := fun key link found known mine =>
        get?_put_new absent (linked.sound.rows key link found known mine)
      children := fun key link found known mine =>
        get?_put_new absent (linked.sound.children key link found known mine) }

omit [DecidableEq Writer] in
theorem insertMatchPlayers_sound_iff (linked : Linked state) {writer : Writer}
    {accounts : List (Nat × Int)} {rows : List (Nat × Link)} (step : upsertLinks fillOnly state.rows
      (accounts.map fun row => (row.1, state.resolve writer row.2)) = some rows) :
    (∀ slot accountId, (slot, accountId) ∈ accounts → ∀ stored,
      get? state.rows slot = some stored → stored.Fits fillOnly (state.resolve writer accountId)) ↔
        Sound { state with rows } := by
  have exact := upsertLinks_sound_iff linked.directory linked.sound.rows (by
    intro row member
    obtain ⟨entry, -, rfl⟩ := List.mem_map.mp member
    exact linked.resolve_sound writer entry.2) step
  rw [List.forall_mem_map] at exact
  constructor
  · intro fits
    exact ⟨exact.mpr fun row member => fits row.1 row.2 member, linked.sound.children⟩
  · intro sound slot accountId member
    exact exact.mp sound.rows (slot, accountId) member

omit [DecidableEq Writer] in
theorem insertChildren_sound_iff (linked : Linked state) {writer : Writer} {table : ChildTable}
    {slot : Nat} {accountId : Int} {keys : List Child}
    {children : List ((Nat × ChildTable × Child) × Link)} (step : upsertLinks true state.children
      (keys.map fun child => ((slot, table, child), state.resolve writer accountId)) =
        some children) :
    (∀ child ∈ keys, ∀ stored, get? state.children (slot, table, child) = some stored →
      stored.Fits true (state.resolve writer accountId)) ↔ Sound { state with children } := by
  have exact := upsertLinks_sound_iff linked.directory linked.sound.children (by
    intro row member
    obtain ⟨child, -, rfl⟩ := List.mem_map.mp member
    exact linked.resolve_sound writer accountId) step
  rw [List.forall_mem_map] at exact
  exact ⟨fun fits => ⟨linked.sound.rows, exact.mpr fits⟩, fun sound => exact.mp sound.children⟩

omit [DecidableEq Writer] in
theorem fillPlayerIds_sound (linked : Linked state) (visible : Int → Bool) :
    Sound (state.fillPlayerIds visible) := by
  refine ⟨fun slot link found => ?_, linked.sound.children⟩
  unfold State.fillPlayerIds at found
  rw [get?_map] at found
  obtain ⟨before, there, rfl⟩ := Option.map_eq_some_iff.mp found
  exact fillPlayerId_sound visible (linked.sound.rows slot before there)

omit [DecidableEq Writer] in
theorem fillChildren_sound_iff (linked : Linked state) (table : ChildTable) :
    (∀ slot child stored row, get? state.children (slot, table, child) = some stored →
      get? state.rows slot = some row → stored.Fits true row) ↔
        Sound (state.fillChildren table) := by
  have look (key : Nat × ChildTable × Child) : get? (state.fillChildren table).children key =
      (get? state.children key).map (state.fillChild table key) :=
    get?_map_keyed (state.fillChild table)
  constructor
  · intro fits
    refine ⟨linked.sound.rows, fun key link found => ?_⟩
    rw [look] at found
    obtain ⟨stored, there, rfl⟩ := Option.map_eq_some_iff.mp found
    have sound := linked.sound.children key stored there
    unfold State.fillChild
    split_ifs with same
    · cases own : get? state.rows key.1 with
      | none => exact sound
      | some row =>
          subst same
          exact (Link.merge_sound_iff linked.directory sound (linked.sound.rows key.1 row own)).mpr
            (fits key.1 key.2.2 stored row there own)
    · exact sound
  · intro sound slot child stored row there own
    have filled := sound.children (slot, table, child)
      (state.fillChild table (slot, table, child) stored) (by rw [look, there]; rfl)
    rw [State.fillChild, if_pos rfl, own] at filled
    exact (Link.merge_sound_iff linked.directory (linked.sound.children _ stored there)
      (linked.sound.rows slot row own)).mp filled

/-- A step keeps the links exactly if it brings none together with another account. -/
theorem Linked.next (linked : Linked state) (step : next state event = some after) :
    (Agrees state event ↔ Sound after) ∧ (Sound after → Linked after) := by
  cases event with
  | upsertPlayer accountId id =>
      simp only [Links.next] at step
      split_ifs at step with known fresh
      · cases step
        exact ⟨iff_of_true trivial linked.sound, fun _ => linked⟩
      · cases step
        obtain ⟨positive, absent⟩ := not_or.mp known
        have more := linked.upsertPlayer (Int.not_le.mp positive)
          (Option.not_isSome_iff_eq_none.mp absent) fresh
        exact ⟨iff_of_true trivial more.sound, fun _ => more⟩
  | lookupPlayerIds writer visible =>
      cases step
      have sound : Sound { state with
          playerIds := Function.update state.playerIds writer (state.find visible) } :=
        ⟨linked.sound.rows, linked.sound.children⟩
      refine ⟨iff_of_true trivial sound, fun _ => ⟨linked.directory, ?_, sound⟩⟩
      intro other accountId id found
      by_cases same : other = writer
      · rw [same] at found
        simp only [Function.update_self] at found
        exact find_eq found
      · exact linked.known other accountId id (by simpa [same] using found)
  | insertMatchPlayers writer fillOnly accounts =>
      obtain ⟨rows, inserted, rfl⟩ := Option.map_eq_some_iff.mp step
      exact ⟨insertMatchPlayers_sound_iff linked inserted,
        fun sound => ⟨linked.directory, linked.known, sound⟩⟩
  | insertChildren writer table slot accountId keys =>
      obtain ⟨children, inserted, rfl⟩ := Option.map_eq_some_iff.mp step
      exact ⟨insertChildren_sound_iff linked inserted,
        fun sound => ⟨linked.directory, linked.known, sound⟩⟩
  | fillPlayerIds visible =>
      cases step
      have sound := fillPlayerIds_sound linked visible
      exact ⟨iff_of_true trivial sound, fun _ => ⟨linked.directory, linked.known, sound⟩⟩
  | fillChildren table =>
      cases step
      exact ⟨fillChildren_sound_iff linked table,
        fun sound => ⟨linked.directory, linked.known, sound⟩⟩

/-- However the statements of the writers of a match come: in every state of the run every link is
to the player of the account of its row, if and only if no statement brings together an account and
the link of another one. -/
theorem links_sound_iff {start final : State Writer Child} {events : List (Event Writer Child)}
    (linked : Linked start) (execution : Schedule.run next start events = some final) :
    Schedule.Throughout next Agrees start events ↔
      ∀ visited state, visited <+: events → Schedule.run next start visited = some state →
        Sound state :=
  Schedule.throughout_iff_shown Linked.sound (fun linked step => (linked.next step).1)
    (fun linked step => (linked.next step).2) linked execution

omit [DecidableEq Writer] [DecidableEq Child] in
/-- After the fill, every row of a visible player has a link. -/
theorem fillPlayerIds_complete {visible : Int → Bool} {slot : Nat} {link : Link}
    (found : get? (state.fillPlayerIds visible).rows slot = some link)
    (positive : 0 < link.accountId) (seen : visible link.accountId = true)
    (known : (state.playerId link.accountId).isSome) : link.playerId.isSome := by
  unfold State.fillPlayerIds at found
  rw [get?_map] at found
  obtain ⟨before, -, rfl⟩ := Option.map_eq_some_iff.mp found
  unfold State.fillPlayerId at positive seen known ⊢
  split_ifs at positive seen known ⊢ with account
  · cases own : before.playerId with
    | some id => rfl
    | none => simpa [own, State.find, seen] using known
  · exact absurd positive account

end Runs

/-- Two writers give one slot to two accounts, and what belongs to it to the second. -/
def replaced : List (Event Nat Nat) :=
  [.upsertPlayer 7 100, .lookupPlayerIds 0 fun _ => true, .insertMatchPlayers 0 false [(128, 7)],
    .upsertPlayer 8 101, .lookupPlayerIds 1 fun _ => true, .insertMatchPlayers 1 false [(128, 8)],
    .insertChildren 1 .buffs 128 8 [40], .fillPlayerIds fun _ => true, .fillChildren .buffs,
    .fillChildren .abilityUpgrades, .fillChildren .damageBreakdown, .fillChildren .units]

theorem linked_empty : Linked ({} : State Nat Nat) where
  directory := ⟨nofun, nofun⟩
  known _ _ _ found := by cases found
  sound := ⟨nofun, nofun⟩

theorem links_sound_iff_replaced :
    Schedule.Throughout next Agrees {} replaced ↔ ∀ visited state, visited <+: replaced →
      Schedule.run next {} visited = some state → Sound state :=
  links_sound_iff linked_empty rfl

/-- The row of the slot keeps the link to the first of them. -/
example : (Schedule.run next {} replaced).map (fun state => (state.rows, state.children)) =
    some ([(128, { accountId := 8, playerId := some 100 })],
      [((128, .buffs, 40), { accountId := 8, playerId := some 101 })]) := by
  decide

end Links
end Persist
end DotaCollector
