import Mathlib.Data.List.Perm.Subperm
import Mathlib.Data.List.Range
import Mathlib.Data.Option.Basic
import DotaCollector.Library.Keyed
import DotaCollector.Library.Table

/-!
# The ten players of a demo

The player resource of a demo has rows for everybody who is connected, in no fixed order and
complete only after some ticks. A session binds ten of them to the slots 0 to 9 at the first tick
at which both teams have five, and from then on only refreshes what it knows of them.
-/

namespace DotaCollector
namespace Parse
namespace Seats

/-- One index of `m_vecPlayerData` and `m_vecPlayerTeamData`. -/
structure Entry where
  team : Int := 0
  teamSlot : Int := 0
  steamId : UInt64 := 0
  name : Option String := none
  nameInternal : Option String := none

abbrev PlayerResource := Nat → Entry

structure Player where
  index : Nat
  team : Int
  teamSlot : Int
  slot : Nat
  valveSlot : Nat
  steamId : UInt64
  accountId : UInt32
  name : String
  deriving DecidableEq, Repr

/-- What a session knows of its players; there are ten of them as soon as they are ready. -/
structure Roster where
  players : Table Nat Player := Table.empty
  playersReady : Bool := false
  idToSlot : Table Nat Nat := Table.empty
  nameToSlot : Table String Nat := Table.empty
  accounts : Nat → UInt32 := fun _ => 0

def steamID64Base : UInt64 := 76561197960265728

def accountFromSteam (steam : UInt64) : UInt32 :=
  if steam = 0 then 0
  else if steamID64Base ≤ steam then (steam - steamID64Base).toUInt32
  else if 0xFFFFFFFF < steam then 0
  else steam.toUInt32

/-- The slot and Valve's number of it. -/
def replaySlot (team teamSlot : Int) : Option (Nat × Nat) :=
  if teamSlot < 0 ∨ 4 < teamSlot then none
  else if team = 2 then some (teamSlot.toNat, teamSlot.toNat)
  else if team = 3 then some (5 + teamSlot.toNat, 128 + teamSlot.toNat)
  else none

/-! ## Binding -/

structure Candidate where
  index : Nat
  team : Int
  teamSlot : Int
  steam : UInt64
  name : String

def candidate (resource : PlayerResource) (index : Nat) : Option Candidate :=
  let entry := resource index
  if entry.team ≠ 2 ∧ entry.team ≠ 3 then none
  else some
    { index
      team := entry.team
      teamSlot := entry.teamSlot
      steam := entry.steamId
      name := (entry.name <|> entry.nameInternal).getD "" }

/-- The loop which looks for a slot that is out of range or taken twice. -/
def uniqueFrom (seen : List Nat) : List Candidate → Bool
  | [] => true
  | found :: rest =>
      match replaySlot found.team found.teamSlot with
      | none => false
      | some (slot, _) => if slot ∈ seen then false else uniqueFrom (slot :: seen) rest

structure Seat where
  candidate : Candidate
  slot : Nat
  valve : Nat

def push (unique : Bool) (found : Candidate) (fallback fallbackValve : Nat) : Seat :=
  match if unique then replaySlot found.team found.teamSlot else none with
  | some (slot, valve) => ⟨found, slot, valve⟩
  | none => ⟨found, fallback, fallbackValve⟩

def seats (rad dire : List Candidate) : List Seat :=
  let unique := uniqueFrom [] (rad ++ dire)
  rad.zipIdx.map (fun (found, i) => push unique found i i) ++
    dire.zipIdx.map (fun (found, i) => push unique found (5 + i) (128 + i))

def Seat.player (seat : Seat) : Player where
  index := seat.candidate.index
  team := seat.candidate.team
  teamSlot := seat.candidate.teamSlot
  slot := seat.slot
  valveSlot := seat.valve
  steamId := seat.candidate.steam
  accountId := accountFromSteam seat.candidate.steam
  name := seat.candidate.name

def bindSeat (roster : Roster) (seat : Seat) : Roster :=
  let pl := seat.player
  { roster with
    players := Function.update roster.players seat.slot (some pl)
    idToSlot := Function.update roster.idToSlot pl.index (some seat.slot)
    nameToSlot :=
      if pl.name ≠ "" then Function.update roster.nameToSlot pl.name (some seat.slot)
      else roster.nameToSlot
    accounts :=
      if pl.accountId ≠ 0 then Function.update roster.accounts seat.slot pl.accountId
      else roster.accounts }

def tryBindPlayers (resource : PlayerResource) (roster : Roster) : Roster :=
  if (List.range 24).any fun index => (resource index).team = 14 then roster
  else
    let found := (List.range 24).filterMap (candidate resource)
    let rad := found.filter (·.team = 2)
    let dire := found.filter (·.team ≠ 2)
    if rad.length < 5 ∨ dire.length < 5 then roster
    else
      { (seats (rad.take 5) (dire.take 5)).foldl bindSeat roster with playersReady := true }

/-! ## Refreshing -/

def Player.refreshed (resource : PlayerResource) (pl : Player) : Player :=
  let steam := (resource pl.index).steamId
  let pl :=
    if steam ≠ 0 then { pl with steamId := steam, accountId := accountFromSteam steam } else pl
  if pl.name = "" then { pl with name := (resource pl.index).name.getD "" } else pl

def refreshPlayer (resource : PlayerResource) (roster : Roster) (slot : Nat) : Roster :=
  match roster.players slot with
  | none => roster
  | some pl =>
      let after := pl.refreshed resource
      { roster with
        players := Function.update roster.players slot (some after)
        accounts :=
          if (resource pl.index).steamId ≠ 0 then
            Function.update roster.accounts pl.slot after.accountId
          else roster.accounts
        nameToSlot :=
          if pl.name = "" ∧ after.name ≠ "" then
            Function.update roster.nameToSlot after.name (some pl.slot)
          else roster.nameToSlot }

def refreshPlayerIds (resource : PlayerResource) (roster : Roster) : Roster :=
  if roster.playersReady then (List.range 10).foldl (refreshPlayer resource) roster else roster

/-- One tick, with the player resource if the demo has sent it. -/
def discoverPlayers (roster : Roster) : Option PlayerResource → Roster
  | none => roster
  | some resource =>
      refreshPlayerIds resource
        (if roster.playersReady then roster else tryBindPlayers resource roster)

def slotForPlayerID (roster : Roster) (id : Int) : Int :=
  if id < 0 then -1
  else match roster.idToSlot id.toNat with
    | some slot => slot
    | none =>
        if id ≤ 9 ∧ roster.playersReady = true then
          match roster.players id.toNat with
          | some pl => pl.slot
          | none => -1
        else -1

/-! ## The seats of a complete resource -/

/-- Nobody is in the team of those who have not chosen one, and both teams have five. -/
def Complete (resource : PlayerResource) : Prop :=
  (∀ index < 24, (resource index).team ≠ 14) ∧
    5 ≤ (List.range 24).countP (fun index => (resource index).team = 2) ∧
    5 ≤ (List.range 24).countP (fun index => (resource index).team = 3)

/-- The team of a slot, and Valve's number of it. -/
def slotTeam (slot : Nat) : Int := if slot < 5 then 2 else 3

def slotValve (slot : Nat) : Nat := if slot < 5 then slot else 128 + (slot - 5)

variable {resource : PlayerResource} {roster : Roster}

theorem replaySlot_eq_some {team teamSlot : Int} {slot valve : Nat}
    (found : replaySlot team teamSlot = some (slot, valve)) :
    slot < 10 ∧ slotTeam slot = team ∧ slotValve slot = valve := by
  unfold replaySlot at found
  unfold slotTeam slotValve
  split_ifs at found with outside radiant dire
  · cases found
    have small : teamSlot.toNat < 5 := by omega
    rw [if_pos small, if_pos small]
    exact ⟨by omega, radiant.symm, rfl⟩
  · cases found
    have small : ¬ 5 + teamSlot.toNat < 5 := by omega
    rw [if_neg small, if_neg small]
    exact ⟨by omega, dire.symm, by omega⟩

theorem uniqueFrom_eq_true {seen : List Nat} {list : List Candidate}
    (unique : uniqueFrom seen list = true) : ∃ slots : List (Nat × Nat),
      list.map (fun found => replaySlot found.team found.teamSlot) = slots.map some ∧
        (slots.map Prod.fst).Nodup ∧ ∀ slot ∈ seen, slot ∉ slots.map Prod.fst := by
  induction list generalizing seen with
  | nil => exact ⟨[], rfl, by simp, by simp⟩
  | cons found rest ih =>
      unfold uniqueFrom at unique
      split at unique
      · cases unique
      · rename_i slot valve known
        split_ifs at unique with taken
        obtain ⟨slots, same, nodup, apart⟩ := ih unique
        refine ⟨(slot, valve) :: slots, ?_, ?_, ?_⟩
        · rw [List.map_cons, List.map_cons, known, same]
        · rw [List.map_cons, List.nodup_cons]
          exact ⟨apart slot List.mem_cons_self, nodup⟩
        · intro other inside there
          rw [List.map_cons, List.mem_cons] at there
          rcases there with rfl | later
          · exact taken inside
          · exact apart other (List.mem_cons_of_mem _ inside) later

/-- What is right of a seat by itself. -/
def Seat.Right (seat : Seat) : Prop :=
  seat.slot < 10 ∧ slotTeam seat.slot = seat.candidate.team ∧ slotValve seat.slot = seat.valve

theorem push_of_eq_some {found : Candidate} {place : Nat × Nat} (fallback fallbackValve : Nat)
    (known : replaySlot found.team found.teamSlot = some place) :
    push true found fallback fallbackValve = ⟨found, place.1, place.2⟩ := by
  simp only [push, if_true, known]

theorem candidate_push (unique : Bool) (found : Candidate) (fallback fallbackValve : Nat) :
    (push unique found fallback fallbackValve).candidate = found := by
  unfold push
  split <;> rfl

/-- The seats of one team. -/
def row (unique : Bool) (first firstValve : Nat) (team : List Candidate) : List Seat :=
  team.zipIdx.map fun (found, i) => push unique found (first + i) (firstValve + i)

theorem seats_eq (rad dire : List Candidate) :
    seats rad dire = row (uniqueFrom [] (rad ++ dire)) 0 0 rad ++
      row (uniqueFrom [] (rad ++ dire)) 5 128 dire := by
  simp only [seats, row, Nat.zero_add]

theorem candidates_row (unique : Bool) (first firstValve : Nat) (team : List Candidate) :
    (row unique first firstValve team).map Seat.candidate = team := by
  rw [row, List.map_map]
  calc team.zipIdx.map (Seat.candidate ∘ fun (found, i) =>
        push unique found (first + i) (firstValve + i))
      = team.zipIdx.map Prod.fst :=
        List.map_congr_left fun _ _ => candidate_push ..
    _ = team := List.zipIdx_map_fst ..

theorem candidates_seats (rad dire : List Candidate) :
    (seats rad dire).map Seat.candidate = rad ++ dire := by
  rw [seats_eq, List.map_append, candidates_row, candidates_row]

/-- Every player names a slot of its own. -/
theorem places_row {team : List Candidate} {slots : List (Nat × Nat)} (first firstValve : Nat)
    (known : team.map (fun found => replaySlot found.team found.teamSlot) = slots.map some) :
    (row true first firstValve team).map (fun seat => (seat.slot, seat.valve)) = slots := by
  have inside : ∀ pair ∈ team.zipIdx, some ((push true pair.1 (first + pair.2)
      (firstValve + pair.2)).slot, (push true pair.1 (first + pair.2)
        (firstValve + pair.2)).valve) = replaySlot pair.1.team pair.1.teamSlot := by
    intro pair listed
    have member : pair.1 ∈ team := List.fst_mem_of_mem_zipIdx listed
    have there : replaySlot pair.1.team pair.1.teamSlot ∈ slots.map some :=
      known ▸ List.mem_map_of_mem member
    obtain ⟨place, -, same⟩ := List.mem_map.mp there
    rw [push_of_eq_some _ _ same.symm, ← same]
  apply List.map_injective_iff.mpr (Option.some_injective (Nat × Nat))
  rw [← known, row, List.map_map, List.map_map]
  calc team.zipIdx.map _
      = team.zipIdx.map fun pair => replaySlot pair.1.team pair.1.teamSlot :=
        List.map_congr_left inside
    _ = (team.zipIdx.map Prod.fst).map fun found => replaySlot found.team found.teamSlot := by
        rw [List.map_map]
        rfl
    _ = team.map fun found => replaySlot found.team found.teamSlot := by
        rw [List.zipIdx_map_fst]

/-- The order of the rows numbers the seats. -/
theorem slots_row (first firstValve : Nat) (team : List Candidate) :
    (row false first firstValve team).map Seat.slot = List.range' first team.length := by
  rw [row, List.map_map]
  calc team.zipIdx.map _
      = (team.zipIdx.map Prod.snd).map (first + ·) := by
        rw [List.map_map]
        rfl
    _ = List.range' first team.length := by
        rw [List.zipIdx_map_snd, ← List.range_eq_range', List.range'_eq_map_range]

/-- Whether the players name their slots or the order does, a slot is one of its team. -/
theorem right_row {unique : Bool} {first firstValve : Nat} {team : List Candidate} {number : Int}
    (named : unique = true → ∀ found ∈ team, ∃ place,
      replaySlot found.team found.teamSlot = some place)
    (ordered : ∀ i < team.length, first + i < 10 ∧ slotTeam (first + i) = number ∧
      slotValve (first + i) = firstValve + i)
    (same : ∀ found ∈ team, found.team = number) :
    ∀ seat ∈ row unique first firstValve team, seat.Right := by
  intro seat member
  obtain ⟨⟨found, i⟩, listed, rfl⟩ := List.mem_map.mp member
  have there : found ∈ team := List.fst_mem_of_mem_zipIdx listed
  cases unique with
  | true =>
      obtain ⟨place, known⟩ := named rfl found there
      change (push true found (first + i) (firstValve + i)).Right
      rw [push_of_eq_some _ _ known]
      exact replaySlot_eq_some known
  | false =>
      have inside : i < team.length := List.snd_lt_of_mem_zipIdx listed
      obtain ⟨small, its, valve⟩ := ordered i inside
      exact ⟨small, its.trans (same found there).symm, valve⟩

variable {rad dire : List Candidate}

theorem named_of_unique (unique : uniqueFrom [] (rad ++ dire) = true) :
    ∀ found ∈ rad ++ dire, ∃ place, replaySlot found.team found.teamSlot = some place := by
  intro found member
  obtain ⟨slots, same, -, -⟩ := uniqueFrom_eq_true unique
  have there : replaySlot found.team found.teamSlot ∈ slots.map some :=
    same ▸ List.mem_map_of_mem member
  obtain ⟨place, -, known⟩ := List.mem_map.mp there
  exact ⟨place, known.symm⟩

theorem right_seats (radFive : rad.length = 5) (direFive : dire.length = 5)
    (radTeam : ∀ found ∈ rad, found.team = 2) (direTeam : ∀ found ∈ dire, found.team = 3) :
    ∀ seat ∈ seats rad dire, seat.Right := by
  intro seat member
  rw [seats_eq, List.mem_append] at member
  rcases member with inRad | inDire
  · refine right_row (fun unique found there => ?_) ?_ radTeam seat inRad
    · exact named_of_unique unique found (List.mem_append_left _ there)
    · intro i inside
      rw [radFive] at inside
      unfold slotTeam slotValve
      rw [if_pos (by omega), if_pos (by omega)]
      exact ⟨by omega, rfl, rfl⟩
  · refine right_row (fun unique found there => ?_) ?_ direTeam seat inDire
    · exact named_of_unique unique found (List.mem_append_right _ there)
    · intro i inside
      rw [direFive] at inside
      unfold slotTeam slotValve
      rw [if_neg (by omega), if_neg (by omega)]
      exact ⟨by omega, rfl, by omega⟩

theorem nodup_slots_seats (radFive : rad.length = 5) (direFive : dire.length = 5) :
    ((seats rad dire).map Seat.slot).Nodup := by
  rw [seats_eq, List.map_append]
  cases unique : uniqueFrom [] (rad ++ dire) with
  | true =>
      obtain ⟨slots, same, nodup, -⟩ := uniqueFrom_eq_true unique
      rw [List.map_append] at same
      obtain ⟨front, back, rfl, frontSame, backSame⟩ := List.append_eq_map_iff.mp same
      have places : ∀ (list : List Seat),
          list.map Seat.slot = (list.map fun seat => (seat.slot, seat.valve)).map Prod.fst :=
        fun list => by rw [List.map_map]; rfl
      rw [places, places, places_row _ _ frontSame.symm, places_row _ _ backSame.symm,
        ← List.map_append]
      exact nodup
  | false =>
      rw [slots_row, slots_row, radFive, direFive]
      decide

/-- Every slot has a seat. -/
theorem slots_seats (radFive : rad.length = 5) (direFive : dire.length = 5)
    (radTeam : ∀ found ∈ rad, found.team = 2) (direTeam : ∀ found ∈ dire, found.team = 3) :
    ((seats rad dire).map Seat.slot).Perm (List.range 10) := by
  have right := right_seats radFive direFive radTeam direTeam
  have small : (seats rad dire).map Seat.slot ⊆ List.range 10 := by
    intro slot member
    obtain ⟨seat, there, rfl⟩ := List.mem_map.mp member
    exact List.mem_range.mpr (right seat there).1
  have count : ((seats rad dire).map Seat.slot).length = 10 := by
    have same := congrArg List.length (candidates_seats rad dire)
    rw [List.length_map, List.length_append, radFive, direFive] at same
    rw [List.length_map, same]
  apply (List.subperm_of_subset (nodup_slots_seats radFive direFive) small).perm_of_length_le
  rw [count, List.length_range]

/-! ## The roster behind a binding -/

theorem cells_players : Keyed.Cells bindSeat Roster.players Seat.slot
    (fun _ seat => some seat.player) where
  own _ _ := Function.update_self ..
  other _ _ _ ne := Function.update_of_ne ne ..

theorem cells_idToSlot : Keyed.Cells bindSeat Roster.idToSlot (fun seat => seat.candidate.index)
    (fun _ seat => some seat.slot) where
  own _ _ := Function.update_self ..
  other _ _ _ ne := Function.update_of_ne ne ..

theorem cells_accounts : Keyed.Cells bindSeat Roster.accounts Seat.slot
    (fun account seat => if seat.player.accountId ≠ 0 then seat.player.accountId else account) where
  own roster seat := by
    simp only [bindSeat]
    split_ifs
    · exact Function.update_self ..
    · rfl
  other roster seat place ne := by
    simp only [bindSeat]
    split_ifs
    · exact Function.update_of_ne ne ..
    · rfl

/-- The last steam id which was not zero. -/
def lastSteam (index : Nat) (resources : List PlayerResource) : UInt64 :=
  resources.foldl
    (fun steam resource =>
      if (resource index).steamId ≠ 0 then (resource index).steamId else steam) 0

/-- A roster which was bound by the first resource; `history` are the resources which each slot
was refreshed with, the first included. -/
structure Seated (first : PlayerResource) (history : Nat → List PlayerResource)
    (roster : Roster) : Prop where
  ready : roster.playersReady = true
  seat : ∀ slot < 10, ∃ pl, roster.players slot = some pl ∧ pl.slot = slot ∧ pl.index < 24 ∧
    (first pl.index).team = slotTeam slot ∧ pl.team = slotTeam slot ∧
    pl.valveSlot = slotValve slot ∧ pl.steamId = lastSteam pl.index (history slot) ∧
    pl.accountId = accountFromSteam pl.steamId ∧ roster.accounts slot = pl.accountId
  ids : ∀ id slot, roster.idToSlot id = some slot ↔
    slot < 10 ∧ ∃ pl, roster.players slot = some pl ∧ pl.index = id

theorem mem_found {found : Candidate}
    (member : found ∈ (List.range 24).filterMap (candidate resource)) :
    found.index < 24 ∧ (found.team = 2 ∨ found.team = 3) ∧
      found.team = (resource found.index).team ∧ found.steam = (resource found.index).steamId := by
  obtain ⟨index, inside, made⟩ := List.mem_filterMap.mp member
  unfold candidate at made
  dsimp only at made
  split_ifs at made with outside
  cases made
  refine ⟨List.mem_range.mp inside, ?_, rfl, rfl⟩
  by_contra neither
  rw [not_or] at neither
  exact outside neither

theorem nodup_found (resource : PlayerResource) :
    (((List.range 24).filterMap (candidate resource)).map Candidate.index).Nodup := by
  rw [List.map_filterMap]
  refine List.Nodup.filterMap ?_ List.nodup_range
  intro index other value here there
  have indexOf : ∀ index value, value ∈ (candidate resource index).map Candidate.index →
      value = index := by
    intro index value known
    unfold candidate at known
    dsimp only at known
    split_ifs at known
    · cases known
    · exact (Option.mem_some_iff.mp known).symm
  rw [← indexOf index value here, ← indexOf other value there]

theorem length_team (number : Int) (team : number = 2 ∨ number = 3) :
    (((List.range 24).filterMap (candidate resource)).filter (·.team = number)).length =
      (List.range 24).countP fun index => (resource index).team = number := by
  rw [← List.countP_eq_length_filter, List.countP_filterMap]
  apply List.countP_congr
  intro index _
  unfold candidate
  dsimp only
  split_ifs with outside
  · have other : (resource index).team ≠ number := by
      rcases team with rfl | rfl
      · exact outside.1
      · exact outside.2
    simp [other]
  · simp

/-- The team of those which are not the first. -/
theorem filter_ne_two : ((List.range 24).filterMap (candidate resource)).filter (·.team ≠ 2) =
    ((List.range 24).filterMap (candidate resource)).filter (·.team = 3) := by
  apply List.filter_congr
  intro found member
  rcases (mem_found member).2.1 with two | three
  · simp [two]
  · simp [three]

/-- The five of a team who are seated. -/
def five (resource : PlayerResource) (number : Int) : List Candidate :=
  (((List.range 24).filterMap (candidate resource)).filter (·.team = number)).take 5

theorem mem_five {number : Int} {found : Candidate} (member : found ∈ five resource number) :
    found ∈ (List.range 24).filterMap (candidate resource) ∧ found.team = number := by
  obtain ⟨there, team⟩ := List.mem_filter.mp (List.mem_of_mem_take member)
  exact ⟨there, of_decide_eq_true team⟩

theorem nodup_five (resource : PlayerResource) :
    ((five resource 2 ++ five resource 3).map Candidate.index).Nodup := by
  have each : ∀ number, ((five resource number).map Candidate.index).Nodup := by
    intro number
    refine (nodup_found resource).sublist (List.Sublist.map _ ?_)
    exact (List.take_sublist ..).trans List.filter_sublist
  rw [List.map_append, List.nodup_append]
  refine ⟨each 2, each 3, ?_⟩
  intro index inRad other inDire same
  obtain ⟨found, there, rfl⟩ := List.mem_map.mp inRad
  obtain ⟨another, elsewhere, rfl⟩ := List.mem_map.mp inDire
  obtain ⟨listed, two⟩ := mem_five there
  obtain ⟨listedOther, three⟩ := mem_five elsewhere
  have team := (mem_found listed).2.2.1
  rw [same, ← (mem_found listedOther).2.2.1] at team
  omega

instance (resource : PlayerResource) : Decidable (Complete resource) := by
  unfold Complete
  infer_instance

theorem tryBindPlayers_of_not_complete (incomplete : ¬ Complete resource) :
    tryBindPlayers resource roster = roster := by
  unfold tryBindPlayers
  split_ifs with undecided
  · rfl
  · dsimp only
    rw [filter_ne_two, length_team 2 (.inl rfl), length_team 3 (.inr rfl)]
    split_ifs with few
    · rfl
    · refine absurd ⟨?_, by omega, by omega⟩ incomplete
      intro index inside team
      apply undecided
      simp only [List.any_eq_true, List.mem_range, decide_eq_true_eq]
      exact ⟨index, inside, team⟩

/-- The ten seats of a complete resource. -/
def seatsOf (resource : PlayerResource) : List Seat := seats (five resource 2) (five resource 3)

theorem tryBindPlayers_of_complete (complete : Complete resource) :
    tryBindPlayers resource roster =
      { (seatsOf resource).foldl bindSeat roster with playersReady := true } := by
  obtain ⟨decided, rad, dire⟩ := complete
  unfold tryBindPlayers
  rw [if_neg]
  · dsimp only
    rw [filter_ne_two, length_team 2 (.inl rfl), length_team 3 (.inr rfl), if_neg (by omega)]
    rfl
  · simp only [List.any_eq_true, List.mem_range, decide_eq_true_eq, not_exists, not_and]
    exact decided

theorem length_five (number : Int) (team : number = 2 ∨ number = 3)
    (enough : 5 ≤ (List.range 24).countP fun index => (resource index).team = number) :
    (five resource number).length = 5 := by
  rw [five, List.length_take, length_team number team]
  exact min_eq_left enough

theorem slots_seatsOf (complete : Complete resource) :
    ((seatsOf resource).map Seat.slot).Perm (List.range 10) :=
  slots_seats (length_five 2 (.inl rfl) complete.2.1) (length_five 3 (.inr rfl) complete.2.2)
    (fun _ there => (mem_five there).2) fun _ there => (mem_five there).2

theorem right_seatsOf (complete : Complete resource) : ∀ seat ∈ seatsOf resource, seat.Right :=
  right_seats (length_five 2 (.inl rfl) complete.2.1) (length_five 3 (.inr rfl) complete.2.2)
    (fun _ there => (mem_five there).2) fun _ there => (mem_five there).2

theorem candidate_seatsOf {seat : Seat} (member : seat ∈ seatsOf resource) :
    seat.candidate ∈ (List.range 24).filterMap (candidate resource) := by
  have there : seat.candidate ∈ five resource 2 ++ five resource 3 :=
    candidates_seats (five resource 2) (five resource 3) ▸ List.mem_map_of_mem member
  rcases List.mem_append.mp there with inRad | inDire
  · exact (mem_five inRad).1
  · exact (mem_five inDire).1

theorem indices_seatsOf (resource : PlayerResource) :
    ((seatsOf resource).map fun seat => seat.candidate.index).Nodup := by
  have same := candidates_seats (five resource 2) (five resource 3)
  have nodup := nodup_five resource
  rw [← same, List.map_map] at nodup
  exact nodup

/-- A fresh roster is seated by a complete resource. -/
theorem seated_of_complete (complete : Complete resource) :
    Seated resource (fun _ => [resource]) (tryBindPlayers resource {}) := by
  rw [tryBindPlayers_of_complete complete]
  have slots := slots_seatsOf complete
  have nodup : ((seatsOf resource).map Seat.slot).Nodup := slots.nodup_iff.mpr List.nodup_range
  have there : ∀ slot < 10, ∃ seat ∈ seatsOf resource, seat.slot = slot := by
    intro slot small
    exact List.mem_map.mp (slots.mem_iff.mpr (List.mem_range.mpr small))
  have player : ∀ seat ∈ seatsOf resource,
      ((seatsOf resource).foldl bindSeat {}).players seat.slot = some seat.player :=
    fun seat member => cells_players.look_foldl_of_nodup {} nodup member
  refine ⟨rfl, ?_, ?_⟩
  · intro slot small
    obtain ⟨seat, member, rfl⟩ := there slot small
    obtain ⟨-, team, valve⟩ := right_seatsOf complete seat member
    obtain ⟨inside, -, same, steam⟩ := mem_found (candidate_seatsOf member)
    refine ⟨seat.player, player seat member, rfl, inside, same.symm.trans team.symm, team.symm,
      valve.symm, ?_, rfl, ?_⟩
    · change seat.candidate.steam = if _ then _ else _
      rw [steam]
      split_ifs with zero
      · rfl
      · exact (not_not.mp zero)
    · refine (cells_accounts.look_foldl_of_nodup {} nodup member).trans ?_
      split_ifs with zero
      · rfl
      · exact (not_not.mp zero).symm
  · intro id slot
    constructor
    · intro known
      by_cases listed : id ∈ (seatsOf resource).map fun seat => seat.candidate.index
      · obtain ⟨seat, member, rfl⟩ := List.mem_map.mp listed
        have its := cells_idToSlot.look_foldl_of_nodup {} (indices_seatsOf resource) member
        obtain rfl := Option.some.inj (its.symm.trans known)
        exact ⟨(right_seatsOf complete seat member).1, seat.player, player seat member, rfl⟩
      · have none := cells_idToSlot.look_foldl_of_not_mem {} listed
        rw [none] at known
        cases known
    · rintro ⟨small, pl, found, rfl⟩
      obtain ⟨seat, member, rfl⟩ := there slot small
      have same := (player seat member).symm.trans found
      cases same
      exact cells_idToSlot.look_foldl_of_nodup {} (indices_seatsOf resource) member

/-! ## The roster over a demo -/

variable {first : PlayerResource} {history : Nat → List PlayerResource}

theorem lastSteam_concat (index : Nat) (resources : List PlayerResource)
    (resource : PlayerResource) : lastSteam index (resources ++ [resource]) =
      if (resource index).steamId ≠ 0 then (resource index).steamId
      else lastSteam index resources := by
  rw [lastSteam, List.foldl_append]
  rfl

/-- What a refresh leaves of a player, and what it learns. -/
theorem refreshed_spec (resource : PlayerResource) (pl : Player) :
    (pl.refreshed resource).index = pl.index ∧ (pl.refreshed resource).slot = pl.slot ∧
      (pl.refreshed resource).team = pl.team ∧ (pl.refreshed resource).valveSlot = pl.valveSlot ∧
      (pl.refreshed resource).steamId =
        (if (resource pl.index).steamId ≠ 0 then (resource pl.index).steamId else pl.steamId) ∧
      (pl.refreshed resource).accountId =
        if (resource pl.index).steamId ≠ 0 then accountFromSteam (resource pl.index).steamId
        else pl.accountId := by
  unfold Player.refreshed
  dsimp only
  by_cases known : (resource pl.index).steamId ≠ 0
  · simp only [if_pos known]
    split <;> exact ⟨rfl, rfl, rfl, rfl, rfl, rfl⟩
  · simp only [if_neg known]
    split <;> exact ⟨rfl, rfl, rfl, rfl, rfl, rfl⟩

/-- A refresh of one slot lengthens the history of that slot. -/
theorem Seated.refreshPlayer (seated : Seated first history roster) {slot : Nat}
    (small : slot < 10) (resource : PlayerResource) :
    Seated first (Function.update history slot (history slot ++ [resource]))
      (refreshPlayer resource roster slot) := by
  obtain ⟨pl, found, mine, inside, firstTeam, team, valve, steam, account, listed⟩ :=
    seated.seat slot small
  obtain ⟨sameIndex, sameSlot, sameTeam, sameValve, newSteam, newAccount⟩ :=
    refreshed_spec resource pl
  unfold Seats.refreshPlayer
  rw [found]
  refine ⟨seated.ready, ?_, ?_⟩
  · intro other smallOther
    rcases eq_or_ne other slot with rfl | ne
    · refine ⟨pl.refreshed resource, Function.update_self .., sameSlot.trans mine,
        sameIndex ▸ inside, sameIndex ▸ firstTeam, sameTeam.trans team, sameValve.trans valve,
        ?_, ?_, ?_⟩
      · rw [Function.update_self, lastSteam_concat, newSteam, sameIndex, steam]
      · rw [newSteam, newAccount]
        split_ifs
        · rfl
        · exact account
      · dsimp only
        rw [newAccount]
        split_ifs
        · rw [mine, Function.update_self]
        · exact listed
    · obtain ⟨another, there, rest⟩ := seated.seat other smallOther
      refine ⟨another, (Function.update_of_ne ne ..).trans there, ?_⟩
      rw [Function.update_of_ne ne]
      obtain ⟨its, inside, firstTeam, team, valve, steam, account, listed⟩ := rest
      refine ⟨its, inside, firstTeam, team, valve, steam, account, ?_⟩
      dsimp only
      split_ifs
      · rw [mine, Function.update_of_ne ne]
        exact listed
      · exact listed
  · intro id other
    rw [seated.ids]
    refine and_congr_right fun _ => ?_
    dsimp only
    rcases eq_or_ne other slot with rfl | ne
    · rw [Function.update_self, found]
      constructor
      · rintro ⟨_, ⟨⟩, same⟩
        exact ⟨_, rfl, sameIndex.trans same⟩
      · rintro ⟨_, ⟨⟩, same⟩
        exact ⟨_, rfl, sameIndex.symm.trans same⟩
    · rw [Function.update_of_ne ne]

/-- The index of a seated player names its slot. -/
theorem Seated.slotForPlayerID_eq (seated : Seated first history roster) {slot : Nat}
    (small : slot < 10) {pl : Player} (found : roster.players slot = some pl) :
    slotForPlayerID roster pl.index = slot := by
  have known : roster.idToSlot pl.index = some slot :=
    (seated.ids pl.index slot).mpr ⟨small, pl, found, rfl⟩
  unfold slotForPlayerID
  rw [if_neg (by omega), Int.toNat_natCast, known]

theorem Seated.congr {other : Nat → List PlayerResource} (seated : Seated first history roster)
    (same : ∀ slot < 10, other slot = history slot) : Seated first other roster := by
  refine ⟨seated.ready, fun slot small => ?_, seated.ids⟩
  rw [same slot small]
  exact seated.seat slot small

theorem Seated.refreshAll (seated : Seated first history roster) (resource : PlayerResource)
    (slots : List Nat) (small : ∀ slot ∈ slots, slot < 10) :
    Seated first (slots.foldl
        (fun history slot => Function.update history slot (history slot ++ [resource])) history)
      (slots.foldl (Seats.refreshPlayer resource) roster) := by
  induction slots generalizing history roster with
  | nil => exact seated
  | cons slot slots ih =>
      apply ih
      · exact seated.refreshPlayer (small slot List.mem_cons_self) resource
      · exact fun other later => small other (List.mem_cons_of_mem _ later)

/-- Every slot is refreshed once. -/
theorem Seated.refreshPlayerIds (seated : Seated first history roster)
    (resource : PlayerResource) :
    Seated first (fun slot => history slot ++ [resource])
      (refreshPlayerIds resource roster) := by
  unfold Seats.refreshPlayerIds
  rw [if_pos seated.ready]
  refine (seated.refreshAll resource (List.range 10) fun slot => List.mem_range.mp).congr ?_
  intro slot small
  have cells : Keyed.Cells
      (fun (history : Nat → List PlayerResource) slot =>
        Function.update history slot (history slot ++ [resource]))
      id id (fun resources _ => resources ++ [resource]) :=
    { own := fun _ _ => Function.update_self ..
      other := fun _ _ _ ne => Function.update_of_ne ne .. }
  exact (cells.look_foldl_of_nodup history (by simpa using List.nodup_range)
    (List.mem_range.mpr small)).symm

/-- Once the players are seated they stay, and each is refreshed with every later resource. -/
theorem Seated.later (seated : Seated first history roster)
    (ticks : List (Option PlayerResource)) :
    Seated first (fun slot => history slot ++ ticks.filterMap id)
      (ticks.foldl discoverPlayers roster) := by
  induction ticks generalizing history roster with
  | nil => simpa using seated
  | cons tick ticks ih =>
      cases tick with
      | none => exact ih seated
      | some resource =>
          have next : discoverPlayers roster (some resource) =
              Seats.refreshPlayerIds resource roster := by
            simp only [discoverPlayers, if_pos seated.ready]
          rw [List.foldl_cons, next]
          refine (ih (seated.refreshPlayerIds resource)).congr fun slot _ => ?_
          simp

/-- Where a player sits, and at which index of the resource. -/
def Player.place (pl : Player) : Nat × Int × Int × Nat × Nat :=
  (pl.index, pl.team, pl.teamSlot, pl.slot, pl.valveSlot)

theorem place_refreshed (resource : PlayerResource) (pl : Player) :
    (pl.refreshed resource).place = pl.place := by
  unfold Player.refreshed
  dsimp only
  split_ifs <;> rfl

theorem places_refreshPlayer (resource : PlayerResource) (roster : Roster) (slot other : Nat) :
    ((refreshPlayer resource roster slot).players other).map Player.place =
      (roster.players other).map Player.place := by
  unfold refreshPlayer
  split
  · rfl
  · rename_i pl found
    dsimp only
    rcases eq_or_ne other slot with rfl | ne
    · rw [Function.update_self, found, Option.map_some, Option.map_some, place_refreshed]
    · rw [Function.update_of_ne ne]

theorem places_refreshPlayerIds (resource : PlayerResource) (roster : Roster) (slot : Nat) :
    ((refreshPlayerIds resource roster).players slot).map Player.place =
      (roster.players slot).map Player.place := by
  unfold refreshPlayerIds
  split_ifs with ready
  · clear ready
    induction List.range 10 generalizing roster with
    | nil => rfl
    | cons first slots ih => exact (ih _).trans (places_refreshPlayer resource roster first slot)
  · rfl

/-- Later ticks leave every seated player in place. -/
theorem Seated.places_later (seated : Seated first history roster)
    (ticks : List (Option PlayerResource)) (slot : Nat) :
    ((ticks.foldl discoverPlayers roster).players slot).map Player.place =
      (roster.players slot).map Player.place := by
  induction ticks generalizing history roster with
  | nil => rfl
  | cons tick ticks ih =>
      cases tick with
      | none => exact ih seated
      | some resource =>
          have next : discoverPlayers roster (some resource) =
              Seats.refreshPlayerIds resource roster := by
            simp only [discoverPlayers, if_pos seated.ready]
          rw [List.foldl_cons, next, ih (seated.refreshPlayerIds resource)]
          exact places_refreshPlayerIds resource roster slot

theorem discoverPlayers_of_not_complete (incomplete : ¬ Complete resource) :
    discoverPlayers {} (some resource) = {} := by
  change refreshPlayerIds resource (tryBindPlayers resource {}) = {}
  rw [tryBindPlayers_of_not_complete incomplete]
  rfl

/-- The tick which seats the players refreshes them as well. -/
theorem seated_discoverPlayers (complete : Complete resource) :
    Seated resource (fun _ => [resource]) (discoverPlayers {} (some resource)) := by
  refine ⟨((seated_of_complete complete).refreshPlayerIds resource).ready, ?_,
    ((seated_of_complete complete).refreshPlayerIds resource).ids⟩
  intro slot small
  obtain ⟨pl, found, mine, inside, firstTeam, team, valve, steam, rest⟩ :=
    ((seated_of_complete complete).refreshPlayerIds resource).seat slot small
  refine ⟨pl, found, mine, inside, firstTeam, team, valve, ?_, rest⟩
  rw [steam, lastSteam_concat]
  change _ = if _ then _ else _
  split_ifs with known
  · rfl
  · change (if _ then _ else _) = _
    rw [if_neg known]

/-- Whatever a demo sends: as long as no player resource is complete nobody is bound. The first
complete one seats ten players, one to a slot and each team in its half, the indices and the slots
are bound both ways, and no later tick moves anybody: the player of a slot, its index in the
resource and its place in its team are those right behind the first complete tick. The account of
a slot is that of the last steam id which its player had. -/
theorem roster_of_demo (demo : List (Option PlayerResource)) :
    (∀ resource, some resource ∈ demo → ¬ Complete resource) ∧
        demo.foldl discoverPlayers {} = {} ∨
      ∃ front first back, demo = front ++ some first :: back ∧
        (∀ resource, some resource ∈ front → ¬ Complete resource) ∧ Complete first ∧
        Seated first (fun _ => first :: back.filterMap id) (demo.foldl discoverPlayers {}) ∧
        ∀ slot, ((demo.foldl discoverPlayers {}).players slot).map Player.place =
          ((discoverPlayers {} (some first)).players slot).map Player.place := by
  induction demo with
  | nil => exact .inl ⟨by simp, rfl⟩
  | cons tick demo ih =>
      have skip : (∀ resource, tick = some resource → ¬ Complete resource) →
          discoverPlayers {} tick = {} := by
        intro incomplete
        cases tick with
        | none => rfl
        | some resource => exact discoverPlayers_of_not_complete (incomplete resource rfl)
      by_cases complete : ∃ resource, tick = some resource ∧ Complete resource
      · obtain ⟨resource, rfl, complete⟩ := complete
        have seated := seated_discoverPlayers complete
        exact .inr ⟨[], resource, demo, rfl, by simp, complete, seated.later demo,
          seated.places_later demo⟩
      · have incomplete : ∀ resource, tick = some resource → ¬ Complete resource :=
          fun resource same whole => complete ⟨resource, same, whole⟩
        rw [List.foldl_cons, skip incomplete]
        rcases ih with ⟨none, empty⟩ | ⟨front, first, back, rfl, before, whole, seated⟩
        · refine .inl ⟨fun resource member => ?_, empty⟩
          rcases List.mem_cons.mp member with same | later
          · exact incomplete resource same.symm
          · exact none resource later
        · refine .inr ⟨tick :: front, first, back, rfl, fun resource member => ?_, whole, seated⟩
          rcases List.mem_cons.mp member with same | later
          · exact incomplete resource same.symm
          · exact before resource later

end Seats
end Parse
end DotaCollector
