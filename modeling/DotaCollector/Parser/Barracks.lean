import DotaCollector.Parser.Names
import DotaCollector.Parser.Session
import Mathlib.Data.Nat.Bitwise

/-!
# The barracks of a parsed replay

Each side has a mask of six bits, one for each of its barracks. The session clears the bits of the
barracks which a killing entry of the combat log names, the target and the attacker;
`barracksFromCombat` reads the rows of the log once more and takes the attacker only where the
target is no barracks.
-/

namespace DotaCollector
namespace Parse
namespace Barracks

variable {Scalar Columns Extra Action Small : Type}

/-- An entry of the combat log: the name of its type, and the indices of the names. -/
structure CombatLogEntry where
  type : String
  attackerName : Nat
  targetName : Nat

/-- A row of the combat log: the columns which are read back, and the others. -/
structure CombatLog (Extra : Type) where
  type : String
  attacker : Name
  target : Name
  extra : Extra

/-! ## The functions -/

def stripPrefix (s : String) (start : String) : String :=
  if start.toList <+: s.toList then String.ofList (s.toList.drop start.toList.length) else s

def CombatLogEntry.typ (entry : CombatLogEntry) : String :=
  let typ := stripPrefix entry.type "DOTA_COMBATLOG_"
  if typ = "" ∨ typ = "INVALID" then entry.type else typ

/-- The side and the bit of a barracks: melee or ranged, on the top, mid or bottom lane. -/
def raxBit (name : Name) : Option (Bool × Nat) :=
  let n := toLower name
  if !contains n "rax" && !contains n "barracks" then none
  else
    let dire := contains n "badguys" || contains n "dire"
    let ranged := contains n "range"
    let lane := if contains n "mid" then 2 else if contains n "bot" then 4 else 0
    let bit := 1 <<< lane
    some (dire, if ranged then bit <<< 1 else bit)

/-- `mask &^ bit`. -/
def andNot (mask bit : Nat) : Nat := mask ^^^ (mask &&& bit)

def noteRax (world : World Scalar Small) (name : Name) : World Scalar Small :=
  match raxBit name with
  | none => world
  | some (dire, bit) =>
      if dire then { world with raxSeen := true, raxDire := andNot world.raxDire bit }
      else { world with raxSeen := true, raxRadiant := andNot world.raxRadiant bit }

def killing (typ : String) : Bool := typ = "DEATH" || typ = "TEAM_BUILDING_KILL"

/-- `onCombat`. The other columns of the row, and what else the callback does, which leaves the
masks alone, are parameters. -/
def onCombat (lookupCL : Nat → Name) (extra : CombatLogEntry → World Scalar Small → Extra)
    (others : CombatLogEntry → World Scalar Small → World Scalar Small) :
    Callbacks Scalar Columns (CombatLog Extra) Action Small CombatLogEntry := fun entry world =>
  let typ := entry.typ
  let attacker := lookupCL entry.attackerName
  let target := lookupCL entry.targetName
  let row := { type := typ, attacker, target, extra := extra entry world }
  let { raxRadiant, raxDire, raxSeen, .. } :=
    if killing typ then noteRax (noteRax world target) attacker else world
  ({ others entry world with raxRadiant, raxDire, raxSeen }, [.combat row])

/-- The loop of `barracksFromCombat`, with its masks. -/
def barracksFrom : Nat × Nat × Bool → List (CombatLog Extra) → Nat × Nat × Bool
  | masks, [] => masks
  | (rad, dire, known), row :: rows =>
      if !killing row.type then barracksFrom (rad, dire, known) rows
      else
        match (raxBit row.target).or (raxBit row.attacker) with
        | none => barracksFrom (rad, dire, known) rows
        | some (isDire, bit) =>
            if isDire then barracksFrom (rad, andNot dire bit, true) rows
            else barracksFrom (andNot rad bit, dire, true) rows

def barracksFromCombat (rows : List (CombatLog Extra)) : Nat × Nat × Bool :=
  barracksFrom (63, 63, false) rows

/-- A session before its first event. -/
def newWorld (start : World Scalar Small) : World Scalar Small :=
  { start with raxRadiant := 63, raxDire := 63, raxSeen := false }

/-! ## Properties -/

/-- The barracks which `barracksFromCombat` counts for an entry. -/
def counted (lookupCL : Nat → Name) (entry : CombatLogEntry) : Option (Bool × Nat) :=
  if killing entry.typ then
    (raxBit (lookupCL entry.targetName)).or (raxBit (lookupCL entry.attackerName))
  else none

/-- A barracks which is named as an attacker is counted for some entry. -/
def AttackersCounted (lookupCL : Nat → Name) (entries : List CombatLogEntry) : Prop :=
  ∀ entry ∈ entries, killing entry.typ = true → ∀ rax,
    raxBit (lookupCL entry.attackerName) = some rax →
      ∃ other ∈ entries, counted lookupCL other = some rax

/-! ## Masks -/

/-- The mask of a side without some barracks. -/
def cleared (side : Bool) (raxes : List (Bool × Nat)) : Nat :=
  ((raxes.filter (·.1 = side)).map Prod.snd).foldl andNot 63

theorem testBit_andNot (mask bit k : Nat) :
    (andNot mask bit).testBit k = (mask.testBit k && !bit.testBit k) := by
  rw [andNot, Nat.testBit_xor, Nat.testBit_and]
  cases mask.testBit k <;> simp

theorem testBit_cleared (side : Bool) (raxes : List (Bool × Nat)) (k : Nat) :
    (cleared side raxes).testBit k = true ↔
      k < 6 ∧ ∀ bit, (side, bit) ∈ raxes → bit.testBit k = false := by
  have all : ∀ (bits : List Nat) (mask : Nat), (bits.foldl andNot mask).testBit k = true ↔
      mask.testBit k = true ∧ ∀ bit ∈ bits, bit.testBit k = false := by
    intro bits
    induction bits with
    | nil => simp
    | cons bit bits ih =>
        intro mask
        rw [List.foldl_cons, ih, testBit_andNot]
        simp [and_assoc]
  have full : Nat.testBit 63 k = true ↔ k < 6 := by
    rw [show 63 = 2 ^ 6 - 1 from rfl, Nat.testBit_two_pow_sub_one, decide_eq_true_eq]
  rw [cleared, all, full]
  simp

theorem raxBit_eq_two_pow {name : Name} {side : Bool} {bit : Nat}
    (named : raxBit name = some (side, bit)) : ∃ k < 6, bit = 2 ^ k := by
  have shifts : ∀ lane < 5, (∃ k < 6, 1 <<< lane = 2 ^ k) ∧ ∃ k < 6, 1 <<< lane <<< 1 = 2 ^ k := by
    intro lane small
    refine ⟨⟨lane, by omega, Nat.one_shiftLeft lane⟩, lane + 1, by omega, ?_⟩
    rw [← Nat.shiftLeft_add, Nat.one_shiftLeft]
  unfold raxBit at named
  dsimp only at named
  split at named
  · cases named
  · rw [Option.some_inj, Prod.mk.injEq] at named
    rw [← named.2]
    split_ifs
    · exact (shifts 2 (by decide)).2
    · exact (shifts 4 (by decide)).2
    · exact (shifts 0 (by decide)).2
    · exact (shifts 2 (by decide)).1
    · exact (shifts 4 (by decide)).1
    · exact (shifts 0 (by decide)).1

/-- The masks without some barracks, and whether there are any. -/
def masks (raxes : List (Bool × Nat)) : Nat × Nat × Bool :=
  (cleared false raxes, cleared true raxes, !raxes.isEmpty)

theorem masks_append_singleton (raxes : List (Bool × Nat)) (isDire : Bool) (bit : Nat) :
    masks (raxes ++ [(isDire, bit)]) =
      if isDire then (cleared false raxes, andNot (cleared true raxes) bit, true)
      else (andNot (cleared false raxes) bit, cleared true raxes, true) := by
  cases isDire <;> simp [masks, cleared]

/-- Two lists of barracks clear the same bits just when they name the same barracks. -/
theorem masks_eq_iff {raxes others : List (Bool × Nat)} (fewer : others ⊆ raxes)
    (bits : ∀ rax ∈ raxes, ∃ k < 6, rax.2 = 2 ^ k) :
    masks raxes = masks others ↔ raxes ⊆ others := by
  constructor
  · rintro same ⟨side, bit⟩ named
    obtain ⟨k, small, rfl⟩ : ∃ k < 6, bit = 2 ^ k := bits _ named
    have sides : cleared side raxes = cleared side others := by
      cases side
      · exact congrArg Prod.fst same
      · exact congrArg (fun m => m.2.1) same
    have down : ¬(cleared side others).testBit k = true := by
      rw [← sides, testBit_cleared]
      rintro ⟨-, clear⟩
      simpa using clear _ named
    rw [testBit_cleared] at down
    push Not at down
    obtain ⟨bit, found, set⟩ := down small
    obtain ⟨j, -, eq⟩ : ∃ j < 6, bit = 2 ^ j := bits _ (fewer found)
    rw [eq, ne_eq, Bool.not_eq_false, Nat.testBit_two_pow, decide_eq_true_eq] at set
    rw [eq, set] at found
    exact found
  · intro more
    have sides (side : Bool) : cleared side raxes = cleared side others := by
      refine Nat.eq_of_testBit_eq fun k => Bool.eq_iff_iff.mpr ?_
      rw [testBit_cleared, testBit_cleared]
      exact ⟨fun ⟨small, clear⟩ => ⟨small, fun bit found => clear bit (fewer found)⟩,
        fun ⟨small, clear⟩ => ⟨small, fun bit found => clear bit (more found)⟩⟩
    have empty : raxes.isEmpty = others.isEmpty := by
      rw [Bool.eq_iff_iff, List.isEmpty_iff, List.isEmpty_iff]
      exact ⟨fun none => List.eq_nil_of_subset_nil (none ▸ fewer),
        fun none => List.eq_nil_of_subset_nil (none ▸ more)⟩
    rw [masks, masks, sides, sides, empty]

/-! ## What the two count -/

theorem noteRax_masks {world : World Scalar Small} {raxes : List (Bool × Nat)}
    (sofar : (world.raxRadiant, world.raxDire, world.raxSeen) = masks raxes) (name : Name) :
    ((noteRax world name).raxRadiant, (noteRax world name).raxDire, (noteRax world name).raxSeen) =
      masks (raxes ++ (raxBit name).toList) := by
  simp only [masks, Prod.mk.injEq] at sofar
  obtain ⟨rad, dire, seen⟩ := sofar
  rw [noteRax]
  cases raxBit name with
  | none => simp [masks, rad, dire, seen]
  | some rax =>
      obtain ⟨isDire, bit⟩ := rax
      rw [Option.toList_some, masks_append_singleton]
      cases isDire <;> simp [rad, dire]

/-- The barracks which the session counts for an entry. -/
def noted (lookupCL : Nat → Name) (entry : CombatLogEntry) : List (Bool × Nat) :=
  if killing entry.typ then
    (raxBit (lookupCL entry.targetName)).toList ++ (raxBit (lookupCL entry.attackerName)).toList
  else []

/-- The barracks which `barracksFromCombat` counts for a row. -/
def rowCounted (row : CombatLog Extra) : Option (Bool × Nat) :=
  if killing row.type then (raxBit row.target).or (raxBit row.attacker) else none

theorem barracksFrom_masks (rows : List (CombatLog Extra)) (raxes : List (Bool × Nat)) :
    barracksFrom (masks raxes) rows = masks (raxes ++ rows.filterMap rowCounted) := by
  induction rows generalizing raxes with
  | nil => rw [List.filterMap_nil, List.append_nil, barracksFrom]
  | cons row rows ih =>
      rw [List.filterMap_cons, masks, barracksFrom, rowCounted]
      cases killing row.type with
      | false => exact ih raxes
      | true =>
          cases (raxBit row.target).or (raxBit row.attacker) with
          | none => exact ih raxes
          | some rax =>
              obtain ⟨isDire, bit⟩ := rax
              have next := ih (raxes ++ [(isDire, bit)])
              rw [masks_append_singleton, List.append_assoc] at next
              cases isDire <;> exact next

theorem noted_of_counted {lookupCL : Nat → Name} {entry : CombatLogEntry} {rax : Bool × Nat}
    (found : counted lookupCL entry = some rax) : rax ∈ noted lookupCL entry := by
  rw [counted] at found
  rw [noted]
  split_ifs at found ⊢ with kills
  rw [List.mem_append, Option.mem_toList, Option.mem_toList]
  exact (Option.or_eq_some_iff.mp found).imp id And.right

/-- What the session counts for an entry is a counted barracks, or one named as the attacker. -/
theorem counted_or_attacker {lookupCL : Nat → Name} {entry : CombatLogEntry} {rax : Bool × Nat}
    (found : rax ∈ noted lookupCL entry) :
    counted lookupCL entry = some rax ∨
      (killing entry.typ = true ∧ raxBit (lookupCL entry.attackerName) = some rax) := by
  rw [noted] at found
  rw [counted]
  split_ifs at found ⊢ with kills
  · rw [List.mem_append, Option.mem_toList, Option.mem_toList] at found
    obtain target | attacker := found
    · exact .inl (by rw [target, Option.some_or])
    · exact .inr ⟨kills, attacker⟩
  · cases found

/-- An entry behind a session: its row is added, and its barracks are cleared. -/
theorem step_onCombat (sink : Bool) (lookupCL : Nat → Name)
    (extra : CombatLogEntry → World Scalar Small → Extra)
    (others : CombatLogEntry → World Scalar Small → World Scalar Small)
    (session : Session Scalar Columns (CombatLog Extra) Action Small) (entry : CombatLogEntry)
    {raxes : List (Bool × Nat)}
    (sofar : (session.world.raxRadiant, session.world.raxDire, session.world.raxSeen) =
      masks raxes) :
    let after := session.step sink (onCombat lookupCL extra others) entry
    (after.world.raxRadiant, after.world.raxDire, after.world.raxSeen) =
        masks (raxes ++ noted lookupCL entry) ∧
      after.combatLog.contents.filterMap rowCounted =
        session.combatLog.contents.filterMap rowCounted ++ (counted lookupCL entry).toList := by
  constructor
  · rw [noted]
    by_cases kills : killing entry.typ = true
    · have both := noteRax_masks (noteRax_masks sofar (lookupCL entry.targetName))
        (lookupCL entry.attackerName)
      rw [List.append_assoc] at both
      simpa [Session.step, onCombat, kills, Session.emit, Session.addCombat] using both
    · simpa [Session.step, onCombat, kills, Session.emit, Session.addCombat] using sofar
  · simp only [Session.step, onCombat, List.foldl_cons, List.foldl_nil, Session.emit,
      Session.addCombat, Buffer.contents_push, List.filterMap_append, List.append_cancel_left_eq]
    have row : rowCounted { type := entry.typ, attacker := lookupCL entry.attackerName
                            target := lookupCL entry.targetName
                            extra := extra entry session.world } = counted lookupCL entry := rfl
    rw [List.filterMap_cons, row, List.filterMap_nil]
    cases counted lookupCL entry <;> rfl

theorem run_onCombat (sink : Bool) (lookupCL : Nat → Name)
    (extra : CombatLogEntry → World Scalar Small → Extra)
    (others : CombatLogEntry → World Scalar Small → World Scalar Small)
    (start : World Scalar Small) (demo : List CombatLogEntry) :
    let session : Session Scalar Columns (CombatLog Extra) Action Small :=
      { world := newWorld start }
    let after := demo.foldl (Session.step sink (onCombat lookupCL extra others)) session
    (after.world.raxRadiant, after.world.raxDire, after.world.raxSeen) =
        masks (demo.flatMap (noted lookupCL)) ∧
      after.combatLog.contents.filterMap rowCounted = demo.filterMap (counted lookupCL) := by
  induction demo using List.reverseRecOn with
  | nil => exact ⟨rfl, rfl⟩
  | append_singleton demo entry ih =>
      obtain ⟨bits, rows⟩ := ih
      obtain ⟨next, row⟩ := step_onCombat sink lookupCL extra others _ entry bits
      simp only [List.foldl_append, List.foldl_cons, List.foldl_nil, List.flatMap_append,
        List.flatMap_singleton, List.filterMap_append]
      refine ⟨next, ?_⟩
      rw [row, rows, List.filterMap_cons, List.filterMap_nil]
      cases counted lookupCL entry <;> rfl

/-- The masks which a session has accumulated are those of its combat log just when every
barracks named as an attacker is also counted as a target. -/
theorem masks_eq_barracksFromCombat_iff [BEq Scalar] [Add Scalar] [Sub Scalar] [Mul Scalar]
    [NatCast Scalar] [LT Scalar] [DecidableLT Scalar] (sink : Bool) (lookupCL : Nat → Name)
    (extra : CombatLogEntry → World Scalar Small → Extra)
    (others : CombatLogEntry → World Scalar Small → World Scalar Small)
    (start : World Scalar Small) (demo : List CombatLogEntry) :
    let result : Result Scalar Columns (CombatLog Extra) Action Small :=
      parseStream sink (onCombat lookupCL extra others) (newWorld start) demo
    (result.barracksRadiant, result.barracksDire, result.barracksKnown) =
        barracksFromCombat result.combatLog.contents ↔
      AttackersCounted lookupCL demo := by
  obtain ⟨bits, rows⟩ := @run_onCombat Scalar Columns Extra Action Small sink lookupCL extra others
    start demo
  have batch := barracksFrom_masks (demo.foldl (Session.step sink
    (@onCombat Scalar Columns Extra Action Small lookupCL extra others))
    { world := newWorld start }).combatLog.contents []
  rw [rows, List.nil_append] at batch
  have fewer : demo.filterMap (counted lookupCL) ⊆ demo.flatMap (noted lookupCL) := by
    intro rax found
    obtain ⟨entry, listed, counts⟩ := List.mem_filterMap.mp found
    exact List.mem_flatMap.mpr ⟨entry, listed, noted_of_counted counts⟩
  have powers : ∀ rax ∈ demo.flatMap (noted lookupCL), ∃ k < 6, rax.2 = 2 ^ k := by
    intro rax found
    obtain ⟨entry, -, notes⟩ := List.mem_flatMap.mp found
    rw [noted] at notes
    split_ifs at notes
    · rw [List.mem_append, Option.mem_toList, Option.mem_toList] at notes
      exact notes.elim raxBit_eq_two_pow raxBit_eq_two_pow
    · cases notes
  simp only [parseStream, Session.finishSummaries]
  change _ = barracksFrom (masks []) _ ↔ _
  rw [bits, batch, masks_eq_iff fewer powers]
  constructor
  · intro more entry listed kills rax attacker
    have found : rax ∈ noted lookupCL entry := by
      rw [noted, if_pos kills, List.mem_append, Option.mem_toList, Option.mem_toList]
      exact .inr attacker
    exact List.mem_filterMap.mp (more (List.mem_flatMap.mpr ⟨entry, listed, found⟩))
  · intro attackers rax found
    obtain ⟨entry, listed, notes⟩ := List.mem_flatMap.mp found
    obtain counts | ⟨kills, attacker⟩ := counted_or_attacker notes
    · exact List.mem_filterMap.mpr ⟨entry, listed, counts⟩
    · exact List.mem_filterMap.mpr (attackers entry listed kills rax attacker)

/-- Two names of a combat log, both of barracks. -/
def twoRaxes (index : Nat) : Name :=
  if index = 0 then "npc_dota_goodguys_melee_rax_mid".toList
  else "npc_dota_badguys_range_rax_bot".toList

/-- A barracks dies and a barracks is named as the attacker: the session clears the bits of both,
`barracksFromCombat` that of the target. -/
theorem attacking_rax_uncounted :
    let start : World Int Unit :=
      { players := [], laneUntil := 0, gameState := 0, clock := 0, raxRadiant := 63, raxDire := 63
        raxSeen := false, objectives := [], small := () }
    let result : Result Int Unit (CombatLog Unit) Unit Unit :=
      parseStream false (onCombat twoRaxes (fun _ _ => ()) fun _ world => world) (newWorld start)
        [{ type := "DOTA_COMBATLOG_DEATH", attackerName := 1, targetName := 0 }]
    (result.barracksRadiant, result.barracksDire, result.barracksKnown) = (59, 31, true) ∧
      barracksFromCombat result.combatLog.contents = (59, 63, true) := by
  decide +kernel

end Barracks
end Parse
end DotaCollector
