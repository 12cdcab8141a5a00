import Mathlib.Data.List.Basic
import Mathlib.Data.List.Range
import DotaCollector.Library.Decimal
import DotaCollector.Library.Keyed
import DotaCollector.Parser.Wards

/-!
# The change logs of heroes

At every interval the session looks at 21 item slots and 24 ability places of each hero, and writes
a row only where something has changed since it looked last. What it remembers is one array of
handles, and one map from texts to levels; the rows are none the less what each item slot and each
ability place would have written alone. The inventory log has also a row for every early purchase.
-/

namespace DotaCollector
namespace Parse
namespace ChangeLogs

open HeroKey (trimSpace)
open Wards (Header)

/-! ## Numbers as text -/

/-- The loop of `fmtInt`, which fills its buffer from the end. -/
def fillDigits : Nat → Nat → Name → Name
  | 0, _, filled => filled
  | room + 1, n, filled =>
      if n = 0 then filled else fillDigits room (n / 10) (Nat.digitChar (n % 10) :: filled)

def fmtInt (n : Int64) : Name :=
  if n = 0 then ['0']
  else
    let neg := n < 0
    -- the negative of the least number is itself, and the loop does not run
    let m := if neg then -n else n
    let digits := fillDigits 20 m.toNatClampNeg []
    if neg then '-' :: digits else digits

theorem fillDigits_eq {room n : Nat} (small : n < 10 ^ room) (filled : Name) (positive : 0 < n) :
    fillDigits room n filled = Nat.toDigits 10 n ++ filled := by
  induction room generalizing n filled with
  | zero =>
      rw [pow_zero] at small
      omega
  | succ room ih =>
      rw [fillDigits, if_neg positive.ne', Nat.toDigits_eq_if (by decide)]
      split_ifs with digit
      · rw [Nat.div_eq_of_lt digit, Nat.mod_eq_of_lt digit]
        cases room with
        | zero => rfl
        | succ room => simp [fillDigits]
      · have rest : n / 10 < 10 ^ room := by
          rw [pow_succ] at small
          omega
        rw [ih rest _ (by omega), List.append_assoc]
        rfl

/-- The text of every number but the least is its decimal one; that of the least is a sign. -/
theorem fmtInt_eq (n : Int64) : fmtInt n =
    if n = Int64.minValue then ['-']
    else if n.toInt < 0 then '-' :: Nat.toDigits 10 n.toInt.natAbs
    else Nat.toDigits 10 n.toInt.natAbs := by
  have lower : -2 ^ 63 ≤ n.toInt := n.le_toInt
  have upper : n.toInt < 2 ^ 63 := n.toInt_lt
  by_cases least : n = Int64.minValue
  · subst least
    rfl
  · have above : n.toInt ≠ -2 ^ 63 := fun same =>
      least (Int64.toInt_inj.mp (same.trans Int64.toInt_minValue.symm))
    rw [if_neg least, fmtInt]
    by_cases zero : n = 0
    · subst zero
      rfl
    · have nonzero : n.toInt ≠ 0 := fun same => zero (Int64.toInt_inj.mp same)
      have sign : n < 0 ↔ n.toInt < 0 := Int64.lt_iff_toInt_lt
      rw [if_neg zero]
      by_cases negative : n.toInt < 0
      · have flipped : (-n).toNatClampNeg = n.toInt.natAbs := by
          rw [Int64.toNatClampNeg, Int64.toInt_neg, Int.bmod_eq_of_le (by omega) (by omega)]
          omega
        simp only [if_pos (sign.mpr negative), if_pos negative, flipped]
        rw [fillDigits_eq (by omega) _ (by omega), List.append_nil]
      · have kept : n.toNatClampNeg = n.toInt.natAbs := by
          rw [Int64.toNatClampNeg]
          omega
        simp only [if_neg (fun less => negative (sign.mp less)), if_neg negative, kept]
        rw [fillDigits_eq (by omega) _ (by omega), List.append_nil]

/-- Reading a text of `fmtInt`; a bare sign is the least number. -/
def readInt : Name → Int
  | ['-'] => Int64.minValue.toInt
  | '-' :: digits => -Decimal.value digits
  | digits => Decimal.value digits

theorem readInt_toDigits (n : Nat) : readInt (Nat.toDigits 10 n) = n := by
  cases digits : Nat.toDigits 10 n with
  | nil =>
      have same := Decimal.value_toDigits n
      rw [digits] at same
      exact congrArg Int.ofNat same
  | cons char rest =>
      have digit : char.isDigit = true :=
        Nat.isDigit_of_mem_toDigits (by decide) (by decide) (digits ▸ List.mem_cons_self)
      have ne : char ≠ '-' := by
        rintro rfl
        exact absurd digit (by decide)
      rw [readInt, ← digits, Decimal.value_toDigits]
      · exact fun same => ne (List.cons_eq_cons.mp same).1
      · exact fun _ same => ne (List.cons_eq_cons.mp same).1

theorem readInt_fmtInt (n : Int64) : readInt (fmtInt n) = n.toInt := by
  rw [fmtInt_eq]
  split_ifs with least negative
  · rw [least]
    rfl
  · cases digits : Nat.toDigits 10 n.toInt.natAbs with
    | nil =>
        have same := Decimal.value_toDigits n.toInt.natAbs
        rw [digits] at same
        change 0 = _ at same
        omega
    | cons char rest =>
        rw [readInt, ← digits, Decimal.value_toDigits]
        · omega
        · simp
  · rw [readInt_toDigits]
    omega

theorem fmtInt_inj {n other : Int64} (same : fmtInt n = fmtInt other) : n = other := by
  have read := congrArg readInt same
  rw [readInt_fmtInt, readInt_fmtInt] at read
  exact Int64.toInt_inj.mp read

theorem colon_notMem_fmtInt (n : Int64) : ':' ∉ fmtInt n := by
  have digits : ∀ number : Nat, ':' ∉ Nat.toDigits 10 number := by
    intro number inside
    exact absurd (Nat.isDigit_of_mem_toDigits (by decide) (by decide) inside) (by decide)
  rw [fmtInt_eq]
  split_ifs
  · decide
  · rw [List.mem_cons, not_or]
    exact ⟨by decide, digits _⟩
  · exact digits _

/-- The key of the ability map. -/
def abilityKey (slot index : Int64) : Name := fmtInt slot ++ ':' :: fmtInt index

theorem abilityKey_inj {slot index other another : Int64}
    (same : abilityKey slot index = abilityKey other another) : slot = other ∧ index = another := by
  obtain ⟨slots, -, indices⟩ := (List.append_cons_inj_of_notMem (colon_notMem_fmtInt slot)
    (colon_notMem_fmtInt index)).mp same
  exact ⟨fmtInt_inj slots, fmtInt_inj indices⟩

/-! ## Entities -/

/-- A property of an entity, as a number of one of the types it may have. A float is given by its
whole part, of which a conversion to an integer keeps the low bits. -/
inductive Property
  | int32 (x : Int32)
  | int (x : Int64)
  | uint32 (x : UInt32)
  | uint64 (x : UInt64)
  | int64 (x : Int64)
  | float32 (whole : Int)
  | float64 (whole : Int)
  | other

def asInt32 : Property → Option Int32
  | .int32 x => some x
  | .int x => some x.toInt32
  | .uint32 x => some x.toInt32
  | .uint64 x => some x.toUInt32.toInt32
  | .int64 x => some x.toInt32
  | .float32 whole => some (Int32.ofInt whole)
  | .float64 whole => some (Int32.ofInt whole)
  | .other => none

def asUint32 : Property → Option UInt32
  | .uint32 x => some x
  | .uint64 x => some x.toUInt32
  | .int32 x => some x.toUInt32
  | .int x => some x.toInt32.toUInt32
  | .float32 whole => some (UInt32.ofInt whole)
  | .int64 _ | .float64 _ | .other => none

def asUint64 : Property → Option UInt64
  | .uint64 x => some x
  | .uint32 x => some x.toUInt64
  | .int32 x => some x.toInt64.toUInt64
  | .int64 x => some x.toUInt64
  | .int _ | .float32 _ | .float64 _ | .other => none

structure Entity where
  className : Name
  get : String → Option Property

def getAny (e : Entity) (names : List String) : Option Property := names.findSome? e.get

def getInt (e : Entity) (names : List String) : Int32 := ((getAny e names).bind asInt32).getD 0

def getUint (e : Entity) (names : List String) : UInt32 := ((getAny e names).bind asUint32).getD 0

def getUint64 (e : Entity) (names : List String) : UInt64 :=
  ((getAny e names).bind asUint64).getD 0

def pad4 (i : Nat) : String :=
  String.ofList (List.replicate (4 - (Nat.toDigits 10 i).length) '0' ++ Nat.toDigits 10 i)

/-- A look at one hero: what the demo holds at the tick, the hero and its player. -/
structure Look where
  clock : Int
  tick : Nat
  accountForSlot : Int → Nat
  findEntityByHandle : UInt64 → Option Entity
  lookupString : Int32 → Option Name
  hero : Entity
  slot : Int8
  heroNPC : Name

def lookupEntityName (look : Look) (index : UInt32) : Name :=
  (look.lookupString index.toInt32).getD []

/-- The name of an item or an ability is its stringable one, or else its class. -/
def entityName (look : Look) (ent : Entity) : Name :=
  let n := lookupEntityName look (getUint ent ["m_pEntity.m_nameStringableIndex"])
  if n = [] then ent.className else n

def headerAt (clock : Int) (tick : Nat) (accountForSlot : Int → Nat) (slot : Int8) : Header where
  time := clock
  tick := tick
  slot := slot.toInt
  accountId := accountForSlot slot.toInt

def header (look : Look) : Header :=
  headerAt look.clock look.tick look.accountForSlot look.slot

/-! ## The inventory -/

structure Inventory where
  header : Header
  itemId : Name
  itemSlot : Int
  charges : UInt16
  secondaryCharges : UInt16

/-- The handle in an item slot; the one which stands for no item is read as 0. -/
def itemHandle (look : Look) (i : Nat) : UInt64 :=
  let h := getUint64 look.hero ["m_hItems." ++ pad4 i, "m_Inventory.m_hItems." ++ pad4 i]
  if h = 0xFFFFFFFFFFFFFFFF then 0 else h

def inventoryRow (look : Look) (i : Nat) (h : UInt64) : Inventory :=
  let row : Inventory := ⟨header look, [], i, 0, 0⟩
  match if h = 0 then none else look.findEntityByHandle h with
  | none => row
  | some ent =>
      { row with
        itemId := entityName look ent
        charges := (getInt ent ["m_iCurrentCharges", "m_iCharges"]).toUInt32.toUInt16
        secondaryCharges := (getInt ent ["m_iSecondaryCharges"]).toUInt32.toUInt16 }

/-- The handles seen last, by player and item slot. -/
abbrev LastItems := Int × Nat → UInt64

/-- What one item slot makes of a look. -/
def inventoryChange (look : Look) (last : UInt64) (i : Nat) : UInt64 × List Inventory :=
  let h := itemHandle look i
  if h = last then (last, []) else (h, [inventoryRow look i h])

def emitInventoryChanges (lastItems : LastItems) (look : Look) : LastItems × List Inventory :=
  let idx := look.slot.toInt
  if idx < 0 ∨ 10 ≤ idx then (lastItems, [])
  else
    Keyed.transduce (Keyed.family (fun i => (idx, i)) (inventoryChange look)) lastItems
      (List.range 21)

/-- A purchase in the combat log, with the time and the slot which `onCombat` finds for it. -/
structure Purchase where
  clock : Int
  tick : Nat
  accountForSlot : Int → Nat
  lookupCL : UInt32 → Name
  slot : Int8
  value : UInt32
  inflictorName : UInt32

def unknownCL (name : Name) : Bool :=
  toLower (trimSpace name) ∈ [[], "dota_unknown".toList, "unknown".toList]

def clName (purchase : Purchase) (index : UInt32) : Name :=
  let name := purchase.lookupCL index
  if unknownCL name then [] else name

def valueName (purchase : Purchase) : Name :=
  let name := clName purchase purchase.value
  if name = [] then clName purchase purchase.inflictorName else name

/-- What `onCombat` appends to the inventory log. -/
def onPurchase (purchase : Purchase) : List Inventory :=
  let name := valueName purchase
  if purchase.clock ≤ 90 ∧ name ≠ [] ∧ unknownCL name = false then
    [⟨headerAt purchase.clock purchase.tick purchase.accountForSlot purchase.slot, name, -1, 0, 0⟩]
  else []

/-- The events which write to the inventory log. -/
inductive InventoryEvent
  | look (look : Look)
  | purchase (purchase : Purchase)

def inventoryStep (lastItems : LastItems) : InventoryEvent → LastItems × List Inventory
  | .look look => emitInventoryChanges lastItems look
  | .purchase purchase => (lastItems, onPurchase purchase)

/-! ## The abilities -/

structure AbilityLevel where
  header : Header
  abilityId : Name
  abilityLevel : UInt8
  target : Name

def abilityHandle (look : Look) (i : Nat) : UInt64 :=
  let h := getUint64 look.hero ["m_hAbilities." ++ pad4 i]
  if h = 0 then getUint64 look.hero ["m_vecAbilities." ++ pad4 i] else h

/-- The name and the level of an ability, where it has both. -/
def abilityAt (look : Look) (i : Nat) : Option (Name × UInt8) :=
  let h := abilityHandle look i
  if h = 0 ∨ h = 0xFFFFFFFFFFFFFFFF then none
  else
    match look.findEntityByHandle h with
    | none => none
    | some ent =>
        if contains ent.className "Ability" ∨ "CDOTA_Item".toList <+: ent.className then
          let name := entityName look ent
          let level := (getInt ent ["m_iLevel"]).toUInt32.toUInt8
          if name = [] ∨ level = 0 then none else some (name, level)
        else none

abbrev AbilitySeen := Name → Option UInt8

/-- What the entry of one key makes of a look. -/
def abilityChange (look : Look) (prev : Option UInt8) (i : Nat) :
    Option UInt8 × List AbilityLevel :=
  match abilityAt look i with
  | none => (prev, [])
  | some (name, level) =>
      if ∃ seen ∈ prev, level ≤ seen then (prev, [])
      else (some level, [⟨header look, name, level, look.heroNPC⟩])

def emitAbilities (abilitySeen : AbilitySeen) (look : Look) : AbilitySeen × List AbilityLevel :=
  Keyed.transduce
    (Keyed.family (fun i => abilityKey look.slot.toInt64 (Int64.ofNat i)) (abilityChange look))
    abilitySeen (List.range 24)

/-! ## What the logs hold -/

/-- The handle which an item slot of a player showed at the last look, 0 before the first. -/
def lastShown (before : List Look) (slot : Int8) (i : Nat) : UInt64 :=
  ((before.filter (·.slot = slot)).getLast?.map (itemHandle · i)).getD 0

theorem advance_inventoryChange (look : Look) (last : UInt64) (i : Nat) :
    Keyed.advance (inventoryChange look) last i = itemHandle look i := by
  rw [Keyed.advance, inventoryChange]
  split_ifs with same
  · exact same.symm
  · rfl

theorem nodup_itemKeys (slot : Int) : ((List.range 21).map fun i => (slot, i)).Nodup :=
  List.nodup_range.map fun _ _ same => (Prod.mk.inj same).2

/-- A look at a player replaces the handles of its 21 item slots. -/
theorem emitInventoryChanges_cells : Keyed.Cells (Keyed.advance emitInventoryChanges)
    (fun lastItems slot i => lastItems (Int8.toInt slot, i)) Look.slot
    (fun shown look i => if (0 ≤ look.slot.toInt ∧ look.slot.toInt < 10) ∧ i < 21
      then itemHandle look i else shown i) where
  own lastItems look := by
    funext i
    rw [Keyed.advance, emitInventoryChanges]
    split_ifs with outside shown shown
    · omega
    · rfl
    · exact (Keyed.transduce_family_own lastItems (nodup_itemKeys look.slot.toInt)
        (List.mem_range.mpr shown.2)).trans (advance_inventoryChange look _ i)
    · apply Keyed.transduce_family_other
      intro member
      obtain ⟨j, small, same⟩ := List.mem_map.mp member
      rw [← (Prod.mk.inj same).2] at shown
      exact shown ⟨by omega, List.mem_range.mp small⟩
  other lastItems look slot ne := by
    funext i
    rw [Keyed.advance, emitInventoryChanges]
    split_ifs with outside
    · rfl
    · apply Keyed.transduce_family_other
      intro member
      obtain ⟨j, -, same⟩ := List.mem_map.mp member
      exact ne (Int8.toInt_inj.mp (Prod.mk.inj same).1.symm)

/-- What is remembered of a player is what its item slots showed last. -/
theorem lastItems_after (before : List Look) {slot : Int8} {i : Nat}
    (inside : 0 ≤ slot.toInt ∧ slot.toInt < 10) (small : i < 21) :
    before.foldl (Keyed.advance emitInventoryChanges) (fun _ => 0) (slot.toInt, i) =
      lastShown before slot i := by
  have after := congrFun (emitInventoryChanges_cells.look_foldl (fun _ => 0) before slot) i
  rw [lastShown]
  refine after.trans ?_
  have mine : ∀ look ∈ before.filter (·.slot = slot), look.slot = slot := fun look member =>
    of_decide_eq_true (List.mem_filter.mp member).2
  generalize before.filter (·.slot = slot) = looks at mine
  induction looks using List.reverseRecOn with
  | nil => rfl
  | append_singleton looks look ih =>
      have same := mine look (List.mem_append_right _ List.mem_cons_self)
      rw [List.foldl_append, List.getLast?_append]
      exact if_pos ⟨same ▸ inside, small⟩

/-- The rows of one look: the item slots which do not show what they showed last. -/
def changedItems (before : List Look) (look : Look) : List Inventory :=
  if 0 ≤ look.slot.toInt ∧ look.slot.toInt < 10 then
    (List.range 21).flatMap fun i =>
      if itemHandle look i = lastShown before look.slot i then []
      else [inventoryRow look i (itemHandle look i)]
  else []

theorem emitInventoryChanges_after (before : List Look) (look : Look) :
    (emitInventoryChanges (before.foldl (Keyed.advance emitInventoryChanges) fun _ => 0) look).2 =
      changedItems before look := by
  rw [emitInventoryChanges, changedItems]
  split_ifs with outside inside inside
  · omega
  · rfl
  · rw [Keyed.transduce_family_of_nodup _ (nodup_itemKeys look.slot.toInt)]
    apply List.flatMap_congr
    intro i small
    rw [lastItems_after before inside (List.mem_range.mp small), inventoryChange]
    split_ifs <;> rfl
  · omega

/-- The looks among the events. -/
def looksOf (events : List InventoryEvent) : List Look :=
  events.filterMap fun
    | .look look => some look
    | .purchase _ => none

/-- A purchase leaves what is remembered of the item slots. -/
theorem foldl_inventoryStep (lastItems : LastItems) (events : List InventoryEvent) :
    events.foldl (Keyed.advance inventoryStep) lastItems =
      (looksOf events).foldl (Keyed.advance emitInventoryChanges) lastItems := by
  induction events generalizing lastItems with
  | nil => rfl
  | cons event events ih =>
      cases event with
      | look look => exact ih _
      | purchase purchase => exact ih _

/-- The rows of one event of the inventory log, with the events before it. -/
def inventoryRows (before : List InventoryEvent) : InventoryEvent → List Inventory
  | .look look => changedItems (looksOf before) look
  | .purchase purchase => onPurchase purchase

/-- The level which the entry of one key has after a look. -/
theorem advance_abilityChange (look : Look) (prev : Option UInt8) (i : Nat) (level : UInt8) :
    (∃ seen ∈ Keyed.advance (abilityChange look) prev i, level ≤ seen) ↔
      (∃ seen ∈ prev, level ≤ seen) ∨ ∃ shown ∈ abilityAt look i, level ≤ shown.2 := by
  rw [Keyed.advance, abilityChange]
  cases abilityAt look i with
  | none => simp
  | some shown =>
      obtain ⟨name, new⟩ := shown
      have shows : (∃ shown ∈ some (name, new), level ≤ shown.2) ↔ level ≤ new := by simp
      rw [shows]
      dsimp only
      split_ifs with beaten
      · obtain ⟨seen, known, above⟩ := beaten
        exact (or_iff_left_of_imp fun below => ⟨seen, known, UInt8.le_trans below above⟩).symm
      · have higher : (∃ seen ∈ prev, level ≤ seen) → level ≤ new := by
          rintro ⟨seen, known, below⟩
          exact UInt8.le_trans below (UInt8.le_of_lt
            (UInt8.not_le.mp fun above => beaten ⟨seen, known, above⟩))
        rw [or_iff_right_of_imp higher]
        simp

theorem nodup_abilityKeys (slot : Int64) :
    ((List.range 24).map fun i => abilityKey slot (Int64.ofNat i)).Nodup := by
  apply List.Nodup.map_on _ List.nodup_range
  intro i small j other same
  rw [List.mem_range] at small other
  have number := congrArg Int64.toInt (abilityKey_inj same).2
  rw [Int64.toInt_ofNat_of_lt (by omega), Int64.toInt_ofNat_of_lt (by omega)] at number
  exact Int.ofNat.inj number

/-- A look at a player changes the levels of its 24 ability places. -/
theorem emitAbilities_cells : Keyed.Cells (Keyed.advance emitAbilities)
    (fun abilitySeen slot (i : Fin 24) =>
      abilitySeen (abilityKey (Int8.toInt64 slot) (Int64.ofNat i)))
    Look.slot (fun seen look i => Keyed.advance (abilityChange look) (seen i) i) where
  own abilitySeen look := by
    funext i
    exact Keyed.transduce_family_own abilitySeen (nodup_abilityKeys look.slot.toInt64)
      (List.mem_range.mpr i.isLt)
  other abilitySeen look slot ne := by
    funext i
    apply Keyed.transduce_family_other
    intro member
    obtain ⟨j, -, same⟩ := List.mem_map.mp member
    have slots := congrArg Int64.toInt (abilityKey_inj same).1
    rw [Int8.toInt_toInt64, Int8.toInt_toInt64] at slots
    exact ne (Int8.toInt_inj.mp slots.symm)

/-- A level is no news where the player has shown one as high. -/
theorem abilitySeen_after (before : List Look) (slot : Int8) (i : Fin 24) (level : UInt8) :
    (∃ seen ∈ before.foldl (Keyed.advance emitAbilities) (fun _ => none)
      (abilityKey slot.toInt64 (Int64.ofNat i)), level ≤ seen) ↔
      ∃ earlier ∈ before, earlier.slot = slot ∧ ∃ shown ∈ abilityAt earlier i, level ≤ shown.2 := by
  have after := congrFun (emitAbilities_cells.look_foldl (fun _ => none) before slot) i
  rw [after]
  have mine : (∃ earlier ∈ before, earlier.slot = slot ∧
      ∃ shown ∈ abilityAt earlier i, level ≤ shown.2) ↔
      ∃ earlier ∈ before.filter (·.slot = slot),
        ∃ shown ∈ abilityAt earlier i, level ≤ shown.2 := by
    simp [List.mem_filter, and_assoc]
  rw [mine]
  generalize before.filter (·.slot = slot) = looks
  induction looks using List.reverseRecOn with
  | nil => simp
  | append_singleton looks look ih =>
      rw [List.foldl_append]
      refine ((advance_abilityChange look _ i level).trans (or_congr ih Iff.rfl)).trans ?_
      simp only [List.mem_append, List.mem_singleton, or_and_right, exists_or, exists_eq_left]

/-- The ability log of a session holds, look by look and index by index, the levels which are higher
than all the player has shown at that index before. Which ability stands there does not count: one
which has moved to another index is news there, and one at a used index is not until its level is
higher than those of the abilities before it. -/
theorem ability_log (looks : List Look) :
    (Keyed.transduce emitAbilities (fun _ => none) looks).2 =
      (looks.inits.zip looks).flatMap fun (before, look) =>
        (List.range 24).flatMap fun i =>
          match abilityAt look i with
          | none => []
          | some (name, level) =>
              if ∃ earlier ∈ before, earlier.slot = look.slot ∧
                ∃ shown ∈ abilityAt earlier i, level ≤ shown.2 then []
              else [⟨header look, name, level, look.heroNPC⟩] := by
  rw [Keyed.transduce_snd]
  apply List.flatMap_congr
  rintro ⟨before, look⟩ -
  dsimp only
  rw [emitAbilities, Keyed.transduce_family_of_nodup _ (nodup_abilityKeys look.slot.toInt64)]
  apply List.flatMap_congr
  intro i small
  rw [abilityChange]
  cases abilityAt look i with
  | none => rfl
  | some shown =>
      dsimp only
      have news := abilitySeen_after before look.slot ⟨i, List.mem_range.mp small⟩ shown.2
      simp only [news]
      split_ifs <;> rfl

end ChangeLogs
end Parse
end DotaCollector
