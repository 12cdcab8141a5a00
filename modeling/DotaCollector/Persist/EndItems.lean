import Mathlib.Data.List.Dedup
import DotaCollector.Library.Keyed
import DotaCollector.Persist.Players

/-!
# The items at the end of a match

The metadata of a replay holds snapshots of the players' inventories. The last one of each player
fills the empty item columns of `match_players`. The parser keeps it in a map and goes through the
map in an order of its own.
-/

namespace DotaCollector
namespace Persist
namespace EndItems

open Nullable

/-- A snapshot of an inventory; `slot` is the slot of its player, from 0 to 9. -/
structure MetaInventory where
  slot : Int
  time : Int
  itemIds : List Int := []
  backpackItemIds : List Int := []
  neutralItemId : Int := 0
  neutralEnhancementId : Int := 0
  flags : Nat := 0
  deriving DecidableEq, Repr

def invHasScepter : Nat := 1
def invHasShard : Nat := 2
def itemMoonShard : Int := 247

def pgPlayerSlot (slot : Int) : Option Nat :=
  if 0 ≤ slot ∧ slot ≤ 4 then some slot.toNat
  else if 5 ≤ slot ∧ slot ≤ 9 then some (128 + slot.toNat - 5)
  else none

abbrev Best := Int → Option MetaInventory

/-- One turn of the loop of `lastInventoryBySlot`. -/
def keepLast (best : Best) (row : MetaInventory) : Best :=
  if (best row.slot).all (·.time ≤ row.time) then Function.update best row.slot (some row)
  else best

/-- The map of `lastInventoryBySlot`. -/
def lastInventoryBySlot (rows : List MetaInventory) : Best := rows.foldl keepLast fun _ => none

/-- The values of the map in an order in which `range` may give them. -/
structure RangeOf (best : Best) (order : List MetaInventory) : Prop where
  distinct : (order.map MetaInventory.slot).Nodup
  mem_iff : ∀ row, row ∈ order ↔ best row.slot = some row

def itemAt (ids : List Int) (place : Nat) : Option Value :=
  (ids[place]?.filter (0 < ·)).map .int

def nullPositive (id : Int) : Option Value := if id ≤ 0 then none else some (.int id)

def flagSet (flags bit : Nat) : Bool := flags &&& bit != 0

def heldMoonShard (row : MetaInventory) : Bool :=
  row.itemIds.contains itemMoonShard || row.backpackItemIds.contains itemMoonShard

/-- The parameter for a column. -/
def MetaInventory.cell (snap : MetaInventory) : PlayerCol → Option Value
  | .item0 => itemAt snap.itemIds 0
  | .item1 => itemAt snap.itemIds 1
  | .item2 => itemAt snap.itemIds 2
  | .item3 => itemAt snap.itemIds 3
  | .item4 => itemAt snap.itemIds 4
  | .item5 => itemAt snap.itemIds 5
  | .backpack0 => itemAt snap.backpackItemIds 0
  | .backpack1 => itemAt snap.backpackItemIds 1
  | .backpack2 => itemAt snap.backpackItemIds 2
  | .itemNeutral => nullPositive snap.neutralItemId
  | .itemNeutral2 => nullPositive snap.neutralEnhancementId
  | .aghanimsScepter => if flagSet snap.flags invHasScepter then some (.int 1) else none
  | .aghanimsShard => if flagSet snap.flags invHasShard then some (.int 1) else none
  | .moonshard => if heldMoonShard snap then some (.int 1) else none
  | _ => none

/-- The `SET` of `publishEndItems`, but for the time of the update. -/
def fillItems (snap : MetaInventory) (row : PlayerRow) : PlayerRow :=
  fun col => coalesce (row col) (snap.cell col)

/-- The rows of the match in `match_players`. -/
abbrev Players := Nat → Option PlayerRow

/-- One turn of the loop of `publishEndItems`. -/
def publishSnapshot (players : Players) (snap : MetaInventory) : Players :=
  match pgPlayerSlot snap.slot with
  | none => players
  | some slot => Function.update players slot ((players slot).map (fillItems snap))

/-- `publishEndItems`, with the order in which the map is gone through. -/
def publishEndItems (order : List MetaInventory) (players : Players) : Players :=
  order.foldl publishSnapshot players

/-! ## The last snapshot of a slot -/

theorem cells_keepLast : Keyed.Cells keepLast (fun best => best) MetaInventory.slot
    fun last row => if last.all (·.time ≤ row.time) then some row else last where
  own best row := by
    unfold keepLast
    split_ifs
    · exact Function.update_self ..
    · rfl
  other best row place ne := by
    unfold keepLast
    split_ifs
    · exact Function.update_of_ne ne ..
    · rfl

/-- The snapshot is the last one of its slot: none of the slot is later in time, and none of the
slot behind it in the list is as late. -/
def IsLast (rows : List MetaInventory) (snap : MetaInventory) : Prop :=
  ∃ front back, rows = front ++ snap :: back ∧
    (∀ row ∈ front, row.slot = snap.slot → row.time ≤ snap.time) ∧
    ∀ row ∈ back, row.slot = snap.slot → row.time < snap.time

theorem lastInventoryBySlot_snoc (rows : List MetaInventory) (row : MetaInventory) :
    lastInventoryBySlot (rows ++ [row]) = keepLast (lastInventoryBySlot rows) row := by
  rw [lastInventoryBySlot, List.foldl_concat]
  rfl

theorem IsLast.time_le {rows : List MetaInventory} {snap row : MetaInventory}
    (isLast : IsLast rows snap) (member : row ∈ rows) (same : row.slot = snap.slot) :
    row.time ≤ snap.time := by
  obtain ⟨front, back, rfl, before, behind⟩ := isLast
  rcases List.mem_append.mp member with early | late
  · exact before row early same
  · rcases List.mem_cons.mp late with rfl | late
    · exact le_rfl
    · exact (behind row late same).le

theorem IsLast.snoc {rows : List MetaInventory} {snap row : MetaInventory}
    (isLast : IsLast rows snap) (passed : row.slot = snap.slot → row.time < snap.time) :
    IsLast (rows ++ [row]) snap := by
  obtain ⟨front, back, rfl, before, behind⟩ := isLast
  refine ⟨front, back ++ [row], by rw [List.append_assoc, List.cons_append], before, ?_⟩
  intro other member same
  rcases List.mem_append.mp member with early | now
  · exact behind other early same
  · rw [List.mem_singleton.mp now] at same ⊢
    exact passed same

theorem isLast_concat {rows : List MetaInventory} {row : MetaInventory}
    (before : ∀ other ∈ rows, other.slot = row.slot → other.time ≤ row.time) :
    IsLast (rows ++ [row]) row :=
  ⟨rows, [], rfl, before, fun _ member => nomatch member⟩

/-- What the map holds under a slot, by the snapshots gone through. -/
theorem lastInventoryBySlot_spec (rows : List MetaInventory) (slot : Int) :
    match lastInventoryBySlot rows slot with
    | none => ∀ row ∈ rows, row.slot ≠ slot
    | some snap => snap.slot = slot ∧ IsLast rows snap := by
  induction rows using List.reverseRecOn with
  | nil => simp [lastInventoryBySlot]
  | append_singleton rows row ih =>
      rw [lastInventoryBySlot_snoc]
      rcases eq_or_ne slot row.slot with rfl | ne
      · rw [cells_keepLast.own]
        cases found : lastInventoryBySlot rows row.slot with
        | none =>
            rw [found] at ih
            refine ⟨rfl, isLast_concat fun other member same => ?_⟩
            exact absurd same (ih other member)
        | some snap =>
            rw [found] at ih
            obtain ⟨same, isLast⟩ := ih
            rw [Option.all_some]
            split_ifs with later
            · refine ⟨rfl, isLast_concat fun other member own => ?_⟩
              exact (isLast.time_le member (own.trans same.symm)).trans (of_decide_eq_true later)
            · exact ⟨same, isLast.snoc fun _ => lt_of_not_ge fun le => later (decide_eq_true le)⟩
      · rw [cells_keepLast.other _ _ _ ne]
        cases found : lastInventoryBySlot rows slot with
        | none =>
            rw [found] at ih
            intro other member
            rcases List.mem_append.mp member with early | now
            · exact ih other early
            · rw [List.mem_singleton.mp now]
              exact ne.symm
        | some snap =>
            rw [found] at ih
            exact ⟨ih.1, ih.2.snoc fun same => absurd (same.trans ih.1).symm ne⟩

theorem slot_of_lastInventoryBySlot {rows : List MetaInventory} {slot : Int} {snap : MetaInventory}
    (held : lastInventoryBySlot rows slot = some snap) : snap.slot = slot := by
  have spec := lastInventoryBySlot_spec rows slot
  rw [held] at spec
  exact spec.1

/-- There is an order to go through the map. -/
theorem rangeOf_dedup (rows : List MetaInventory) : RangeOf (lastInventoryBySlot rows)
    ((rows.map MetaInventory.slot).dedup.filterMap (lastInventoryBySlot rows)) where
  distinct := by
    refine List.Nodup.map_on ?_ ((List.nodup_dedup _).filterMap ?_)
    · intro snap member other there same
      obtain ⟨slot, -, held⟩ := List.mem_filterMap.mp member
      obtain ⟨place, -, found⟩ := List.mem_filterMap.mp there
      rw [slot_of_lastInventoryBySlot held, slot_of_lastInventoryBySlot found] at same
      rw [same, found] at held
      exact (Option.some.inj held).symm
    · intro slot place snap held found
      exact (slot_of_lastInventoryBySlot held).symm.trans (slot_of_lastInventoryBySlot found)
  mem_iff row := by
    rw [List.mem_filterMap]
    constructor
    · rintro ⟨slot, -, held⟩
      rwa [slot_of_lastInventoryBySlot held]
    · intro held
      have spec := lastInventoryBySlot_spec rows row.slot
      rw [held] at spec
      obtain ⟨front, back, split, -⟩ := spec.2
      refine ⟨row.slot, List.mem_dedup.mpr (List.mem_map_of_mem ?_), held⟩
      rw [split]
      exact List.mem_append_right _ List.mem_cons_self

/-! ## The columns -/

theorem cells_publishSnapshot : Keyed.Cells publishSnapshot
    (fun players place => place.bind players) (fun snap => pgPlayerSlot snap.slot)
    fun row snap => row.map (fillItems snap) where
  own players snap := by
    unfold publishSnapshot
    cases pgPlayerSlot snap.slot with
    | none => rfl
    | some slot => exact Function.update_self ..
  other players snap place ne := by
    unfold publishSnapshot
    cases found : pgPlayerSlot snap.slot with
    | none => rfl
    | some slot =>
        cases place with
        | none => rfl
        | some other =>
            refine Function.update_of_ne ?_ ..
            rintro rfl
            exact ne found.symm

/-- Two players have different rows. -/
theorem pgPlayerSlot_inj {slot other : Int} {place : Nat} (here : pgPlayerSlot slot = some place)
    (there : pgPlayerSlot other = some place) : slot = other := by
  unfold pgPlayerSlot at here there
  grind

theorem fillItems_idem (snap : MetaInventory) (row : PlayerRow) :
    fillItems snap (fillItems snap row) = fillItems snap row := by
  funext col
  simp only [fillItems]
  cases row col with
  | some value => rfl
  | none => rw [coalesce_none]; cases snap.cell col <;> rfl

variable {best : Best} {order : List MetaInventory} {players : Players} {place : Nat}

/-- The snapshots of a map which concern a row: that of its player, if there is one. -/
theorem RangeOf.filter_eq (range : RangeOf best order) {slot : Int}
    (own : pgPlayerSlot slot = some place)
    (keyed : ∀ snap, best slot = some snap → snap.slot = slot) :
    order.filter (fun snap => pgPlayerSlot snap.slot = some place) = (best slot).toList := by
  have mem_iff (snap : MetaInventory) :
      snap ∈ order.filter (fun snap => pgPlayerSlot snap.slot = some place) ↔
        best slot = some snap := by
    rw [List.mem_filter, range.mem_iff, decide_eq_true_eq]
    constructor
    · rintro ⟨held, same⟩
      rwa [pgPlayerSlot_inj own same]
    · intro held
      rw [keyed snap held]
      exact ⟨held, own⟩
  cases held : best slot with
  | none =>
      rw [Option.toList_none, List.eq_nil_iff_forall_not_mem]
      intro snap member
      exact absurd (held.symm.trans ((mem_iff snap).mp member)) nofun
  | some snap =>
      rw [Option.toList_some, ← List.perm_singleton, List.perm_ext_iff_of_nodup]
      · intro other
        rw [mem_iff, held, List.mem_singleton, Option.some.injEq, eq_comm]
      · exact (List.Nodup.of_map _ range.distinct).filter _
      · exact List.nodup_singleton snap

theorem publishEndItems_eq (order : List MetaInventory) (players : Players) (place : Nat) :
    publishEndItems order players place =
      (order.filter fun snap => pgPlayerSlot snap.slot = some place).foldl
        (fun row snap => row.map (fillItems snap)) (players place) :=
  cells_publishSnapshot.look_foldl players order (some place)

/-- In whatever order the map is gone through, the row of each player is filled from the last
snapshot of that player and from no other one: a column which had a value keeps it. Publishing the
same snapshots once more changes none of these columns. -/
theorem publishEndItems_last {rows order again : List MetaInventory}
    (range : RangeOf (lastInventoryBySlot rows) order)
    (rangeAgain : RangeOf (lastInventoryBySlot rows) again) (players : Players) (place : Nat) :
    let after := publishEndItems order players
    ((∀ row ∈ rows, pgPlayerSlot row.slot ≠ some place) ∧ after place = players place ∨
      ∃ snap, IsLast rows snap ∧ pgPlayerSlot snap.slot = some place ∧
        after place = (players place).map (fillItems snap)) ∧
      publishEndItems again after place = after place := by
  intro after
  by_cases owned : ∃ slot, pgPlayerSlot slot = some place
  · obtain ⟨slot, own⟩ := owned
    have spec := lastInventoryBySlot_spec rows slot
    have keyed (snap : MetaInventory) (held : lastInventoryBySlot rows slot = some snap) :
        snap.slot = slot := slot_of_lastInventoryBySlot held
    have first : after place = _ := publishEndItems_eq order players place
    rw [publishEndItems_eq, rangeAgain.filter_eq own keyed]
    rw [range.filter_eq own keyed] at first
    cases held : lastInventoryBySlot rows slot with
    | none =>
        rw [held] at spec first
        refine ⟨.inl ⟨fun row member same => ?_, first⟩, rfl⟩
        exact spec row member (pgPlayerSlot_inj same own)
    | some snap =>
        rw [held] at spec first
        refine ⟨.inr ⟨snap, spec.2, by rw [spec.1, own], first⟩, ?_⟩
        rw [first]
        cases players place with
        | none => rfl
        | some row => exact congrArg some (fillItems_idem snap row)
  · push Not at owned
    have skips (order : List MetaInventory) :
        order.filter (fun snap => pgPlayerSlot snap.slot = some place) = [] :=
      List.filter_eq_nil_iff.mpr fun snap _ same => owned snap.slot (of_decide_eq_true same)
    refine ⟨.inl ⟨fun row _ => owned row.slot, ?_⟩, ?_⟩
    · exact (publishEndItems_eq order players place).trans (by rw [skips]; rfl)
    · rw [publishEndItems_eq, skips]
      rfl

/-- Two snapshots of one player and one of another. -/
def threeSnapshots : List MetaInventory :=
  [{ slot := 5, time := 60, itemIds := [1] }, { slot := 5, time := 90, itemIds := [1, 2] },
    { slot := 0, time := 90, itemIds := [3] }]

/-- A row with an item in its first place already. -/
def firstItem : PlayerRow := fun col => if col = .item0 then some (.int 9) else none

/-- The first item of the row stays, and the second is that of the later snapshot. -/
theorem publishEndItems_last_threeSnapshots :
    let order := (threeSnapshots.map MetaInventory.slot).dedup.filterMap
      (lastInventoryBySlot threeSnapshots)
    let after := publishEndItems order fun _ => some firstItem
    (((∀ row ∈ threeSnapshots, pgPlayerSlot row.slot ≠ some 128) ∧ after 128 = some firstItem ∨
        ∃ snap, IsLast threeSnapshots snap ∧ pgPlayerSlot snap.slot = some 128 ∧
          after 128 = some (fillItems snap firstItem)) ∧
      publishEndItems order after 128 = after 128) ∧
      ∃ row ∈ after 128, row .item0 = some (.int 9) ∧ row .item1 = some (.int 2) :=
  ⟨publishEndItems_last (rangeOf_dedup threeSnapshots) (rangeOf_dedup threeSnapshots) _ 128,
    _, rfl, rfl, rfl⟩

end EndItems
end Persist
end DotaCollector
