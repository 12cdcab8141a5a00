import DotaCollector.Parser.HeroKey
import Mathlib.Logic.Function.Basic

/-!
# The wards of a parsed replay

The session watches the wards by the index of their entity. A ward which is created or entered
gives a row where none is alive under its index, a living one which dies, leaves or is deleted
another. The watch is replaced whenever the entity is created or entered once more.
-/

namespace DotaCollector
namespace Parse
namespace Wards

open HeroKey

variable {Scalar : Type}

/-! ## Entities -/

/-- The flags of an entity operation. -/
structure EntityOp where
  created : Bool := false
  updated : Bool := false
  deleted : Bool := false
  entered : Bool := false
  left : Bool := false

/-- What is read of the entity of a ward: its properties, and its position in cells. -/
structure Entity (Scalar : Type) where
  index : Int32
  className : Name
  x : Scalar
  y : Scalar
  z : Scalar
  owner : UInt64
  lifeState : Int32

structure Hero where
  heroNPC : Name
  heroClass : Name
  slot : Int

/-- What is read of the session: the clock, the entities by their class, and the heroes. -/
structure Around where
  clock : Int
  tick : Nat
  accountForSlot : Int → Nat
  findEntity : Int → Option Name
  nameToSlot : Name → Option Int
  heroKeyToSlot : Name → Option Int
  players : List (Option Hero)

/-- A call for a ward. -/
structure Call (Scalar : Type) where
  around : Around
  entity : Entity Scalar
  op : EntityOp

/-- The columns of a row which all the tables of a replay have, without those of the match. -/
structure Header where
  time : Int
  tick : Nat
  slot : Int
  accountId : Nat
deriving DecidableEq

structure Ward (Scalar : Type) where
  header : Header
  kind : String
  isLeft : UInt8
  x : Scalar
  y : Scalar
  z : Scalar
  ehandle : UInt32
deriving DecidableEq

structure WardWatch (Scalar : Type) where
  kind : String
  slot : Int
  x : Scalar
  y : Scalar
  z : Scalar
  alive : Bool

/-! ## The functions -/

def handleIndex (h : UInt64) : Int :=
  if h = 0 ∨ h = 0xFFFFFFFFFFFFFFFF then -1 else (h &&& 0x3FFF).toNat

/-- The player is shown by the unit or by the class of its hero. -/
def Hero.hasKey (key : Name) (hero : Hero) : Bool :=
  (hero.heroNPC ≠ [] && heroKey hero.heroNPC = key) ||
    (hero.heroClass ≠ [] && heroKey hero.heroClass = key)

def slotForName (around : Around) (name : Name) : Int :=
  if name = [] then -1
  else
    match around.nameToSlot name with
    | some slot => slot
    | none =>
        let key := heroKey name
        if key = [] then -1
        else
          match around.heroKeyToSlot key with
          | some slot => slot
          | none => (((around.players.filterMap id).find? (Hero.hasKey key)).map Hero.slot).getD (-1)

def header (around : Around) (slot : Int) : Header where
  time := around.clock
  tick := around.tick
  slot := slot
  accountId := around.accountForSlot slot

namespace Call

def kind (call : Call Scalar) : String :=
  if contains (toLower call.entity.className) "sentry" then "sen" else "obs"

/-- The slot of the hero that owns the ward. -/
def slot (call : Call Scalar) : Int :=
  let owner := handleIndex call.entity.owner
  if owner < 0 then -1
  else
    match call.around.findEntity owner with
    | none => -1
    | some hero =>
        let slot := slotForName call.around (npcFromClass hero)
        if slot < 0 then slotForName call.around hero else slot

/-- The row of a placed ward. -/
def placed (call : Call Scalar) : Ward Scalar where
  header := header call.around call.slot
  kind := call.kind
  isLeft := 0
  x := call.entity.x
  y := call.entity.y
  z := call.entity.z
  ehandle := call.entity.index.toUInt32

/-- The row of a ward which has left. -/
def gone (call : Call Scalar) (existing : WardWatch Scalar) : Ward Scalar where
  header := header call.around existing.slot
  kind := existing.kind
  isLeft := 1
  x := existing.x
  y := existing.y
  z := existing.z
  ehandle := call.entity.index.toUInt32

def watch (call : Call Scalar) : WardWatch Scalar where
  kind := call.kind
  slot := call.slot
  x := call.entity.x
  y := call.entity.y
  z := call.entity.z
  alive := call.entity.lifeState = 0

/-- Created, or entered. -/
def enters (call : Call Scalar) : Bool := call.op.created || call.op.entered

/-- Any other call for a ward which is dead, deleted or out of sight. -/
def leaves (call : Call Scalar) : Bool :=
  call.entity.lifeState ≠ 0 || call.op.deleted || call.op.left

end Call

/-- The ward which is watched is alive. -/
def living (existing : Option (WardWatch Scalar)) : Bool := existing.any WardWatch.alive

/-- The rows of a call, and what is watched under the index afterwards. -/
def track (call : Call Scalar) (existing : Option (WardWatch Scalar)) :
    List (Ward Scalar) × Option (WardWatch Scalar) :=
  if call.enters then (if !living existing then [call.placed] else [], some call.watch)
  else
    let remove := if call.op.deleted then fun _ => none else id
    if living existing && call.leaves then
      ((existing.map call.gone).toList, remove (existing.map fun ward => { ward with alive := false }))
    else ([], remove existing)

/-- The watched wards by their index, and the rows so far. -/
structure Watched (Scalar : Type) where
  wards : Int32 → Option (WardWatch Scalar) := fun _ => none
  out : List (Ward Scalar) := []

def trackWard (session : Watched Scalar) (call : Call Scalar) : Watched Scalar :=
  let (rows, existing) := track call (session.wards call.entity.index)
  { wards := Function.update session.wards call.entity.index existing
    out := session.out ++ rows }

/-- The rows of a replay for one index. -/
def rowsOf (index : Int32) (calls : List (Call Scalar)) : List (Ward Scalar) :=
  (calls.foldl trackWard {}).out.filter (·.ehandle = index.toUInt32)

/-! ## Properties -/

/-- The owner and the position of two rows. -/
def SameWard (placed gone : Ward Scalar) : Prop :=
  gone.header.slot = placed.header.slot ∧ gone.x = placed.x ∧ gone.y = placed.y ∧ gone.z = placed.z

/-- Rows which begin with a placed ward, or behind one, and end each ward before the next. -/
def AlternatesFrom : Option (Ward Scalar) → List (Ward Scalar) → Prop
  | _, [] => True
  | none, row :: rows => row.isLeft = 0 ∧ AlternatesFrom (some row) rows
  | some placed, row :: rows => row.isLeft = 1 ∧ SameWard placed row ∧ AlternatesFrom none rows

def Alternates (rows : List (Ward Scalar)) : Prop := AlternatesFrom none rows

/-- The owner and the position of a ward in two calls. -/
def SamePlace (first last : Call Scalar) : Prop :=
  last.slot = first.slot ∧ last.entity.x = first.entity.x ∧ last.entity.y = first.entity.y ∧
    last.entity.z = first.entity.z

/-- The calls of one index, where the ward stays between its `first` and its `last` entry or there
is none: no entry follows one of a dead ward, and at its end a stay is where it has begun. -/
def RegularFrom : Option (Call Scalar × Call Scalar) → List (Call Scalar) → Prop
  | _, [] => True
  | stay, call :: calls =>
      if call.enters then
        if call.entity.lifeState = 0 then
          RegularFrom (some (((stay.map Prod.fst).getD call), call)) calls
        else ∀ later ∈ calls, later.enters = false
      else if call.leaves then
        (∀ first last, stay = some (first, last) → SamePlace first last) ∧ RegularFrom none calls
      else RegularFrom stay calls

def Regular (calls : List (Call Scalar)) : Prop := RegularFrom none calls

/-! ## One index -/

/-- The rows of the calls of one index. -/
def tracked : Option (WardWatch Scalar) → List (Call Scalar) → List (Ward Scalar)
  | _, [] => []
  | existing, call :: calls => (track call existing).1 ++ tracked (track call existing).2 calls

variable {existing : Option (WardWatch Scalar)} {call : Call Scalar} {calls : List (Call Scalar)}

/-- An entry of an index with no living ward. -/
theorem track_enter (enters : call.enters = true) (dead : living existing = false) :
    track call existing = ([call.placed], some call.watch) := by
  rw [track, if_pos enters, dead]
  rfl

/-- An entry of a living ward gives no row. -/
theorem track_enter_living (enters : call.enters = true) (alive : living existing = true) :
    track call existing = ([], some call.watch) := by
  rw [track, if_pos enters, alive]
  rfl

/-- The end of a living ward. -/
theorem track_leave (outside : call.enters = false) (leaves : call.leaves = true)
    {ward : WardWatch Scalar} (alive : ward.alive = true) :
    (track call (some ward)).1 = [call.gone ward] ∧
      living (track call (some ward)).2 = false := by
  have both : (living (some ward) && call.leaves) = true := by
    rw [leaves]
    exact congrArg (· && true) alive
  rw [track, if_neg (Bool.eq_false_iff.mp outside), if_pos both]
  cases call.op.deleted <;> exact ⟨rfl, rfl⟩

/-- What is neither an entry nor the end of a living ward gives no row. -/
theorem track_rest (existing : Option (WardWatch Scalar)) (outside : call.enters = false)
    (idle : (living existing && call.leaves) = false) :
    (track call existing).1 = [] ∧
      ((track call existing).2 = existing ∨ (track call existing).2 = none ∧ call.leaves = true) := by
  rw [track, if_neg (Bool.eq_false_iff.mp outside), if_neg (Bool.eq_false_iff.mp idle)]
  refine ⟨rfl, ?_⟩
  cases deleted : call.op.deleted with
  | false => exact .inl rfl
  | true => exact .inr ⟨rfl, by simp [Call.leaves, deleted]⟩

/-- Behind a placed ward which is not watched as a living one there may be no more entry. -/
theorem alternates_stuck {row : Ward Scalar} (dead : living existing = false) :
    AlternatesFrom (some row) (tracked existing calls) ↔ ∀ call ∈ calls, call.enters = false := by
  induction calls generalizing existing with
  | nil => exact iff_of_true trivial fun _ listed => nomatch listed
  | cons call calls ih =>
      rw [tracked, List.forall_mem_cons]
      cases outside : call.enters with
      | true =>
          rw [track_enter outside dead]
          exact iff_of_false (fun placed => nomatch placed.1) fun none => nomatch none.1
      | false =>
          obtain ⟨silent, next⟩ := track_rest existing outside (by rw [dead]; rfl)
          have still : living (track call existing).2 = false := by
            obtain same | ⟨gone, -⟩ := next
            · rw [same, dead]
            · rw [gone]; rfl
          rw [silent, List.nil_append, ih still]
          exact (and_iff_right rfl).symm

/-- The rows of one index alternate just when its calls are regular. -/
theorem alternates_tracked_iff (calls : List (Call Scalar)) :
    (∀ existing, living existing = false →
      (AlternatesFrom none (tracked existing calls) ↔ RegularFrom none calls)) ∧
    ∀ first last : Call Scalar, last.entity.lifeState = 0 →
      (AlternatesFrom (some first.placed) (tracked (some last.watch) calls) ↔
        RegularFrom (some (first, last)) calls) := by
  induction calls with
  | nil => exact ⟨fun _ _ => Iff.rfl, fun _ _ _ => Iff.rfl⟩
  | cons call calls ih =>
      obtain ⟨outsideIh, insideIh⟩ := ih
      -- behind an entry: inside the stay, or behind the entry of a dead ward
      have entered (first : Call Scalar) :
          AlternatesFrom (some first.placed) (tracked (some call.watch) calls) ↔
            if call.entity.lifeState = 0 then RegularFrom (some (first, call)) calls
            else ∀ later ∈ calls, later.enters = false := by
        split_ifs with life
        · exact insideIh first call life
        · exact alternates_stuck (decide_eq_false life)
      constructor
      · intro existing dead
        rw [tracked, RegularFrom]
        cases entry : call.enters with
        | true =>
            rw [track_enter entry dead, if_pos rfl, List.singleton_append, AlternatesFrom, entered]
            exact and_iff_right rfl
        | false =>
            obtain ⟨silent, next⟩ := track_rest existing entry (by rw [dead]; rfl)
            have still : living (track call existing).2 = false := by
              obtain same | ⟨gone, -⟩ := next
              · rw [same, dead]
              · rw [gone]; rfl
            rw [silent, List.nil_append, outsideIh _ still, if_neg Bool.false_ne_true]
            split_ifs
            · exact (and_iff_right fun _ _ none => nomatch none).symm
            · rfl
      · intro first last life
        have alive : living (some last.watch) = true := decide_eq_true life
        rw [tracked, RegularFrom]
        cases entry : call.enters with
        | true =>
            rw [track_enter_living entry alive, if_pos rfl]
            exact entered first
        | false =>
            rw [if_neg Bool.false_ne_true]
            cases ending : call.leaves with
            | true =>
                obtain ⟨row, dead⟩ := track_leave entry ending alive
                rw [row, List.singleton_append, AlternatesFrom, outsideIh _ dead, if_pos rfl]
                refine (and_iff_right rfl).trans (and_congr_left' ?_)
                constructor
                · rintro same _ _ ⟨⟩
                  exact same
                · exact fun same => same first last rfl
            | false =>
                obtain ⟨silent, same | ⟨-, leaving⟩⟩ := track_rest (some last.watch)
                  entry (by rw [ending, Bool.and_false])
                · rw [silent, same, List.nil_append, if_neg Bool.false_ne_true]
                  exact insideIh first last life
                · rw [ending] at leaving
                  cases leaving

/-! ## All indices -/

theorem ehandle_track {row : Ward Scalar} (listed : row ∈ (track call existing).1) :
    row.ehandle = call.entity.index.toUInt32 := by
  cases entry : call.enters with
  | true =>
      cases alive : living existing with
      | true =>
          rw [track_enter_living entry alive] at listed
          cases listed
      | false =>
          rw [track_enter entry alive] at listed
          rw [List.mem_singleton.mp listed]
          rfl
  | false =>
      cases ending : living existing && call.leaves with
      | true =>
          rw [track, if_neg (Bool.eq_false_iff.mp entry), if_pos ending] at listed
          obtain ⟨ward, -, made⟩ := Option.map_eq_some_iff.mp (Option.mem_toList.mp listed)
          rw [← made]
          rfl
      | false =>
          rw [(track_rest existing entry ending).1] at listed
          cases listed

/-- The calls of the other indices do not count. -/
theorem filter_run (index : Int32) (session : Watched Scalar) (calls : List (Call Scalar)) :
    (calls.foldl trackWard session).out.filter (·.ehandle = index.toUInt32) =
      session.out.filter (·.ehandle = index.toUInt32) ++
        tracked (session.wards index) (calls.filter (·.entity.index = index)) := by
  induction calls generalizing session with
  | nil => exact (List.append_nil _).symm
  | cons call calls ih =>
      have handles : ∀ row ∈ (track call (session.wards call.entity.index)).1,
          row.ehandle = call.entity.index.toUInt32 := fun row => ehandle_track
      rw [List.foldl_cons, ih, trackWard]
      dsimp only
      rw [List.filter_append, List.append_assoc]
      by_cases same : call.entity.index = index
      · subst same
        rw [List.filter_cons_of_pos (by simp), Function.update_self, tracked,
          List.filter_eq_self.mpr fun row listed => decide_eq_true (handles row listed)]
      · have others : ∀ row ∈ (track call (session.wards call.entity.index)).1,
            ¬ decide (row.ehandle = index.toUInt32) = true := by
          intro row listed equal
          rw [decide_eq_true_eq, handles row listed] at equal
          exact same (congrArg UInt32.toInt32 equal)
        rw [List.filter_cons_of_neg (by simpa using same), Function.update_of_ne (Ne.symm same),
          List.filter_eq_nil_iff.mpr others, List.nil_append]

/-- The rows of every index alternate, and each ward ends where it was placed, just when the calls
of every index are regular. -/
theorem rows_alternate_iff (calls : List (Call Scalar)) :
    (∀ index, Alternates (rowsOf index calls)) ↔
      ∀ index, Regular (calls.filter (·.entity.index = index)) := by
  refine forall_congr' fun index => ?_
  rw [rowsOf, filter_run, List.filter_nil, List.nil_append]
  exact (alternates_tracked_iff _).1 none rfl

/-- A call for an observer ward of nobody, under index 7. -/
def observer (x : Int) (lifeState : Int32) (op : EntityOp) : Call Int where
  around :=
    { clock := 0, tick := 0, accountForSlot := fun _ => 0, findEntity := fun _ => none
      nameToSlot := fun _ => none, heroKeyToSlot := fun _ => none, players := [] }
  entity :=
    { index := 7, className := "CDOTA_NPC_Observer_Ward".toList, x, y := 80, z := 0, owner := 0
      lifeState }
  op := op

/-- A dead ward is created before a living one, and a living ward is entered elsewhere: one is placed
twice, the other one leaves from where it was not placed. -/
theorem dead_and_moved_wards :
    (¬ Alternates (rowsOf 7 [observer 90 1 { created := true }, observer 90 0 { created := true }])) ∧
      ¬ Alternates (rowsOf 7 [observer 90 0 { created := true }, observer 95 0 { entered := true },
        observer 95 0 { deleted := true, left := true }]) := by
  constructor
  · have rows : rowsOf 7 [observer 90 1 { created := true }, observer 90 0 { created := true }] =
        [(observer 90 1 { created := true }).placed, (observer 90 0 { created := true }).placed] := by
      decide +kernel
    rw [rows]
    intro alternates
    exact absurd alternates.2.1 (by decide)
  · have rows : rowsOf 7 [observer 90 0 { created := true }, observer 95 0 { entered := true },
        observer 95 0 { deleted := true, left := true }] =
        [(observer 90 0 { created := true }).placed,
          (observer 95 0 { deleted := true }).gone (observer 95 0 { entered := true }).watch] := by
      decide +kernel
    rw [rows]
    intro alternates
    exact absurd alternates.2.2.1.2.1 (by decide)

end Wards
end Parse
end DotaCollector
