import Mathlib.Logic.Function.Basic

/-!
# Keyed tables and their statements

A table with a unique key is a partial function from keys to rows. Each statement of the small
vocabulary below treats the rows independently of one another and deletes none, so a statement
is described by the rows it may insert and by a relation between a row before and after it.
Invariants of rows, and relations over whole runs, follow from that description.
-/

/-- A table with a unique key. -/
abbrev Table (Key Row : Type*) := Key → Option Row

namespace Table

variable {Key Row : Type*}

/-- The table without rows. -/
def empty : Table Key Row := fun _ => none

/-- `UPDATE … SET … WHERE chosen`. -/
def updateWhere (table : Table Key Row) (chosen : Key → Row → Bool) (set : Row → Row) :
    Table Key Row := fun key =>
  (table key).map fun row => if chosen key row then set row else row

section Keyed

variable [DecidableEq Key]

/-- `UPDATE … SET … WHERE key = …`. -/
def update (table : Table Key Row) (key : Key) (set : Row → Row) : Table Key Row :=
  Function.update table key ((table key).map set)

/-- `INSERT … ON CONFLICT (key) DO UPDATE SET …`. -/
def upsert (table : Table Key Row) (key : Key) (fresh : Row) (merge : Row → Row) :
    Table Key Row :=
  Function.update table key (some (((table key).map merge).getD fresh))

/-- `INSERT … ON CONFLICT (key) DO NOTHING`. -/
def insertNew (table : Table Key Row) (key : Key) (fresh : Row) : Table Key Row :=
  table.upsert key fresh id

@[simp]
theorem update_self (table : Table Key Row) (key : Key) (set : Row → Row) :
    table.update key set key = (table key).map set := Function.update_self ..

@[simp]
theorem update_of_ne {key other : Key} (ne : other ≠ key) (table : Table Key Row)
    (set : Row → Row) : table.update key set other = table other :=
  Function.update_of_ne ne ..

@[simp]
theorem upsert_self (table : Table Key Row) (key : Key) (fresh : Row) (merge : Row → Row) :
    table.upsert key fresh merge key = some (((table key).map merge).getD fresh) :=
  Function.update_self ..

@[simp]
theorem upsert_of_ne {key other : Key} (ne : other ≠ key) (table : Table Key Row) (fresh : Row)
    (merge : Row → Row) : table.upsert key fresh merge other = table other :=
  Function.update_of_ne ne ..

@[simp]
theorem insertNew_self (table : Table Key Row) (key : Key) (fresh : Row) :
    table.insertNew key fresh key = some ((table key).getD fresh) := by
  simp [insertNew]

@[simp]
theorem isSome_update (table : Table Key Row) (key other : Key) (set : Row → Row) :
    (table.update key set other).isSome = (table other).isSome := by
  by_cases same : other = key
  · subst same
    simp
  · simp [same]

theorem isSome_upsert_of_isSome {table : Table Key Row} {other : Key}
    (present : (table other).isSome) (key : Key) (fresh : Row) (merge : Row → Row) :
    (table.upsert key fresh merge other).isSome := by
  by_cases same : other = key
  · subst same
    simp
  · simpa [same] using present

end Keyed

@[simp]
theorem isSome_updateWhere (table : Table Key Row) (chosen : Key → Row → Bool)
    (set : Row → Row) (key : Key) :
    (table.updateWhere chosen set key).isSome = (table key).isSome := by
  simp [updateWhere]

/-! ## Reading, then writing -/

/-- A loop which updates each chosen row from what an earlier query read of it, when nothing
came between the query and the loop. -/
theorem foldl_update_eq_updateWhere [DecidableEq Key] {Data : Type*} (table : Table Key Row)
    {keys : List Key} (distinct : keys.Nodup) (chosen : Row → Bool) (read : Row → Data)
    (set : Data → Row → Row) :
    (keys.filterMap fun key => ((table key).filter chosen).map fun row => (key, read row)).foldl
        (fun (current : Table Key Row) data => current.update data.1 (set data.2)) table =
      table.updateWhere (fun key row => key ∈ keys && chosen row)
        (fun row => set (read row) row) := by
  -- The loop variable agrees with the table read on every key still to come.
  suffices loop : ∀ current : Table Key Row, (∀ key ∈ keys, current key = table key) →
      ∀ key, (keys.filterMap fun key =>
          ((table key).filter chosen).map fun row => (key, read row)).foldl
          (fun (current : Table Key Row) data => current.update data.1 (set data.2)) current key =
        (current key).map fun row =>
          if key ∈ keys && chosen row then set (read row) row else row from
    funext fun key => loop table (fun _ _ => rfl) key
  induction keys with
  | nil => simp
  | cons first keys ih =>
      obtain ⟨absent, distinct⟩ := List.nodup_cons.mp distinct
      intro current agrees key
      have first_eq := agrees first (by simp)
      cases selected : ((table first).filter chosen) with
      | none =>
          rw [List.filterMap_cons_none (by simp [selected])]
          rw [ih distinct current (fun other member => agrees other (by simp [member])) key]
          by_cases same : key = first
          · subst same
            rw [first_eq]
            cases found : table key with
            | none => rfl
            | some row =>
                have skipped : chosen row = false := by simpa [found] using selected
                simp [skipped]
          · simp [same]
      | some row =>
          obtain ⟨found, accepted⟩ := Option.filter_eq_some_iff.mp selected
          rw [List.filterMap_cons_some (b := (first, read row)) (by simp [selected]),
            List.foldl_cons]
          have later : ∀ other ∈ keys,
              current.update first (set (read row)) other = table other := by
            intro other member
            have ne : other ≠ first := fun same => absent (same ▸ member)
            rw [update_of_ne ne]
            exact agrees other (by simp [member])
          rw [ih distinct _ later key]
          by_cases same : key = first
          · subst same
            rw [update_self, first_eq, found]
            simp [absent, accepted]
          · simp [same]

/-! ## The row view of a statement -/

/-- A row stays absent, is inserted, or is there before and after. -/
inductive RowStep (inserted : Row → Prop) (changed : Row → Row → Prop) :
    Option Row → Option Row → Prop where
  | absent : RowStep inserted changed none none
  | insert {row : Row} : inserted row → RowStep inserted changed none (some row)
  | change {before after : Row} :
      changed before after → RowStep inserted changed (some before) (some after)

/-- Two versions of a table, related row by row. -/
def Steps (inserted : Key → Row → Prop) (changed : Key → Row → Row → Prop)
    (before after : Table Key Row) : Prop :=
  ∀ key, RowStep (inserted key) (changed key) (before key) (after key)

variable {inserted : Key → Row → Prop} {changed : Key → Row → Row → Prop}

theorem RowStep.keep {inserted : Row → Prop} {changed : Row → Row → Prop} {row : Option Row}
    (kept : ∀ old, row = some old → changed old old) : RowStep inserted changed row row := by
  cases row with
  | none => exact .absent
  | some old => exact .change (kept old rfl)

theorem steps_refl (reflexive : ∀ key row, changed key row row) (table : Table Key Row) :
    Steps inserted changed table table :=
  fun key => .keep fun old _ => reflexive key old

theorem steps_updateWhere {table : Table Key Row} {chosen : Key → Row → Bool}
    {set : Row → Row}
    (moved : ∀ key row, table key = some row → chosen key row = true → changed key row (set row))
    (kept : ∀ key row, table key = some row → chosen key row = false → changed key row row) :
    Steps inserted changed table (table.updateWhere chosen set) := by
  intro key
  rw [updateWhere]
  cases found : table key with
  | none => exact .absent
  | some row =>
      refine .change ?_
      cases selected : chosen key row with
      | false => simpa [selected] using kept key row found selected
      | true => simpa [selected] using moved key row found selected

section Keyed

variable [DecidableEq Key] {table : Table Key Row} {key : Key}

theorem steps_update {set : Row → Row}
    (moved : ∀ row, table key = some row → changed key row (set row))
    (kept : ∀ other row, other ≠ key → table other = some row → changed other row row) :
    Steps inserted changed table (table.update key set) := by
  intro other
  by_cases same : other = key
  · subst same
    rw [update_self]
    cases found : table other with
    | none => exact .absent
    | some row => exact .change (moved row found)
  · rw [update_of_ne same]
    exact .keep fun old found => kept other old same found

theorem steps_upsert {fresh : Row} {merge : Row → Row}
    (new : table key = none → inserted key fresh)
    (moved : ∀ row, table key = some row → changed key row (merge row))
    (kept : ∀ other row, other ≠ key → table other = some row → changed other row row) :
    Steps inserted changed table (table.upsert key fresh merge) := by
  intro other
  by_cases same : other = key
  · subst same
    rw [upsert_self]
    cases found : table other with
    | none => exact .insert (new found)
    | some row => exact .change (moved row found)
  · rw [upsert_of_ne same]
    exact .keep fun old found => kept other old same found

theorem steps_insertNew {fresh : Row} (new : table key = none → inserted key fresh)
    (kept : ∀ other row, table other = some row → changed other row row) :
    Steps inserted changed table (table.insertNew key fresh) :=
  steps_upsert new (fun row found => kept key row found) fun other row _ => kept other row

end Keyed

/-! ## Row invariants -/

/-- Every row of the table satisfies the invariant. -/
def All (inv : Key → Row → Prop) (table : Table Key Row) : Prop :=
  ∀ key row, table key = some row → inv key row

theorem all_empty (inv : Key → Row → Prop) : All inv (empty : Table Key Row) := by
  intro key row found
  cases found

/-- What inserted rows satisfy and changes preserve, a statement preserves. -/
theorem Steps.all {inv later : Key → Row → Prop} {before after : Table Key Row}
    (steps : Steps inserted changed before after) (holds : All inv before)
    (new : ∀ {key row}, inserted key row → later key row)
    (kept : ∀ {key row next}, inv key row → changed key row next → later key next) :
    All later after := by
  intro key row found
  have step := steps key
  rw [found] at step
  generalize old_eq : before key = old at step
  cases step with
  | insert fresh => exact new fresh
  | change moved => exact kept (holds key _ old_eq) moved

/-- Every row is still there, and related to its later version. -/
def Evolves (rel : Row → Row → Prop) (before after : Table Key Row) : Prop :=
  ∀ key row, before key = some row → ∃ later, after key = some later ∧ rel row later

theorem Steps.evolves {rel : Row → Row → Prop} {inv : Key → Row → Prop}
    {before after : Table Key Row} (steps : Steps inserted changed before after)
    (holds : All inv before)
    (related : ∀ {key row later}, inv key row → changed key row later → rel row later) :
    Evolves rel before after := by
  intro key row found
  have step := steps key
  rw [found] at step
  generalize new_eq : after key = new at step
  cases step with
  | change moved => exact ⟨_, rfl, related (holds key row found) moved⟩

theorem evolves_refl {rel : Row → Row → Prop} (reflexive : ∀ row, rel row row)
    (table : Table Key Row) : Evolves rel table table :=
  fun _ row found => ⟨row, found, reflexive row⟩

theorem Evolves.trans {rel : Row → Row → Prop} {first second third : Table Key Row}
    (left : Evolves rel first second) (right : Evolves rel second third)
    (transitive : ∀ {row middle last}, rel row middle → rel middle last → rel row last) :
    Evolves rel first third := by
  intro key row found
  obtain ⟨middle, foundMiddle, toMiddle⟩ := left key row found
  obtain ⟨last, foundLast, toLast⟩ := right key middle foundMiddle
  exact ⟨last, foundLast, transitive toMiddle toLast⟩

end Table
