import DotaCollector.Library.Retention
import DotaCollector.Library.Table
import DotaCollector.Resources.Health

/-!
# The window of recorded attempts

The attempts of all proxies, accounts and keys share one table and one sequence of numbers. Each
recorded attempt is inserted, the attempts of its resource older than the window are deleted, and
behind a failure the window decides whether the resource is disabled. The table is a pruned view
of all attempts ever made, and the decision is the one which the whole history would give.
-/

namespace DotaCollector
namespace Resources
namespace Attempts

inductive ResourceKind where
  | proxy
  | gcAccount
  | apiKey
  deriving DecidableEq, Repr

/-- `(kind, resource_id)`. -/
abbrev ResourceKey := ResourceKind × Int

/-- A row of `resource_attempts`. -/
structure Attempt where
  id : Nat
  resource : ResourceKey
  ok : Bool
  error : Option String
  deriving DecidableEq, Repr

structure Input where
  resource : ResourceKey
  ok : Bool
  error : Option String := none
  deriving DecidableEq, Repr

/-- The attempts, the last number drawn from their sequence, and the rows of the resources. -/
structure State where
  attempts : List Attempt := []
  lastId : Nat := 0
  resources : Table ResourceKey Resource

/-- `kind = … AND resource_id = …`. -/
def Attempt.about (resource : ResourceKey) (attempt : Attempt) : Bool :=
  attempt.resource = resource

/-- `input.error ?? 'failed'`. -/
def Input.message (input : Input) : String := input.error.getD "failed"

/-- The row inserted for an attempt. -/
def Input.row (input : Input) (id : Nat) : Attempt where
  id
  resource := input.resource
  ok := input.ok
  error := if input.ok then none else some input.message

@[simp]
theorem about_row (resource : ResourceKey) (input : Input) (id : Nat) :
    Attempt.about resource (input.row id) = decide (input.resource = resource) := rfl

@[simp]
theorem ok_row (input : Input) (id : Nat) : (input.row id).ok = input.ok := rfl

def State.attemptsOf (state : State) (resource : ResourceKey) : List Attempt :=
  state.attempts.filter (Attempt.about resource)

/-- The transaction: the rows behind the insert and the delete, and whether they fail too
often. -/
def attemptTransaction (health : HealthSettings) (state : State) (input : Input) : Bool × State :=
  let lastId := state.lastId + 1
  let attempts := Retention.prune Attempt.id health.window (Attempt.about input.resource)
    (input.row lastId :: state.attempts)
  let after := { state with attempts, lastId }
  let rows := Retention.newestFirst Attempt.id (after.attemptsOf input.resource)
  (if input.ok then false else crossed health (rows.map Attempt.ok), after)

def recordResourceAttempt (settings : ResourceKind → HealthSettings) (state : State)
    (input : Input) : Bool × State :=
  let health := settings input.resource.1
  let (crossed, after) := attemptTransaction health state input
  let update (statement : Resource → Resource) : State :=
    { after with resources := after.resources.update input.resource statement }
  if input.ok then (false, after)
  else if crossed then (true, update (disableResource health input.message false))
  else (false, update (noteError input.message))

/-- The state behind a history, which is listed from the newest attempt to the oldest. -/
def recordAll (settings : ResourceKind → HealthSettings) (resources : Table ResourceKey Resource) :
    List Input → State
  | [] => { resources }
  | input :: earlier =>
      (recordResourceAttempt settings (recordAll settings resources earlier) input).2

/-! ## The whole history -/

/-- Every row ever inserted, from the newest to the oldest. -/
def inserted : List Input → List Attempt
  | [] => []
  | input :: earlier => input.row (earlier.length + 1) :: inserted earlier

/-- The outcomes of one resource in a history, from the newest to the oldest. -/
def outcomes (resource : ResourceKey) (history : List Input) : List Bool :=
  (history.filter (·.resource = resource)).map Input.ok

/-- The history fills the window, and of the window the share of failures reaches the
threshold. -/
def FailsTooOften (health : HealthSettings) (outcomes : List Bool) : Prop :=
  health.window ≤ outcomes.length ∧ health.threshold ≤ failRatio (outcomes.take health.window)

theorem ok_inserted (resource : ResourceKey) (history : List Input) :
    ((inserted history).filter (Attempt.about resource)).map Attempt.ok =
      outcomes resource history := by
  induction history with
  | nil => rfl
  | cons input earlier ih =>
      rw [outcomes] at ih ⊢
      by_cases same : input.resource = resource
      · simp [inserted, same, ih]
      · simp [inserted, same, ih]

theorem crossed_take_iff (health : HealthSettings) (outcomes : List Bool) :
    crossed health (outcomes.take health.window) = true ↔ FailsTooOften health outcomes := by
  simp only [crossed, FailsTooOften, List.take_take, min_self, List.length_take]
  by_cases full : health.window ≤ outcomes.length
  · simp [full]
  · simp [full]

/-- In doubles 71.42857142857143 per cent is not more than five sevenths. -/
example :
    let health : HealthSettings :=
      { percent := Double.round (7142857142857143 / 10 ^ 14)
        window := 7
        retestMax := 20
        window_pos := by decide
        retestMax_pos := by decide }
    crossed health [false, false, false, false, false, true, true] = true := by
  decide +kernel

/-! ## One attempt -/

/-- The table is the window of the history, for each resource on its own. -/
structure Windowed (settings : ResourceKind → HealthSettings) (history : List Input)
    (state : State) : Prop where
  rows : ∀ resource, state.attemptsOf resource =
    ((inserted history).filter (Attempt.about resource)).take (settings resource.1).window
  descending : Retention.Descending Attempt.id state.attempts
  lastId : state.lastId = history.length
  below : ∀ attempt ∈ state.attempts, attempt.id ≤ state.lastId

variable {settings : ResourceKind → HealthSettings} {history : List Input} {state : State}
  {resource : ResourceKey}

theorem take_cons_take (window : Nat) (row : Attempt) (rows : List Attempt) :
    (row :: rows.take window).take window = (row :: rows).take window := by
  cases window with
  | zero => rfl
  | succ window => simp [List.take_take]

theorem attempts_recordResourceAttempt (settings : ResourceKind → HealthSettings) (state : State)
    (input : Input) :
    (recordResourceAttempt settings state input).2.attempts =
        Retention.prune Attempt.id (settings input.resource.1).window
          (Attempt.about input.resource) (input.row (state.lastId + 1) :: state.attempts) ∧
      (recordResourceAttempt settings state input).2.lastId = state.lastId + 1 := by
  simp only [recordResourceAttempt]
  split_ifs <;> exact ⟨rfl, rfl⟩

theorem Windowed.insert (windowed : Windowed settings history state) (input : Input) :
    Retention.Descending Attempt.id (input.row (state.lastId + 1) :: state.attempts) :=
  List.pairwise_cons.mpr
    ⟨fun attempt member => Nat.lt_succ_of_le (windowed.below attempt member), windowed.descending⟩

/-- Of its own resource, an attempt leaves the window of the history with it. -/
theorem Windowed.attemptsOf_self (windowed : Windowed settings history state) (input : Input) :
    (recordResourceAttempt settings state input).2.attemptsOf input.resource =
      ((inserted (input :: history)).filter (Attempt.about input.resource)).take
        (settings input.resource.1).window := by
  have about (id : Nat) : Attempt.about input.resource (input.row id) = true := by simp
  rw [State.attemptsOf, (attempts_recordResourceAttempt settings state input).1,
    (windowed.insert input).filter_prune (settings input.resource.1).window_pos,
    List.filter_cons_of_pos (about _), inserted, List.filter_cons_of_pos (about _),
    ← windowed.lastId]
  have rows := windowed.rows input.resource
  rw [State.attemptsOf] at rows
  rw [rows, take_cons_take]

/-- Of every other resource, an attempt leaves all rows. -/
theorem attemptsOf_of_ne {input : Input} (ne : resource ≠ input.resource) :
    (recordResourceAttempt settings state input).2.attemptsOf resource =
      state.attemptsOf resource := by
  rw [State.attemptsOf, (attempts_recordResourceAttempt settings state input).1,
    Retention.filter_prune_of_disjoint, List.filter_cons_of_neg]
  · rfl
  · simp [ne.symm]
  · intro attempt about
    simp only [Attempt.about, decide_eq_true_eq, decide_eq_false_iff_not] at about ⊢
    exact about ▸ ne

theorem Windowed.record (windowed : Windowed settings history state) (input : Input) :
    Windowed settings (input :: history) (recordResourceAttempt settings state input).2 where
  rows resource := by
    rcases eq_or_ne resource input.resource with rfl | ne
    · exact windowed.attemptsOf_self input
    · have away (id : Nat) : ¬ Attempt.about resource (input.row id) = true := by simp [ne.symm]
      rw [attemptsOf_of_ne ne, windowed.rows, inserted, List.filter_cons_of_neg (away _)]
  descending := by
    rw [(attempts_recordResourceAttempt settings state input).1]
    exact (windowed.insert input).prune _ _
  lastId := by
    rw [(attempts_recordResourceAttempt settings state input).2, windowed.lastId]
    rfl
  below attempt member := by
    obtain ⟨attempts, lastId⟩ := attempts_recordResourceAttempt settings state input
    rw [attempts] at member
    rw [lastId]
    rcases List.mem_cons.mp (List.mem_of_mem_filter member) with rfl | earlier
    · exact Nat.le_refl _
    · exact Nat.le_succ_of_le (windowed.below attempt earlier)

/-- Behind every history the table is its window. -/
theorem windowed_recordAll (settings : ResourceKind → HealthSettings)
    (resources : Table ResourceKey Resource) (history : List Input) :
    Windowed settings history (recordAll settings resources history) := by
  induction history with
  | nil =>
      refine ⟨fun _ => ?_, List.Pairwise.nil, rfl, fun _ member => ?_⟩
      · simp [recordAll, State.attemptsOf, inserted]
      · cases member
  | cons input earlier ih => exact ih.record input

/-! ## The decision -/

/-- The rows which a failure is decided on are the window of the history with it. -/
theorem Windowed.rows_of_record (windowed : Windowed settings history state) (input : Input) :
    (Retention.newestFirst Attempt.id
        ((recordResourceAttempt settings state input).2.attemptsOf input.resource)).map Attempt.ok =
      (outcomes input.resource (input :: history)).take (settings input.resource.1).window := by
  have descending := (windowed.record input).descending.filter (Attempt.about input.resource)
  rw [State.attemptsOf, descending.newestFirst, ← State.attemptsOf, windowed.attemptsOf_self,
    List.map_take, ok_inserted]

/-- The answer is what the transaction has decided. -/
theorem disabled_eq (settings : ResourceKind → HealthSettings) (state : State) (input : Input) :
    (recordResourceAttempt settings state input).1 =
      (attemptTransaction (settings input.resource.1) state input).1 := by
  simp only [recordResourceAttempt]
  split_ifs with ok crossed
  · simp [attemptTransaction, ok]
  · exact crossed.symm
  · simpa using crossed

theorem Windowed.disabled_iff (windowed : Windowed settings history state) (input : Input) :
    (recordResourceAttempt settings state input).1 = true ↔
      input.ok = false ∧ FailsTooOften (settings input.resource.1)
        (outcomes input.resource (input :: history)) := by
  have rows := windowed.rows_of_record input
  rw [State.attemptsOf, (attempts_recordResourceAttempt settings state input).1] at rows
  rw [← crossed_take_iff, ← rows, disabled_eq, attemptTransaction]
  split_ifs with ok
  · simp [ok]
  · simp [ok, State.attemptsOf]

/-- What an attempt writes to the row of its resource. -/
def writes (health : HealthSettings) (input : Input) (disabled : Bool) : Resource → Resource :=
  if disabled then disableResource health input.message false
  else if input.ok then id
  else noteError input.message

theorem resources_recordResourceAttempt (settings : ResourceKind → HealthSettings) (state : State)
    (input : Input) :
    (recordResourceAttempt settings state input).2.resources =
      state.resources.update input.resource (writes (settings input.resource.1) input
        (recordResourceAttempt settings state input).1) := by
  rw [disabled_eq]
  simp only [recordResourceAttempt, writes]
  split_ifs with ok crossed
  · simp [attemptTransaction, ok] at crossed
  · simp [attemptTransaction, Table.update]
  all_goals rfl

theorem status_writes (health : HealthSettings) (input : Input) (disabled : Bool)
    (row : Resource) :
    (writes health input disabled row).status = if disabled then .disabled else row.status := by
  unfold writes
  split_ifs <;> rfl

/-- Behind every history of attempts of any resources, an attempt disables its resource exactly
when it fails and, with it, the whole history of the resource fails too often; it keeps the
newest rows of the resource, as many as the window holds, and leaves the rows and the status of
every other one. -/
theorem recordResourceAttempt_window (settings : ResourceKind → HealthSettings)
    (resources : Table ResourceKey Resource) (history : List Input) (input : Input) :
    let health := settings input.resource.1
    let before := recordAll settings resources history
    let disabled := (recordResourceAttempt settings before input).1
    let after := (recordResourceAttempt settings before input).2
    (disabled = true ↔ input.ok = false ∧
        FailsTooOften health (outcomes input.resource (input :: history))) ∧
      (after.resources input.resource).map Resource.status =
        (before.resources input.resource).map
          (fun row => if disabled then .disabled else row.status) ∧
      after.attemptsOf input.resource =
        ((inserted (input :: history)).filter (Attempt.about input.resource)).take
          health.window ∧
      ∀ other, other ≠ input.resource → after.attemptsOf other = before.attemptsOf other ∧
        after.resources other = before.resources other := by
  intro health before disabled after
  have windowed : Windowed settings history before :=
    windowed_recordAll settings resources history
  have written : after.resources =
      before.resources.update input.resource (writes health input disabled) :=
    resources_recordResourceAttempt settings before input
  refine ⟨windowed.disabled_iff input, ?_, windowed.attemptsOf_self input, fun other ne => ?_⟩
  · rw [written, Table.update_self, Option.map_map]
    exact congrArg (Option.map · _) (funext (status_writes health input disabled))
  · exact ⟨attemptsOf_of_ne ne, by rw [written, Table.update_of_ne ne]⟩

/-- The settings of the database's seed, with a window of two attempts. -/
def shortWindow : HealthSettings where
  percent := 80
  window := 2
  retestMax := 20
  window_pos := Nat.succ_pos _
  retestMax_pos := Nat.succ_pos _

/-- A key fails twice, with an attempt of an account in between. -/
theorem second_failure_disables :
    let before := recordAll (fun _ => shortWindow) (fun _ => some {})
      [⟨(.gcAccount, 1), true, none⟩, ⟨(.apiKey, 1), false, none⟩]
    let outcome := recordResourceAttempt (fun _ => shortWindow) before ⟨(.apiKey, 1), false, none⟩
    outcome.1 = true ∧
      outcome.2.attemptsOf (.gcAccount, 1) = before.attemptsOf (.gcAccount, 1) := by
  intro before outcome
  have window := recordResourceAttempt_window (fun _ => shortWindow) (fun _ => some {})
    [⟨(.gcAccount, 1), true, none⟩, ⟨(.apiKey, 1), false, none⟩] ⟨(.apiKey, 1), false, none⟩
  have fails : FailsTooOften shortWindow [false, false] := ⟨by decide, by decide +kernel⟩
  exact ⟨window.1.mpr ⟨rfl, fails⟩, (window.2.2.2 (.gcAccount, 1) (by decide)).1⟩

end Attempts
end Resources
end DotaCollector
