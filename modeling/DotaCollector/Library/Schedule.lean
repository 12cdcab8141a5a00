import Mathlib.Data.List.Infix
import Mathlib.Data.Option.Basic

/-!
# Schedules of a partial step function

A system is a partial function from a state and an event to the next state; an event which is
not enabled has no successor. A schedule is a finite list of events, executed from left to
right. The rules below carry invariants, and relations between a state and a later one, from
single steps to complete executions, optionally under a guard on the state before each step.
-/

namespace Schedule

variable {State Event : Type*}

/-- Execute a schedule, failing at the first event which is not enabled. -/
def run (next : State → Event → Option State) : State → List Event → Option State
  | state, [] => some state
  | state, event :: events => next state event >>= fun after => run next after events

variable {next : State → Event → Option State}

@[simp]
theorem run_nil (state : State) : run next state [] = some state := rfl

theorem run_cons (state : State) (event : Event) (events : List Event) :
    run next state (event :: events) = next state event >>= fun after => run next after events :=
  rfl

theorem run_cons_eq_some {initial final : State} {event : Event} {events : List Event} :
    run next initial (event :: events) = some final ↔
      ∃ after, next initial event = some after ∧ run next after events = some final := by
  rw [run_cons]
  exact Option.bind_eq_some_iff

theorem run_append (state : State) (front back : List Event) :
    run next state (front ++ back) =
      run next state front >>= fun middle => run next middle back := by
  induction front generalizing state with
  | nil => rfl
  | cons event front ih =>
      simp only [List.cons_append, run_cons]
      cases next state event with
      | none => rfl
      | some after => exact ih after

theorem run_append_eq_some {initial final : State} {front back : List Event} :
    run next initial (front ++ back) = some final ↔
      ∃ middle, run next initial front = some middle ∧ run next middle back = some final := by
  rw [run_append]
  exact Option.bind_eq_some_iff

/-- An execution goes on from where its front has led. -/
theorem run_back {initial middle final : State} {front back : List Event}
    (reached : run next initial front = some middle)
    (execution : run next initial (front ++ back) = some final) :
    run next middle back = some final := by
  rwa [run_append, reached] at execution

/-- The last event of an execution. -/
theorem run_snoc_eq_some {initial final : State} {events : List Event} {event : Event} :
    run next initial (events ++ [event]) = some final ↔
      ∃ middle, run next initial events = some middle ∧ next middle event = some final := by
  rw [run_append_eq_some]
  refine exists_congr fun middle => and_congr_right fun _ => ?_
  rw [run_cons_eq_some]
  constructor
  · rintro ⟨after, step, ⟨⟩⟩
    exact step
  · exact fun step => ⟨final, step, rfl⟩

/-- Append one enabled event to an execution. -/
theorem run_snoc {initial middle final : State} {events : List Event} {event : Event}
    (execution : run next initial events = some middle)
    (step : next middle event = some final) :
    run next initial (events ++ [event]) = some final :=
  run_snoc_eq_some.mpr ⟨middle, execution, step⟩

/-- Where every event is enabled, every schedule is executed. -/
theorem exists_run (enabled : ∀ state event, (next state event).isSome = true) (initial : State)
    (events : List Event) : ∃ final, run next initial events = some final := by
  induction events generalizing initial with
  | nil => exact ⟨initial, rfl⟩
  | cons event events ih =>
      obtain ⟨after, step⟩ := Option.isSome_iff_exists.mp (enabled initial event)
      obtain ⟨final, rest⟩ := ih after
      exact ⟨final, run_cons_eq_some.mpr ⟨after, step, rest⟩⟩

/-! ## Guards on every step -/

/-- Every executed event finds the state before it inside the guard. -/
def Throughout (next : State → Event → Option State) (guard : State → Event → Prop) :
    State → List Event → Prop
  | _, [] => True
  | state, event :: events =>
      guard state event ∧
        ∀ after, next state event = some after → Throughout next guard after events

variable {guard : State → Event → Prop}

@[simp]
theorem throughout_nil (state : State) : Throughout next guard state [] := trivial

theorem throughout_cons {state : State} {event : Event} {events : List Event} :
    Throughout next guard state (event :: events) ↔
      guard state event ∧
        ∀ after, next state event = some after → Throughout next guard after events :=
  Iff.rfl

/-- A guard holds throughout a schedule exactly when it holds at every event reached. -/
theorem throughout_iff {initial : State} {events : List Event} :
    Throughout next guard initial events ↔
      ∀ front event back state, events = front ++ event :: back →
        run next initial front = some state → guard state event := by
  induction events generalizing initial with
  | nil => simp
  | cons first events ih =>
      rw [throughout_cons]
      constructor
      · rintro ⟨here, later⟩ front event back state split execution
        cases front with
        | nil =>
            obtain ⟨rfl, -⟩ := List.cons_eq_cons.mp split
            cases execution
            exact here
        | cons head front =>
            obtain ⟨rfl, remaining⟩ := List.cons_eq_cons.mp split
            obtain ⟨after, step, rest⟩ := run_cons_eq_some.mp execution
            exact ih.mp (later after step) front event back state remaining rest
      · intro everywhere
        refine ⟨everywhere [] first events initial rfl rfl, fun after step => ih.mpr ?_⟩
        intro front event back state split execution
        exact everywhere (first :: front) event back state (by rw [split]; rfl)
          (run_cons_eq_some.mpr ⟨after, step, execution⟩)

theorem Throughout.mono {weaker : State → Event → Prop} {initial : State} {events : List Event}
    (holds : Throughout next guard initial events)
    (implies : ∀ state event, guard state event → weaker state event) :
    Throughout next weaker initial events := by
  rw [throughout_iff] at holds ⊢
  intro front event back state split execution
  exact implies state event (holds front event back state split execution)

theorem Throughout.and {other : State → Event → Prop} {initial : State} {events : List Event}
    (left : Throughout next guard initial events) (right : Throughout next other initial events) :
    Throughout next (fun state event => guard state event ∧ other state event) initial events := by
  rw [throughout_iff] at *
  intro front event back state split execution
  exact ⟨left front event back state split execution, right front event back state split execution⟩

theorem Throughout.front {initial : State} {front back : List Event}
    (holds : Throughout next guard initial (front ++ back)) :
    Throughout next guard initial front := by
  rw [throughout_iff] at holds ⊢
  intro before event after state split execution
  exact holds before event (after ++ back) state (by simp [split]) execution

theorem Throughout.back {initial middle : State} {front back : List Event}
    (holds : Throughout next guard initial (front ++ back))
    (execution : run next initial front = some middle) :
    Throughout next guard middle back := by
  rw [throughout_iff] at holds ⊢
  intro before event after state split rest
  exact holds (front ++ before) event after state (by simp [split])
    (run_append_eq_some.mpr ⟨middle, execution, rest⟩)

/-- One more event inside the guard. -/
theorem Throughout.snoc {initial middle : State} {front : List Event} {event : Event}
    (holds : Throughout next guard initial front)
    (execution : run next initial front = some middle) (inside : guard middle event) :
    Throughout next guard initial (front ++ [event]) := by
  induction front generalizing initial with
  | nil =>
      cases execution
      exact ⟨inside, fun _ _ => trivial⟩
  | cons first front ih =>
      refine ⟨holds.1, fun after step => ih (holds.2 after step) ?_⟩
      obtain ⟨same, stepped, rest⟩ := run_cons_eq_some.mp execution
      obtain rfl := Option.some.inj (step.symm.trans stepped)
      exact rest

/-! ## Invariant rules -/

/-- What every guarded step preserves, every guarded execution preserves. -/
theorem Throughout.run_invariant {inv : State → Prop} {initial final : State}
    {events : List Event} (holds : Throughout next guard initial events)
    (preserved : ∀ {state event after}, inv state → guard state event →
      next state event = some after → inv after)
    (start : inv initial) (execution : run next initial events = some final) : inv final := by
  induction events generalizing initial with
  | nil =>
      cases execution
      exact start
  | cons event events ih =>
      obtain ⟨after, step, rest⟩ := run_cons_eq_some.mp execution
      exact ih (holds.2 after step) (preserved start holds.1 step) rest

/-- What every step preserves, every execution preserves. -/
theorem run_invariant {inv : State → Prop} {initial final : State} {events : List Event}
    (preserved : ∀ {state event after}, inv state → next state event = some after → inv after)
    (start : inv initial) (execution : run next initial events = some final) : inv final := by
  have everywhere : Throughout next (fun _ _ => True) initial events :=
    throughout_iff.mpr fun _ _ _ _ _ _ => trivial
  exact everywhere.run_invariant (fun held _ step => preserved held step) start execution

/-- A guard which is exactly what keeps a fact visible, from one state with the invariant to the
next, holds throughout an execution exactly when the fact shows in every state visited. -/
theorem throughout_iff_shown {inv shown : State → Prop} {initial final : State}
    {events : List Event} (shows : ∀ {state}, inv state → shown state)
    (exact : ∀ {state event after}, inv state → next state event = some after →
      (guard state event ↔ shown after))
    (kept : ∀ {state event after}, inv state → next state event = some after → shown after →
      inv after)
    (start : inv initial) (execution : run next initial events = some final) :
    Throughout next guard initial events ↔
      ∀ visited state, visited <+: events → run next initial visited = some state →
        shown state := by
  induction events generalizing initial with
  | nil =>
      refine ⟨?_, fun _ => trivial⟩
      rintro - visited state within reached
      rw [List.prefix_nil.mp within] at reached
      cases reached
      exact shows start
  | cons event events ih =>
      obtain ⟨after, step, rest⟩ := run_cons_eq_some.mp execution
      rw [throughout_cons]
      constructor
      · rintro ⟨here, later⟩ visited state within reached
        have shownAfter := (exact start step).mp here
        cases visited with
        | nil =>
            cases reached
            exact shows start
        | cons first visited =>
            obtain ⟨rfl, inside⟩ := List.cons_prefix_cons.mp within
            obtain ⟨same, stepped, remaining⟩ := run_cons_eq_some.mp reached
            obtain rfl := Option.some.inj (step.symm.trans stepped)
            exact (ih (kept start step shownAfter) rest).mp (later after step) visited state inside
              remaining
      · intro everywhere
        have shownAfter : shown after :=
          everywhere [event] after (List.cons_prefix_cons.mpr ⟨rfl, List.nil_prefix⟩)
            (run_cons_eq_some.mpr ⟨after, step, rfl⟩)
        refine ⟨(exact start step).mpr shownAfter, fun same stepped => ?_⟩
        obtain rfl := Option.some.inj (step.symm.trans stepped)
        refine (ih (kept start step shownAfter) rest).mpr ?_
        intro visited state within reached
        exact everywhere (event :: visited) state (List.cons_prefix_cons.mpr ⟨rfl, within⟩)
          (run_cons_eq_some.mpr ⟨after, step, reached⟩)

/-! ## Reaching a state -/

/-- Some guarded execution leads to a state of the kind. -/
def Leads (next : State → Event → Option State) (guard : State → Event → Prop)
    (goal : State → Prop) (state : State) : Prop :=
  ∃ events final, Throughout next guard state events ∧ run next state events = some final ∧
    goal final

theorem Leads.here {goal : State → Prop} {state : State} (reached : goal state) :
    Leads next guard goal state :=
  ⟨[], state, trivial, rfl, reached⟩

/-- A guarded step, and on from there. -/
theorem Leads.step {goal : State → Prop} {state after : State} (event : Event)
    (held : guard state event) (step : next state event = some after)
    (leads : Leads next guard goal after) : Leads next guard goal state := by
  obtain ⟨events, final, holds, execution, reached⟩ := leads
  refine ⟨event :: events, final, ⟨held, fun same stepped => ?_⟩,
    run_cons_eq_some.mpr ⟨after, step, execution⟩, reached⟩
  obtain rfl := Option.some.inj (step.symm.trans stepped)
  exact holds

/-- What leads to a goal from every state of a kind leads there from whatever leads to the kind. -/
theorem Leads.bind {middle goal : State → Prop} {state : State}
    (leads : Leads next guard middle state)
    (onward : ∀ state, middle state → Leads next guard goal state) :
    Leads next guard goal state := by
  obtain ⟨events, reached, holds, execution, inside⟩ := leads
  induction events generalizing state with
  | nil =>
      cases execution
      exact onward reached inside
  | cons event events ih =>
      obtain ⟨after, step, rest⟩ := run_cons_eq_some.mp execution
      exact .step event holds.1 step (ih (holds.2 after step) rest)

/-! ## Observed systems -/

section Observed

variable {Mark : Type*}

/-- A system together with a mark, which is updated from what is seen before each step. -/
def observe (next : State → Event → Option State) (watch : State → Event → Mark → Mark) :
    State × Mark → Event → Option (State × Mark)
  | (state, mark), event => (next state event).map fun after => (after, watch state event mark)

variable {watch : State → Event → Mark → Mark}

theorem observe_eq_some {state after : State} {mark marked : Mark} {event : Event} :
    observe next watch (state, mark) event = some (after, marked) ↔
      next state event = some after ∧ watch state event mark = marked := by
  simp [observe]

/-- Observing a system does not change its executions. -/
theorem exists_run_observe {initial final : State} (mark : Mark) {events : List Event}
    (execution : run next initial events = some final) :
    ∃ marked, run (observe next watch) (initial, mark) events = some (final, marked) := by
  induction events generalizing initial mark with
  | nil =>
      cases execution
      exact ⟨mark, rfl⟩
  | cons event events ih =>
      obtain ⟨after, step, rest⟩ := run_cons_eq_some.mp execution
      obtain ⟨marked, observed⟩ := ih (watch initial event mark) rest
      exact ⟨marked, run_cons_eq_some.mpr ⟨_, observe_eq_some.mpr ⟨step, rfl⟩, observed⟩⟩

end Observed

/-! ## Sums along an execution -/

section Total

/-- What the steps of an execution cost together. -/
def total (next : State → Event → Option State) (cost : State → Event → State → Nat) :
    State → List Event → Nat
  | _, [] => 0
  | state, event :: events =>
      (next state event).elim 0 fun after => cost state event after + total next cost after events

variable {cost : State → Event → State → Nat}

theorem total_cons {state after : State} {event : Event} (step : next state event = some after)
    (events : List Event) :
    total next cost state (event :: events) =
      cost state event after + total next cost after events := by
  rw [total, step]
  rfl

theorem total_add {other : State → Event → State → Nat} {initial final : State}
    {events : List Event} (execution : run next initial events = some final) :
    total next (fun state event after => cost state event after + other state event after) initial
        events = total next cost initial events + total next other initial events := by
  induction events generalizing initial with
  | nil => rfl
  | cons event events ih =>
      obtain ⟨after, step, rest⟩ := run_cons_eq_some.mp execution
      rw [total_cons step, total_cons step, total_cons step, ih rest, Nat.add_add_add_comm]

/-- An invariant in which every step may spend its cost. -/
theorem run_total {inv : Nat → State → Prop} {initial final : State} {events : List Event}
    {spent : Nat}
    (preserved : ∀ {spent state after}, ∀ event ∈ events, inv spent state →
      next state event = some after → inv (spent + cost state event after) after)
    (start : inv spent initial) (execution : run next initial events = some final) :
    inv (spent + total next cost initial events) final := by
  induction events generalizing initial spent with
  | nil =>
      cases execution
      exact start
  | cons event events ih =>
      obtain ⟨after, step, rest⟩ := run_cons_eq_some.mp execution
      rw [total_cons step, ← Nat.add_assoc]
      exact ih (fun other member => preserved other (List.mem_cons_of_mem _ member))
        (preserved event List.mem_cons_self start step) rest

end Total

/-- A decidable guard is decided along the only execution of a schedule. -/
instance decidableThroughout (next : State → Event → Option State)
    (guard : State → Event → Prop) [∀ state event, Decidable (guard state event)] :
    (state : State) → (events : List Event) → Decidable (Throughout next guard state events)
  | _, [] => .isTrue trivial
  | state, event :: events =>
      have : Decidable (∀ after, next state event = some after →
          Throughout next guard after events) :=
        match next state event with
        | none => .isTrue (by simp)
        | some after =>
            have := decidableThroughout next guard after events
            decidable_of_iff (Throughout next guard after events) (by simp)
      inferInstanceAs (Decidable (_ ∧ _))

end Schedule
