import Mathlib.Data.List.Basic
import DotaCollector.Library.Schedule

/-!
# The cap on live calls

A live tick reads the settings, puts its successor into the queue, and then enters the live calls
of its process or is skipped. Between the reading and the entrance other ticks enter and leave, and
the setting may change, so each tick is held to the cap it has read itself.
-/

namespace DotaCollector
namespace Live
namespace Circuit

open Schedule

/-- The variables of the module and its gauges. -/
structure LiveCalls where
  inFlight : Nat := 0
  lastMax : Nat := 0
  liveCallsInProgress : Nat := 0
  liveCircuitOpen : Nat := 0
  deriving DecidableEq, Repr

namespace LiveCalls

def setCircuitGauge (circuit : LiveCalls) : LiveCalls :=
  { circuit with
    liveCircuitOpen := if 0 < circuit.lastMax ∧ circuit.lastMax ≤ circuit.inFlight then 1 else 0 }

def tryEnterLiveCall (circuit : LiveCalls) (max : Nat) : Bool × LiveCalls :=
  let circuit := { circuit with lastMax := max }
  if max ≤ circuit.inFlight then (false, circuit.setCircuitGauge)
  else
    let inFlight := circuit.inFlight + 1
    (true, { circuit with inFlight, liveCallsInProgress := inFlight }.setCircuitGauge)

def leaveLiveCall (circuit : LiveCalls) : LiveCalls :=
  let inFlight := if 0 < circuit.inFlight then circuit.inFlight - 1 else circuit.inFlight
  { circuit with inFlight, liveCallsInProgress := inFlight }.setCircuitGauge

end LiveCalls

/-- The ticks of a process by the caps which they have read: those in front of their entrance, and
those inside, the last one to enter first. -/
structure State where
  circuit : LiveCalls := {}
  waiting : List Nat := []
  inside : List Nat := []
  skipped : Nat := 0
  deriving DecidableEq, Repr

inductive Event where
  /-- `getAppSettings` of a tick. -/
  | read (liveMaxConcurrent : Nat)
  /-- `addJob` throws. -/
  | fail (place : Nat)
  | enter (place : Nat)
  /-- The work of a tick ends, with an error or without one. -/
  | leave (place : Nat)
  deriving DecidableEq, Repr

def next (state : State) : Event → Option State
  | .read max => some { state with waiting := max :: state.waiting }
  | .fail place =>
      if place < state.waiting.length then
        some { state with waiting := state.waiting.eraseIdx place }
      else none
  | .enter place =>
      state.waiting[place]?.map fun max =>
        let (entered, circuit) := state.circuit.tryEnterLiveCall max
        let waiting := state.waiting.eraseIdx place
        if entered then { state with circuit, waiting, inside := max :: state.inside }
        else { state with circuit, waiting, skipped := state.skipped + 1 }
  | .leave place =>
      if place < state.inside.length then
        some
          { state with
            circuit := state.circuit.leaveLiveCall, inside := state.inside.eraseIdx place }
      else none

/-! ## The counter -/

/-- The module counts the ticks inside, and its gauges say what it counts. -/
structure Counts (state : State) : Prop where
  inFlight : state.circuit.inFlight = state.inside.length
  inProgress : state.circuit.liveCallsInProgress = state.circuit.inFlight
  isOpen : state.circuit.liveCircuitOpen =
    if 0 < state.circuit.lastMax ∧ state.circuit.lastMax ≤ state.circuit.inFlight then 1 else 0

/-- Each tick inside is held to its cap, together with those which entered before it. -/
def Capped : List Nat → Prop
  | [] => True
  | max :: earlier => earlier.length < max ∧ Capped earlier

structure Sound (state : State) : Prop where
  counts : Counts state
  capped : Capped state.inside

theorem capped_iff {inside : List Nat} : Capped inside ↔
    ∀ place max, inside[place]? = some max → inside.length ≤ max + place := by
  induction inside with
  | nil => simp [Capped]
  | cons first earlier ih =>
      rw [Capped, ih]
      constructor
      · rintro ⟨first_lt, rest⟩ place max found
        cases place with
        | zero =>
            cases found
            exact first_lt
        | succ place => exact Nat.succ_le_succ (rest place max found)
      · intro held
        refine ⟨held 0 first rfl, fun place max found => ?_⟩
        exact Nat.le_of_succ_le_succ (held (place + 1) max found)

/-- A tick which leaves makes room. -/
theorem Capped.eraseIdx {inside : List Nat} (capped : Capped inside) (place : Nat) :
    Capped (inside.eraseIdx place) := by
  induction inside generalizing place with
  | nil => exact capped
  | cons first earlier ih =>
      cases place with
      | zero => exact capped.2
      | succ place =>
          refine ⟨lt_of_le_of_lt ?_ capped.1, ih capped.2 place⟩
          exact (List.eraseIdx_sublist earlier place).length_le

theorem LiveCalls.tryEnterLiveCall_eq (circuit : LiveCalls) (max : Nat) :
    circuit.tryEnterLiveCall max =
      if max ≤ circuit.inFlight then (false, { circuit with lastMax := max }.setCircuitGauge)
      else
        (true,
          { circuit with
            lastMax := max
            inFlight := circuit.inFlight + 1
            liveCallsInProgress := circuit.inFlight + 1 }.setCircuitGauge) := rfl

variable {state after : State} {event : Event}

theorem counts_next (counts : Counts state) (step : next state event = some after) :
    Counts after := by
  cases event with
  | read max =>
      cases step
      exact ⟨counts.inFlight, counts.inProgress, counts.isOpen⟩
  | fail place =>
      obtain ⟨-, same⟩ := Option.ite_none_right_eq_some.mp step
      cases same
      exact ⟨counts.inFlight, counts.inProgress, counts.isOpen⟩
  | enter place =>
      obtain ⟨max, found, rfl⟩ := Option.map_eq_some_iff.mp step
      rw [LiveCalls.tryEnterLiveCall_eq]
      by_cases full : max ≤ state.circuit.inFlight
      · rw [if_pos full]
        exact ⟨counts.inFlight, counts.inProgress, rfl⟩
      · rw [if_neg full]
        exact ⟨congrArg Nat.succ counts.inFlight, rfl, rfl⟩
  | leave place =>
      obtain ⟨inside, same⟩ := Option.ite_none_right_eq_some.mp step
      cases same
      refine ⟨?_, rfl, rfl⟩
      have counted := counts.inFlight
      have busy : 0 < state.inside.length := Nat.zero_lt_of_lt inside
      simp only [LiveCalls.leaveLiveCall, LiveCalls.setCircuitGauge, counted, if_pos busy,
        List.length_eraseIdx_of_lt inside]

theorem capped_next (counts : Counts state) (capped : Capped state.inside)
    (step : next state event = some after) : Capped after.inside := by
  cases event with
  | read max =>
      cases step
      exact capped
  | fail place =>
      obtain ⟨-, same⟩ := Option.ite_none_right_eq_some.mp step
      cases same
      exact capped
  | enter place =>
      obtain ⟨max, found, rfl⟩ := Option.map_eq_some_iff.mp step
      rw [LiveCalls.tryEnterLiveCall_eq]
      by_cases full : max ≤ state.circuit.inFlight
      · rw [if_pos full]
        exact capped
      · rw [if_neg full]
        rw [counts.inFlight] at full
        exact ⟨Nat.lt_of_not_ge full, capped⟩
  | leave place =>
      obtain ⟨-, same⟩ := Option.ite_none_right_eq_some.mp step
      cases same
      exact capped.eraseIdx place

/-- In every run of ticks, with any caps and any work which fails: the module counts the ticks
inside and shows them, and each of them is held to the cap which it has read, together with those
which have entered before it. A tick which is skipped finds as many ticks inside as its cap. -/
theorem inFlight_of_run (events : List Event) (state : State)
    (execution : run next {} events = some state) :
    Counts state ∧
      (∀ place max, state.inside[place]? = some max → state.circuit.inFlight ≤ max + place) ∧
      ∀ place max after, state.waiting[place]? = some max →
        next state (.enter place) = some after →
          (after.skipped = state.skipped + 1 ↔ max ≤ state.inside.length) ∧
          (after.inside = max :: state.inside ↔ state.inside.length < max) := by
  have start : Sound {} := ⟨⟨rfl, rfl, rfl⟩, trivial⟩
  obtain ⟨counts, capped⟩ : Sound state := by
    refine run_invariant (fun sound step => ?_) start execution
    exact ⟨counts_next sound.counts step, capped_next sound.counts sound.capped step⟩
  refine ⟨counts, fun place max found => ?_, fun place max after found step => ?_⟩
  · rw [counts.inFlight]
    exact capped_iff.mp capped place max found
  · obtain ⟨other, same, rfl⟩ := Option.map_eq_some_iff.mp step
    cases found.symm.trans same
    rw [LiveCalls.tryEnterLiveCall_eq, counts.inFlight]
    by_cases full : max ≤ state.inside.length
    · rw [if_pos full]
      simp [full]
    · rw [if_neg full]
      simp [full, Nat.lt_of_not_ge full]

/-- Two ticks enter under a cap of two, and a third one has read a cap of one. -/
theorem inFlight_of_run_third :
    let state : State :=
      { circuit := ⟨2, 2, 2, 1⟩
        waiting := [1]
        inside := [2, 2] }
    Counts state ∧
      (∀ place max, state.inside[place]? = some max → state.circuit.inFlight ≤ max + place) ∧
      ∀ place max after, state.waiting[place]? = some max →
        next state (.enter place) = some after →
          (after.skipped = state.skipped + 1 ↔ max ≤ state.inside.length) ∧
          (after.inside = max :: state.inside ↔ state.inside.length < max) :=
  inFlight_of_run [.read 2, .enter 0, .read 1, .read 2, .enter 0] _ rfl

end Circuit
end Live
end DotaCollector
