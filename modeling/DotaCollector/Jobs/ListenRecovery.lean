import DotaCollector.Library.Schedule

/-!
# Recoveries behind a listener outage

`attachLoopJobRecovery` keeps one flag. An error of the listening connection sets it, a success
with the flag set starts a recovery, and the continuation of a recovery which has gone through
clears it. Nothing ties a recovery to the error it was started for, so a recovery of an earlier
outage may complete, and clear the flag, behind the error of a later one.
-/

namespace DotaCollector
namespace Jobs
namespace ListenRecovery

/-- The flag, the recoveries under way, and how many have been started; a recovery is named by
the number started before it. -/
structure State where
  recoverOnListen : Bool := false
  recoveries : List Nat := []
  started : Nat := 0
  deriving DecidableEq

inductive Event where
  /-- `pool:listen:error`. -/
  | error
  /-- `pool:listen:success`. -/
  | success
  /-- The continuation of a recovery which has gone through. -/
  | recovered (recovery : Nat)
  /-- The `catch` of a recovery. -/
  | failed (recovery : Nat)
  deriving DecidableEq

def next (state : State) : Event → Option State
  | .error => some { state with recoverOnListen := true }
  | .success =>
      if state.recoverOnListen then
        some { state with
          recoveries := state.started :: state.recoveries
          started := state.started + 1 }
      else some state
  | .recovered recovery =>
      if recovery ∈ state.recoveries then
        some { state with
          recoverOnListen := false
          recoveries := state.recoveries.erase recovery }
      else none
  | .failed recovery =>
      if recovery ∈ state.recoveries then
        some { state with recoveries := state.recoveries.erase recovery }
      else none

/-- Behind each error which is followed by a success, some recovery has been started. -/
def Recovers (start final : State) (events : List Event) : Prop :=
  ∀ front back erred, events = front ++ .error :: back → .success ∈ back →
    Schedule.run next start (front ++ [.error]) = some erred → erred.started < final.started

/-- No recovery goes through between an error and the success behind it. -/
def Undisturbed (events : List Event) : Prop :=
  ∀ front outage back, events = front ++ .error :: (outage ++ .success :: back) →
    .error ∉ outage → .success ∉ outage → ∀ recovery, .recovered recovery ∉ outage

/-! ## One step -/

variable {state after start final : State} {event : Event} {events : List Event}

theorem started_le_next (step : next state event = some after) :
    state.started ≤ after.started := by
  cases event with
  | error =>
      cases step
      exact Nat.le_refl _
  | success =>
      simp only [next] at step
      split at step <;> cases step
      · exact Nat.le_succ _
      · exact Nat.le_refl _
  | recovered recovery | failed recovery =>
      simp only [next] at step
      split at step <;> cases step
      exact Nat.le_refl _

/-- Between two events of the listener no recovery starts, and the flag goes only with a recovery
which goes through. -/
theorem next_of_outage (step : next state event = some after) (noError : event ≠ .error)
    (noSuccess : event ≠ .success) :
    after.started = state.started ∧
      (after.recoverOnListen = true ↔
        state.recoverOnListen = true ∧ ∀ recovery, event ≠ .recovered recovery) := by
  cases event with
  | error => exact (noError rfl).elim
  | success => exact (noSuccess rfl).elim
  | recovered recovery =>
      simp only [next] at step
      split at step <;> cases step
      simp
  | failed recovery =>
      simp only [next] at step
      split at step <;> cases step
      simp

/-- A success starts a recovery exactly when the flag is set. -/
theorem started_lt_success_iff (step : next state .success = some after) :
    state.started < after.started ↔ state.recoverOnListen = true := by
  simp only [next] at step
  split at step <;> cases step
  · exact iff_of_true (Nat.lt_succ_self _) ‹_›
  · exact iff_of_false (Nat.lt_irrefl _) ‹_›

/-! ## Every run -/

theorem started_le_run (execution : Schedule.run next start events = some final) :
    start.started ≤ final.started := by
  let inv : State → Prop := fun later => start.started ≤ later.started
  have preserved : ∀ {state event after}, inv state → next state event = some after → inv after :=
    fun below step => below.trans (started_le_next step)
  have below : inv final := Schedule.run_invariant preserved (Nat.le_refl _) execution
  exact below

theorem run_of_outage (noError : .error ∉ events) (noSuccess : .success ∉ events)
    (execution : Schedule.run next start events = some final) :
    final.started = start.started ∧
      (final.recoverOnListen = true ↔
        start.recoverOnListen = true ∧ ∀ recovery, .recovered recovery ∉ events) := by
  induction events generalizing start with
  | nil =>
      cases execution
      simp
  | cons event events ih =>
      obtain ⟨middle, step, rest⟩ := Schedule.run_cons_eq_some.mp execution
      simp only [List.mem_cons, not_or] at noError noSuccess
      obtain ⟨sameStarted, flag⟩ := next_of_outage step (Ne.symm noError.1) (Ne.symm noSuccess.1)
      obtain ⟨laterStarted, laterFlag⟩ := ih noError.2 noSuccess.2 rest
      refine ⟨laterStarted.trans sameStarted, ?_⟩
      rw [laterFlag, flag, and_assoc, ← forall_and]
      simp only [List.mem_cons, not_or, ne_comm]

/-- The success behind an outage starts a recovery exactly when none has gone through since the
error. -/
theorem started_lt_outage_iff {erred : State} {outage : List Event}
    (error : next state .error = some erred) (noError : .error ∉ outage)
    (noSuccess : .success ∉ outage)
    (execution : Schedule.run next erred (outage ++ [.success]) = some final) :
    erred.started < final.started ↔ ∀ recovery, .recovered recovery ∉ outage := by
  obtain ⟨silent, within, success⟩ := Schedule.run_snoc_eq_some.mp execution
  obtain ⟨same, flag⟩ := run_of_outage noError noSuccess within
  have set : erred.recoverOnListen = true := by
    cases error
    rfl
  rw [← same, started_lt_success_iff success, flag]
  exact and_iff_right set

/-- The last error before a success. -/
theorem exists_last_error (events : List Event) :
    ∃ front outage, .error :: events = front ++ .error :: outage ∧ .error ∉ outage := by
  have member : Event.error ∈ (.error :: events).reverse := by simp
  obtain ⟨outage, front, split, without⟩ := List.eq_append_cons_of_mem member
  refine ⟨front.reverse, outage.reverse, ?_, by simpa using without⟩
  rw [← List.reverse_reverse (.error :: events), split]
  simp

theorem started_of_error {erred : State} (error : next state .error = some erred) :
    erred.started = state.started := by
  cases error
  rfl

theorem recovers_of_undisturbed (undisturbed : Undisturbed events)
    (execution : Schedule.run next start events = some final) : Recovers start final events := by
  rintro front back erred rfl success reached
  obtain ⟨silent, rest, rfl, noSuccess⟩ := List.eq_append_cons_of_mem success
  obtain ⟨before, outage, split, noError⟩ := exists_last_error silent
  have whole : front ++ .error :: (silent ++ .success :: rest) =
      (front ++ before) ++ .error :: (outage ++ .success :: rest) := by
    rw [← List.cons_append, split]
    simp
  have quiet : .success ∉ outage := by
    intro member
    have inside : .success ∈ Event.error :: silent := by simp [split, member]
    exact noSuccess (by simpa using inside)
  have kept := undisturbed (front ++ before) outage rest whole noError quiet
  rw [whole, List.append_assoc] at execution
  obtain ⟨opening, toOpening, execution⟩ := Schedule.run_append_eq_some.mp execution
  obtain ⟨middle, toMiddle, execution⟩ := Schedule.run_append_eq_some.mp execution
  obtain ⟨last, error, execution⟩ := Schedule.run_cons_eq_some.mp execution
  rw [List.append_cons] at execution
  obtain ⟨after, toAfter, toFinal⟩ := Schedule.run_append_eq_some.mp execution
  obtain ⟨erring, firstError, ⟨⟩⟩ := Schedule.run_cons_eq_some.mp
    (Schedule.run_back toOpening reached)
  calc erred.started = opening.started := started_of_error firstError
    _ ≤ middle.started := started_le_run toMiddle
    _ = last.started := (started_of_error error).symm
    _ < after.started := (started_lt_outage_iff error noError quiet toAfter).mpr kept
    _ ≤ final.started := started_le_run toFinal

/-- In every run of any length, each error which is followed by a success is followed by the
start of a recovery, in every state reached, exactly when no recovery goes through between an
error and the success behind it. -/
theorem recovers_iff (events : List Event) (final : State)
    (execution : Schedule.run next {} events = some final) :
    (∀ visited state, visited <+: events → Schedule.run next {} visited = some state →
      Recovers {} state visited) ↔ Undisturbed events := by
  constructor
  · rintro recovers front outage back rfl noError noSuccess
    obtain ⟨middle, toMiddle, rest⟩ := Schedule.run_append_eq_some.mp execution
    obtain ⟨erred, error, rest⟩ := Schedule.run_cons_eq_some.mp rest
    rw [List.append_cons] at rest
    obtain ⟨after, toAfter, -⟩ := Schedule.run_append_eq_some.mp rest
    have toErred := Schedule.run_snoc toMiddle error
    refine (started_lt_outage_iff error noError noSuccess toAfter).mp ?_
    refine recovers (front ++ .error :: (outage ++ [.success])) after ⟨back, by simp⟩ ?_ front
      (outage ++ [.success]) erred rfl (by simp) toErred
    rw [List.append_cons]
    exact Schedule.run_append_eq_some.mpr ⟨erred, toErred, toAfter⟩
  · rintro undisturbed visited state ⟨later, rfl⟩ reached
    refine recovers_of_undisturbed ?_ reached
    rintro front outage back rfl
    exact undisturbed front outage (back ++ later) (by simp)

/-- An outage whose recovery goes through. -/
theorem recovers_once : ∃ erred final, next {} .error = some erred ∧
    Schedule.run next erred [.success, .recovered 0] = some final ∧
    erred.started < final.started := by
  refine ⟨_, _, rfl, rfl, ?_⟩
  have undisturbed : Undisturbed [.error, .success, .recovered 0] := by
    rintro front outage back split - noSuccess recovery member
    cases front with
    | nil =>
        cases outage with
        | nil => cases member
        | cons first outage =>
            obtain ⟨-, rfl, -⟩ : Event.error = .error ∧ .success = first ∧ _ := by
              simpa using split
            exact noSuccess List.mem_cons_self
    | cons first front =>
        have inside : .error ∈ [Event.success, .recovered 0] := by
          rw [(List.cons.inj split).2]
          simp
        revert inside
        decide
  exact (recovers_iff _ _ rfl).mpr undisturbed _ _ (List.prefix_refl _) rfl []
    [.success, .recovered 0] _ rfl (by decide) rfl

/-- The recovery of the first outage goes through during the second one, behind which none is
started. -/
theorem outage_without_recovery : ∃ erred final,
    Schedule.run next {} [.error, .success, .error] = some erred ∧
    Schedule.run next erred [.recovered 0, .success] = some final ∧
    final.started = erred.started ∧ final.recoverOnListen = false ∧
    ¬ Recovers {} final [.error, .success, .error, .recovered 0, .success] := by
  refine ⟨_, _, rfl, rfl, rfl, rfl, fun recovers => ?_⟩
  have later := recovers [.error, .success] [.recovered 0, .success] _ rfl (by decide) rfl
  exact Nat.lt_irrefl _ later

end ListenRecovery
end Jobs
end DotaCollector
