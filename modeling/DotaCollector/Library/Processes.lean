import Mathlib.Logic.Function.Basic

/-!
# Processes and their phases

The control state of a family of processes is a function from processes to phases, and a step of
one process updates that function at one point. The rules below say what such a step does to
facts about two phases at once, of which mutual exclusion is the usual one.
-/

namespace Processes

variable {Process Phase : Type*} [DecidableEq Process] {phases : Process → Phase}
  {process : Process} {phase : Phase}

/-- What holds of a process after a step holds of the phase entered, or held before. -/
theorem of_update (holds : Phase → Prop) {other : Process}
    (stands : holds (Function.update phases process phase other)) :
    other = process ∧ holds phase ∨ other ≠ process ∧ holds (phases other) := by
  rcases eq_or_ne other process with rfl | ne
  · rw [Function.update_self] at stands
    exact .inl ⟨rfl, stands⟩
  · rw [Function.update_of_ne ne] at stands
    exact .inr ⟨ne, stands⟩

theorem forall_update (holds : Phase → Prop) (entered : holds phase)
    (others : ∀ other, other ≠ process → holds (phases other)) (other : Process) :
    holds (Function.update phases process phase other) := by
  rcases eq_or_ne other process with rfl | ne
  · rw [Function.update_self]
    exact entered
  · rw [Function.update_of_ne ne]
    exact others other ne

/-- A process in the first class is alone: whoever is in the second class is that process. -/
def Excludes (first second : Phase → Prop) (phases : Process → Phase) : Prop :=
  ∀ process other, first (phases process) → second (phases other) → other = process

variable {first second : Phase → Prop}

/-- A process may enter either class when nobody else is in the other one. -/
theorem Excludes.update (excludes : Excludes first second phases)
    (firsts : first phase → ∀ other, other ≠ process → ¬ second (phases other))
    (seconds : second phase → ∀ other, other ≠ process → ¬ first (phases other)) :
    Excludes first second (Function.update phases process phase) := by
  intro left right inFirst inSecond
  rcases of_update first inFirst with ⟨rfl, entered⟩ | ⟨leftNe, before⟩
  · rcases of_update second inSecond with ⟨rfl, -⟩ | ⟨rightNe, rightBefore⟩
    · rfl
    · exact (firsts entered right rightNe rightBefore).elim
  · rcases of_update second inSecond with ⟨rfl, entered⟩ | ⟨-, rightBefore⟩
    · exact (seconds entered left leftNe before).elim
    · exact excludes left right before rightBefore

/-- A step which enters no class that its process was not in keeps the exclusion. -/
theorem Excludes.stay (excludes : Excludes first second phases)
    (firsts : first phase → first (phases process))
    (seconds : second phase → second (phases process)) :
    Excludes first second (Function.update phases process phase) := by
  refine excludes.update ?_ ?_
  · intro entered other ne inSecond
    exact ne (excludes process other (firsts entered) inSecond)
  · intro entered other ne inFirst
    exact ne (excludes other process inFirst (seconds entered)).symm

end Processes
