import Mathlib.Data.Finset.Prod
import Mathlib.Data.Fintype.Card
import Mathlib.Order.WithBot

/-!
# Serving what was served longest ago

Workers choose an entry which nothing has been waiting for longer than, and serve it in a later
step, so several of them may have chosen the same entry before one of them serves it. While one
entry waits and is not chosen, every entry that is served comes behind it from then on: no worker
serves an entry twice, and there are only so many pairs of a worker and another entry.
-/

namespace LeastRecent

variable {Key Worker Time : Type*} [LinearOrder Time]

/-- When each entry was served last, if ever, and what each worker has chosen and not yet served. -/
structure View (Key Worker Time : Type*) where
  last : Key → WithBot Time
  held : Worker → Option Key

/-- What may happen while an entry waits which was served last at `due`; a step which serves an
entry is labelled with it and its worker. -/
inductive Step (waiting : Key) (due : WithBot Time) (before after : View Key Worker Time) :
    Option (Worker × Key) → Prop
  | choose {worker : Worker} {key : Key} (other : key ≠ waiting)
      (first : before.last key ≤ due) (last : after.last = before.last)
      (own : after.held worker = some key)
      (rest : ∀ other, other ≠ worker → after.held other = before.held other) :
      Step waiting due before after none
  | serve {worker : Worker} {key : Key} (own : before.held worker = some key)
      (later : due < after.last key)
      (last : ∀ other, after.last other = before.last other ∨ due < after.last other)
      (done : after.held worker = none)
      (rest : ∀ other, other ≠ worker → after.held other = before.held other) :
      Step waiting due before after (some (worker, key))
  | pass (last : ∀ key, after.last key = before.last key ∨ due < after.last key)
      (held : ∀ worker, after.held worker = before.held worker ∨ after.held worker = none) :
      Step waiting due before after none

/-- Steps in a row, with what they have served. -/
inductive Run (waiting : Key) (due : WithBot Time) :
    View Key Worker Time → List (Worker × Key) → View Key Worker Time → Prop
  | nil {view : View Key Worker Time} : Run waiting due view [] view
  | cons {before middle after : View Key Worker Time} {label : Option (Worker × Key)}
      {served : List (Worker × Key)} (step : Step waiting due before middle label)
      (rest : Run waiting due middle served after) :
      Run waiting due before (label.toList ++ served) after

/-- The worker serves the entry no more. -/
def Spent (due : WithBot Time) (view : View Key Worker Time) (pair : Worker × Key) : Prop :=
  due < view.last pair.2 ∧ view.held pair.1 ≠ some pair.2

/-- No worker is about to serve the entry. -/
def Avoids (waiting : Key) (view : View Key Worker Time) : Prop :=
  ∀ worker, view.held worker ≠ some waiting

variable {waiting : Key} {due : WithBot Time} {before after : View Key Worker Time}
  {label : Option (Worker × Key)} {served : List (Worker × Key)} {pair : Worker × Key}

theorem Step.spent (step : Step waiting due before after label) (spent : Spent due before pair) :
    Spent due after pair ∧ label ≠ some pair := by
  obtain ⟨late, free⟩ := spent
  cases step with
  | choose other first last own rest =>
      refine ⟨⟨by rwa [last], ?_⟩, nofun⟩
      rename_i worker key
      by_cases same : pair.1 = worker
      · rw [same, own]
        rintro ⟨⟩
        exact absurd late (not_lt_of_ge first)
      · rwa [rest _ same]
  | serve own later last done rest =>
      rename_i worker key
      have different : (worker, key) ≠ pair := by
        rintro rfl
        exact free own
      refine ⟨⟨?_, ?_⟩, fun same => different (Option.some.inj same)⟩
      · rcases last pair.2 with same | later
        · rwa [same]
        · exact later
      · by_cases same : pair.1 = worker
        · rw [same, done]
          exact nofun
        · rwa [rest _ same]
  | pass last held =>
      refine ⟨⟨?_, ?_⟩, nofun⟩
      · rcases last pair.2 with same | later
        · rwa [same]
        · exact later
      · rcases held pair.1 with same | none
        · rwa [same]
        · rw [none]
          exact nofun

theorem Step.avoids (step : Step waiting due before after label) (avoids : Avoids waiting before) :
    Avoids waiting after ∧ ∀ pair ∈ label, pair.2 ≠ waiting := by
  cases step with
  | choose other first last own rest =>
      rename_i worker key
      refine ⟨fun one => ?_, by simp⟩
      by_cases same : one = worker
      · rw [same, own]
        exact fun equal => other (Option.some.inj equal)
      · rw [rest one same]
        exact avoids one
  | serve own later last done rest =>
      rename_i worker key
      refine ⟨fun one => ?_, ?_⟩
      · by_cases same : one = worker
        · rw [same, done]
          exact nofun
        · rw [rest one same]
          exact avoids one
      · rintro pair ⟨⟩ rfl
        exact avoids worker own
  | pass last held =>
      refine ⟨fun one => ?_, by simp⟩
      rcases held one with same | none
      · rw [same]
        exact avoids one
      · rw [none]
        exact nofun

theorem Run.not_mem_of_spent (run : Run waiting due before served after)
    (spent : Spent due before pair) : pair ∉ served := by
  induction run with
  | nil => exact List.not_mem_nil
  | cons step rest ih =>
      obtain ⟨stays, different⟩ := step.spent spent
      rw [List.mem_append, Option.mem_toList, not_or]
      exact ⟨fun here => different here, ih stays⟩

/-- No worker serves an entry twice. -/
theorem Run.nodup (run : Run waiting due before served after) : served.Nodup := by
  induction run with
  | nil => exact List.nodup_nil
  | cons step rest ih =>
      rename_i label served
      cases label with
      | none => exact ih
      | some pair =>
          refine List.nodup_cons.mpr ⟨rest.not_mem_of_spent ?_, ih⟩
          cases step with
          | serve own later last done others =>
              exact ⟨later, by rw [done]; exact nofun⟩

theorem Run.ne_waiting (run : Run waiting due before served after)
    (avoids : Avoids waiting before) : ∀ pair ∈ served, pair.2 ≠ waiting := by
  induction run with
  | nil => simp
  | cons step rest ih =>
      obtain ⟨stays, here⟩ := step.avoids avoids
      intro pair member
      rcases List.mem_append.mp member with now | later
      · exact here pair (Option.mem_toList.mp now)
      · exact ih stays pair later

/-- As long as an entry waits, each worker serves each other entry at most once. -/
theorem Run.length_served_le [Fintype Worker] [DecidableEq Key]
    (run : Run waiting due before served after) (avoids : Avoids waiting before)
    {keys : Finset Key} (within : ∀ pair ∈ served, pair.2 ∈ keys) :
    served.length ≤ Fintype.card Worker * (keys.erase waiting).card := by
  classical
  have subset : served.toFinset ⊆ Finset.univ ×ˢ keys.erase waiting := by
    intro pair member
    have listed := List.mem_toFinset.mp member
    rw [Finset.mem_product, Finset.mem_erase]
    exact ⟨Finset.mem_univ _, run.ne_waiting avoids pair listed, within pair listed⟩
  calc served.length = served.toFinset.card := (List.toFinset_card_of_nodup run.nodup).symm
    _ ≤ (Finset.univ ×ˢ keys.erase waiting).card := Finset.card_le_card subset
    _ = Fintype.card Worker * (keys.erase waiting).card := by
        rw [Finset.card_product, Finset.card_univ]

end LeastRecent
