import DotaCollector.Library.LeastRecent
import DotaCollector.Library.Rows
import DotaCollector.Library.Schedule
import DotaCollector.Resources.Health

/-!
# The rotation of the API keys

A worker takes the usable key which was used longest ago, a key never used first. The look at the
keys and the write of the use are two statements with the binding of a proxy in between, so several
workers may take one key at a time, and a call of a key stamps it as well. No key waits for ever:
while one stays usable and is left out, each worker takes each other key at most once.
-/

namespace DotaCollector
namespace Resources
namespace KeyRotation

open Schedule LeastRecent

/-- A row of `steam_api_keys`, with the question whether its account is ready or active. A key which
was never used comes first in the order of `lastUsedAt`. -/
structure ApiKey where
  id : Int
  resource : Resource := {}
  accountReady : Bool := true
  lastUsedAt : WithBot Nat := ⊥

def pickable (now : Nat) (key : ApiKey) : Bool :=
  Resources.pickable .apiKey now key.resource && key.accountReady

structure State (Process : Type*) where
  keys : Rows ApiKey.id := {}
  /-- The key which is selected and whose use is not yet written. -/
  picked : Process → Option Int

inductive Event (Process : Type*) where
  /-- The `SELECT` of `pickApiCredential`. -/
  | pick (process : Process) (keyId : Int) (now : Nat)
  /-- Its `UPDATE`. -/
  | take (process : Process) (now : Nat)
  /-- `ensureApiKeyProxy` throws. -/
  | abandon (process : Process)
  /-- The `UPDATE` of `acquireSteamApiSlot`. -/
  | called (keyId : Int) (now : Nat)
  /-- Any other write to the row of a key. -/
  | write (keyId : Int) (statement : Resource → Resource)
  | account (keyId : Int) (ready : Bool)
  | saveApiKey (keyId : Int)

variable {Process : Type*}

namespace State

/-- An `UPDATE` of one key. -/
def updateKey (state : State Process) (keyId : Int) (set : ApiKey → ApiKey)
    (same : ∀ key, (set key).id = key.id) : State Process :=
  { state with keys := state.keys.update keyId set same }

def setPicked [DecidableEq Process] (state : State Process) (process : Process)
    (keyId : Option Int) : State Process :=
  { state with picked := Function.update state.picked process keyId }

end State

/-- The key may come first in the `ORDER BY` of `pickApiCredential`. -/
def first (state : State Process) (keyId : Int) (now : Nat) : Bool :=
  (state.keys.find? keyId).any fun key =>
    pickable now key &&
      state.keys.list.all fun other => !pickable now other || key.lastUsedAt ≤ other.lastUsedAt

variable [DecidableEq Process]

def next (state : State Process) : Event Process → Option (State Process)
  | .pick process keyId now =>
      if state.picked process = none ∧ first state keyId now = true then
        some (state.setPicked process (some keyId))
      else none
  | .take process now =>
      (state.picked process).map fun keyId =>
        (state.setPicked process none).updateKey keyId
          (fun key => { key with resource := takeKey key.resource, lastUsedAt := WithBot.some now })
          fun _ => rfl
  | .abandon process => some (state.setPicked process none)
  | .called keyId now =>
      some (state.updateKey keyId (fun key => { key with lastUsedAt := WithBot.some now })
        fun _ => rfl)
  | .write keyId statement =>
      some (state.updateKey keyId (fun key => { key with resource := statement key.resource })
        fun _ => rfl)
  | .account keyId ready =>
      some (state.updateKey keyId (fun key => { key with accountReady := ready }) fun _ => rfl)
  | .saveApiKey keyId => some { state with keys := state.keys.insertNew { id := keyId } }

/-! ## The keys as the library sees them -/

namespace Event

/-- The time which a step writes into `last_used_at`. -/
def stamp? : Event Process → Option Nat
  | .take _ now | .called _ now => some now
  | _ => none

def isTake : Event Process → Bool
  | .take .. => true
  | _ => false

/-- The step selects the key or calls it. -/
def Uses (keyId : Int) : Event Process → Prop
  | .pick _ picked _ => picked = keyId
  | .called other _ => other = keyId
  | _ => False

/-- The key which a step writes the use of. -/
def served (state : State Process) : Event Process → Option (Process × Int)
  | .take process _ => (state.picked process).map fun keyId => (process, keyId)
  | _ => none

end Event

def State.view (state : State Process) : View Int Process Nat where
  last keyId := (state.keys.find? keyId).elim ⊥ ApiKey.lastUsedAt
  held := state.picked

def HasRow (keyId : Int) (state : State Process) : Prop := (state.keys.find? keyId).isSome

/-- Every key which is selected has a row. -/
def Present (state : State Process) : Prop :=
  ∀ process keyId, state.picked process = some keyId → HasRow keyId state

section View

omit [DecidableEq Process]

variable (state : State Process) (keyId : Int) (set : ApiKey → ApiKey)
  (same : ∀ key, (set key).id = key.id)

theorem last_updateKey (other : Int) : (state.updateKey keyId set same).view.last other =
    (state.keys.find? other).elim ⊥ fun key =>
      if other = keyId then (set key).lastUsedAt else key.lastUsedAt := by
  change ((state.keys.update keyId set same).find? other).elim _ _ = _
  rw [Rows.find?_update, Option.elim_map]
  congr 1
  funext key
  exact apply_ite ApiKey.lastUsedAt _ _ _

/-- A write which does not stamp the key. -/
theorem view_updateKey (kept : ∀ key, (set key).lastUsedAt = key.lastUsedAt) :
    (state.updateKey keyId set same).view = state.view := by
  refine congrArg (View.mk · state.picked) (funext fun other => ?_)
  refine (last_updateKey state keyId set same other).trans ?_
  simp only [kept, ite_self]

theorem last_of_ne {other : Int} (ne : other ≠ keyId) :
    (state.updateKey keyId set same).view.last other = state.view.last other := by
  rw [last_updateKey]
  simp only [if_neg ne]
  rfl

theorem last_self {now : Nat} (stamps : ∀ key, (set key).lastUsedAt = WithBot.some now)
    (there : HasRow keyId state) :
    (state.updateKey keyId set same).view.last keyId = WithBot.some now := by
  obtain ⟨key, found⟩ := Option.isSome_iff_exists.mp there
  rw [last_updateKey, found, Option.elim_some, if_pos rfl, stamps]

theorem last_stamped {now : Nat} (stamps : ∀ key, (set key).lastUsedAt = WithBot.some now)
    {due : WithBot Nat} (late : due < WithBot.some now) (other : Int) :
    (state.updateKey keyId set same).view.last other = state.view.last other ∨
      due < (state.updateKey keyId set same).view.last other := by
  rcases eq_or_ne other keyId with rfl | ne
  · cases found : state.keys.find? other with
    | none =>
        left
        rw [last_updateKey, found]
        simp [State.view, found]
    | some key =>
        right
        rwa [last_self state other set same stamps (by rw [HasRow, found]; rfl)]
  · exact .inl (last_of_ne state keyId set same ne)

theorem hasRow_updateKey {other : Int} :
    HasRow other (state.updateKey keyId set same) ↔ HasRow other state := by
  change ((state.keys.update keyId set same).find? other).isSome = true ↔ _
  rw [Rows.find?_update, Option.isSome_map]
  exact Iff.rfl

theorem view_insertNew :
    State.view { state with keys := state.keys.insertNew { id := keyId } } = state.view := by
  refine congrArg (View.mk · state.picked) (funext fun other => ?_)
  rw [Rows.find?_insertNew]
  cases found : state.keys.find? other with
  | some key => rfl
  | none =>
      rw [Option.none_or]
      split_ifs <;> rfl

end View

variable {state after : State Process} {event : Event Process} {keyId : Int}

/-- The key is not used by the step, which could select it. -/
structure Waits (keyId : Int) (due : WithBot Nat) (state : State Process)
    (event : Event Process) : Prop where
  usable : ∀ process picked now, event = .pick process picked now →
    (state.keys.find? keyId).any (pickable now) = true
  spared : ¬ event.Uses keyId
  late : ∀ now : Nat, event.stamp? = some now → due < WithBot.some now

theorem hasRow_next {other : Int} (there : HasRow other state)
    (step : next state event = some after) : HasRow other after := by
  cases event with
  | pick process picked now =>
      obtain ⟨-, same⟩ := Option.ite_none_right_eq_some.mp step
      cases same
      exact there
  | take process now =>
      obtain ⟨picked, held, rfl⟩ := Option.map_eq_some_iff.mp step
      exact (hasRow_updateKey ..).mpr there
  | abandon process =>
      cases step
      exact there
  | called | write | account =>
      cases step
      exact (hasRow_updateKey ..).mpr there
  | saveApiKey saved =>
      cases step
      rw [HasRow, Rows.find?_insertNew, Option.isSome_or, show _ = true from there]
      rfl

omit [DecidableEq Process] in
theorem hasRow_of_first {picked : Int} {now : Nat} (front : first state picked now = true) :
    HasRow picked state := by
  rw [first] at front
  rw [HasRow]
  cases found : state.keys.find? picked with
  | none => rw [found] at front; cases front
  | some key => rfl

theorem picked_next (step : next state event = some after) {process : Process} {held : Int}
    (holds : after.picked process = some held) :
    state.picked process = some held ∨ HasRow held state := by
  cases event with
  | pick worker picked now =>
      obtain ⟨⟨idle, front⟩, same⟩ := Option.ite_none_right_eq_some.mp step
      cases same
      rcases eq_or_ne process worker with rfl | ne
      · cases (Function.update_self ..).symm.trans holds
        exact .inr (hasRow_of_first front)
      · exact .inl ((Function.update_of_ne ne ..).symm.trans holds)
  | take worker now =>
      obtain ⟨picked, own, rfl⟩ := Option.map_eq_some_iff.mp step
      rcases eq_or_ne process worker with rfl | ne
      · cases (Function.update_self ..).symm.trans holds
      · exact .inl ((Function.update_of_ne ne ..).symm.trans holds)
  | abandon worker =>
      cases step
      rcases eq_or_ne process worker with rfl | ne
      · cases (Function.update_self ..).symm.trans holds
      · exact .inl ((Function.update_of_ne ne ..).symm.trans holds)
  | called | write | account | saveApiKey =>
      cases step
      exact .inl holds

theorem present_next (present : Present state) (step : next state event = some after) :
    Present after := by
  intro process held holds
  refine hasRow_next ?_ step
  rcases picked_next step holds with before | there
  · exact present process held before
  · exact there

omit [DecidableEq Process] in
/-- A key which could be selected was not used later than the one which is. -/
theorem last_le_of_first {picked : Int} {now : Nat} (front : first state picked now = true)
    (usable : (state.keys.find? keyId).any (pickable now) = true) :
    state.view.last picked ≤ state.view.last keyId := by
  rw [first] at front
  cases found : state.keys.find? picked with
  | none => rw [found] at front; cases front
  | some key =>
      cases waiting : state.keys.find? keyId with
      | none => rw [waiting] at usable; cases usable
      | some other =>
          rw [found, Option.any_some, Bool.and_eq_true, List.all_eq_true] at front
          rw [waiting, Option.any_some] at usable
          have least := front.2 other (Rows.find?_eq_some_iff.mp waiting).1
          rw [usable, Bool.not_true, Bool.false_or, decide_eq_true_eq] at least
          simpa only [State.view, found, waiting, Option.elim_some] using least

theorem step_of_next (step : next state event = some after) (present : Present state)
    (avoids : Avoids keyId state.view) (waits : Waits keyId (state.view.last keyId) state event) :
    Step keyId (state.view.last keyId) state.view after.view (event.served state) ∧
      after.view.last keyId = state.view.last keyId := by
  cases event with
  | pick process picked now =>
      obtain ⟨⟨idle, front⟩, same⟩ := Option.ite_none_right_eq_some.mp step
      cases same
      have first := last_le_of_first front (waits.usable process picked now rfl)
      refine ⟨.choose waits.spared first rfl (Function.update_self process _ _) ?_, rfl⟩
      exact fun other ne => Function.update_of_ne ne ..
  | take process now =>
      obtain ⟨picked, held, rfl⟩ := Option.map_eq_some_iff.mp step
      have other : keyId ≠ picked := fun same => avoids process (same ▸ held)
      refine ⟨?_, last_of_ne _ _ _ _ other⟩
      rw [Event.served, held, Option.map_some]
      have late := waits.late now rfl
      refine .serve held ?_ ?_ (Function.update_self ..) fun other ne => Function.update_of_ne ne ..
      · have there := present process picked held
        exact late.trans_eq (last_self _ _ _ _ (fun _ => rfl) there).symm
      · exact last_stamped _ _ _ _ (fun _ => rfl) late
  | abandon process =>
      cases step
      refine ⟨.pass (fun _ => .inl rfl) fun other => ?_, rfl⟩
      rcases eq_or_ne other process with rfl | ne
      · exact .inr (Function.update_self ..)
      · exact .inl (Function.update_of_ne ne ..)
  | called called now =>
      cases step
      have spared : called ≠ keyId := waits.spared
      refine ⟨.pass (fun other => ?_) fun _ => .inl rfl, last_of_ne _ _ _ _ spared.symm⟩
      exact last_stamped _ _ _ _ (fun _ => rfl) (waits.late now rfl) other
  | write written statement =>
      cases step
      rw [view_updateKey state written (fun key => { key with resource := statement key.resource })
        (fun _ => rfl) fun _ => rfl]
      exact ⟨.pass (fun _ => .inl rfl) fun _ => .inl rfl, rfl⟩
  | account written ready =>
      cases step
      rw [view_updateKey state written (fun key => { key with accountReady := ready })
        (fun _ => rfl) fun _ => rfl]
      exact ⟨.pass (fun _ => .inl rfl) fun _ => .inl rfl, rfl⟩
  | saveApiKey saved =>
      cases step
      rw [view_insertNew]
      exact ⟨.pass (fun _ => .inl rfl) fun _ => .inl rfl, rfl⟩

/-! ## Runs -/

theorem length_served (step : next state event = some after) :
    (event.served state).toList.length = if event.isTake then 1 else 0 := by
  cases event with
  | take process now =>
      obtain ⟨picked, held, -⟩ := Option.map_eq_some_iff.mp step
      rw [Event.served, held]
      rfl
  | _ => rfl

theorem hasRow_run {final : State Process} {events : List (Event Process)} {other : Int}
    (there : HasRow other state) (execution : run next state events = some final) :
    HasRow other final := by
  refine run_invariant (fun there step => ?_) there execution
  exact hasRow_next there step

/-- While a key waits, a run of the system is one of the library, with as many uses as it has
written. -/
theorem run_of_waits {final : State Process} {events : List (Event Process)} {due : WithBot Nat}
    (execution : run next state events = some final)
    (waits : Throughout next (Waits keyId due) state events) (present : Present state)
    (avoids : Avoids keyId state.view) (since : state.view.last keyId = due) :
    ∃ served, Run keyId due state.view served final.view ∧
      served.length = events.countP Event.isTake ∧
      ∀ pair ∈ served, HasRow pair.2 final := by
  induction events generalizing state with
  | nil =>
      cases execution
      exact ⟨[], .nil, rfl, by simp⟩
  | cons event events ih =>
      obtain ⟨after, step, rest⟩ := run_cons_eq_some.mp execution
      subst since
      obtain ⟨abstract, since⟩ := step_of_next step present avoids waits.1
      obtain ⟨served, run, length, within⟩ := ih rest (waits.2 after step)
        (present_next present step) (abstract.avoids avoids).1 since
      refine ⟨_, .cons abstract run, ?_, fun pair member => ?_⟩
      · rw [List.length_append, length_served step, length, List.countP_cons, Nat.add_comm]
      · rcases List.mem_append.mp member with now | later
        · cases event with
          | take process now =>
              obtain ⟨picked, held, -⟩ := Option.map_eq_some_iff.mp step
              rw [Event.served, held] at now
              rw [List.mem_singleton.mp now]
              exact hasRow_run (present process picked held) execution
          | _ => cases now
        · exact within pair later

/-- From every reachable state in which no worker has the key, and in whatever order the workers
select, bind, give up, call and write, all of them later than the last use of the key: if the key
could be selected at every selection and the workers write more uses than there are pairs of a
worker and another key, then the key is selected or called. -/
theorem used_in_turn [Fintype Process] {front events : List (Event Process)}
    {state final : State Process} (keyId : Int)
    (reached : run next { picked := fun _ => none } front = some state)
    (execution : run next state events = some final)
    (there : HasRow keyId state)
    (free : ∀ process, state.picked process ≠ some keyId)
    (usable : Throughout next (fun state event => ∀ process picked now,
      event = .pick process picked now →
        (state.keys.find? keyId).any (pickable now) = true) state events)
    (late : ∀ event ∈ events, ∀ now : Nat, event.stamp? = some now →
      state.view.last keyId < WithBot.some now)
    (many : Fintype.card Process * (final.keys.list.length - 1) < events.countP Event.isTake) :
    ∃ event ∈ events, event.Uses keyId := by
  by_contra unused
  push Not at unused
  have present : Present state := by
    refine run_invariant (fun present step => present_next present step) ?_ reached
    intro process held holds
    cases holds
  have waits : Throughout next (Waits keyId (state.view.last keyId)) state events := by
    rw [throughout_iff] at usable ⊢
    intro before event back middle split execution
    have member : event ∈ events := by
      rw [split]
      exact List.mem_append_right _ List.mem_cons_self
    exact ⟨usable before event back middle split execution, unused event member,
      late event member⟩
  obtain ⟨served, run, length, within⟩ := run_of_waits execution waits present free rfl
  have listed {other : Int} (found : HasRow other final) :
      other ∈ (final.keys.list.map ApiKey.id).toFinset := by
    obtain ⟨key, found⟩ := Option.isSome_iff_exists.mp found
    obtain ⟨member, rfl⟩ := Rows.find?_eq_some_iff.mp found
    exact List.mem_toFinset.mpr (List.mem_map_of_mem member)
  have bound := run.length_served_le free fun pair member => listed (within pair member)
  rw [Finset.card_erase_of_mem (listed (hasRow_run there execution)),
    List.toFinset_card_of_nodup final.keys.nodup, List.length_map, length] at bound
  exact Nat.not_lt.mpr bound many

/-- Two keys and one worker, who takes the first key and then the second. -/
theorem used_in_turn_twoKeys :
    ∃ event ∈ [Event.pick () 1 10, .take () 11, .pick () 2 12, .take () 13],
      event.Uses (2 : Int) := by
  have reached : run next { picked := fun _ => none } [.saveApiKey 1, .saveApiKey 2] = some
      ({ keys := { list := [{ id := 1 }, { id := 2 }] }, picked := fun _ => none } : State Unit) :=
    rfl
  refine used_in_turn 2 reached rfl rfl nofun ?_ ?_ ?_
  · refine ⟨fun _ _ _ same => ?_, fun taken step => ⟨nofun, fun back used => ⟨?_, ?_⟩⟩⟩
    · cases same
      decide
    · cases step
      cases used
      rintro _ _ _ ⟨⟩
      decide
    · exact fun _ _ => ⟨nofun, fun _ _ => trivial⟩
  · intro event member now stamps
    exact WithBot.bot_lt_coe now
  · decide

end KeyRotation
end Resources
end DotaCollector
