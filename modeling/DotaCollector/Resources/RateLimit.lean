import Mathlib.Data.List.Pairwise
import Mathlib.Logic.Function.Basic
import DotaCollector.Library.Schedule

/-!
# The call spacing of an API key

Workers take turns on the row of a Steam API key: a transaction locks the row, reads when the key
was last called and the clock, and either grants the call and writes `now()` or tells how long to
wait. `now()` is the time the transaction began, which lies before the lock wait, so the row may
hold an older time than the one of the grant. The next caller is then let through too early.
Times are milliseconds of one clock.
-/

namespace DotaCollector
namespace RateLimit

inductive ApiCallPurpose where
  | live
  | historical
  deriving DecidableEq, Repr

/-- When a caller that has read the clock may call. -/
def readyAt (minInterval : Nat) (purpose : ApiCallPurpose) (last nextLive : Option Nat)
    (now : Nat) : Nat :=
  let ready :=
    match last with
    | some last => max now (last + minInterval)
    | none => now
  match purpose, nextLive with
  | .historical, some nextLive =>
      if now < nextLive ∧ ready < nextLive ∧ nextLive - ready < minInterval then nextLive + 50
      else ready
  | _, _ => ready

/-- Where a worker is in `acquireSteamApiSlot`. -/
inductive Phase where
  | idle
  /-- The transaction has begun and waits for the lock of the row. -/
  | waiting (purpose : ApiCallPurpose) (began : Nat)
  | locked (purpose : ApiCallPurpose) (began : Nat)
  /-- `last_called_at` and the clock have been read. -/
  | timed (purpose : ApiCallPurpose) (began : Nat) (last : Option Nat) (now : Nat)
  /-- The call is granted and the row is still to be written. -/
  | granted (began now : Nat)
  | updated (began now : Nat)
  deriving DecidableEq, Repr

/-- A grant: the time its transaction began, and the time it was decided. -/
structure Grant where
  began : Nat
  time : Nat
  deriving DecidableEq, Repr

/-- The row of the key, the cursor of the live poll, the workers, and the grants, newest first. -/
structure State where
  clock : Nat
  lastCalledAt : Option Nat
  nextLivePollAt : Option Nat := none
  lockedBy : Option Nat := none
  phase : Nat → Phase := fun _ => .idle
  grants : List Grant := []

inductive Event where
  | tick (ms : Nat)
  | setNextLivePollAt (value : Option Nat)
  | begin (worker : Nat) (purpose : ApiCallPurpose)
  | lock (worker : Nat)
  | read (worker : Nat)
  | decide (worker : Nat)
  | update (worker : Nat)
  | commit (worker : Nat)
  | abort (worker : Nat)
  deriving DecidableEq, Repr

namespace State

def setPhase (state : State) (worker : Nat) (phase : Phase) : State :=
  { state with phase := Function.update state.phase worker phase }

/-- The end of a transaction releases its lock. -/
def close (state : State) (worker : Nat) : State :=
  { state.setPhase worker .idle with
    lockedBy := if state.lockedBy = some worker then none else state.lockedBy }

end State

/-- One step; a worker that was told to wait starts again with a new transaction. -/
def next (minInterval : Nat) (state : State) : Event → Option State
  | .tick ms => some { state with clock := state.clock + ms }
  | .setNextLivePollAt value => some { state with nextLivePollAt := value }
  | .begin worker purpose =>
      match state.phase worker with
      | .idle => some (state.setPhase worker (.waiting purpose state.clock))
      | _ => none
  | .lock worker =>
      match state.phase worker, state.lockedBy with
      | .waiting purpose began, none =>
          some { state.setPhase worker (.locked purpose began) with lockedBy := some worker }
      | _, _ => none
  | .read worker =>
      match state.phase worker with
      | .locked purpose began =>
          some (state.setPhase worker (.timed purpose began state.lastCalledAt state.clock))
      | _ => none
  | .decide worker =>
      match state.phase worker with
      | .timed purpose began last now =>
          if now < readyAt minInterval purpose last state.nextLivePollAt now then
            some (state.close worker)
          else some (state.setPhase worker (.granted began now))
      | _ => none
  | .update worker =>
      match state.phase worker with
      | .granted began now => some (state.setPhase worker (.updated began now))
      | _ => none
  | .commit worker =>
      match state.phase worker with
      | .updated began now =>
          some
            { state.close worker with
              lastCalledAt := some began
              grants := { began, time := now } :: state.grants }
      | _ => none
  | .abort worker =>
      match state.phase worker with
      | .idle => none
      | _ => some (state.close worker)

/-! ## What a step can do -/

/-- The steps of the system, each with its guard and its successor. -/
inductive Moves (minInterval : Nat) (state : State) : Event → State → Prop where
  | tick (ms : Nat) : Moves minInterval state (.tick ms) { state with clock := state.clock + ms }
  | setNextLivePollAt (value : Option Nat) :
      Moves minInterval state (.setNextLivePollAt value) { state with nextLivePollAt := value }
  | begin {worker : Nat} {purpose : ApiCallPurpose} (idle : state.phase worker = .idle) :
      Moves minInterval state (.begin worker purpose)
        (state.setPhase worker (.waiting purpose state.clock))
  | lock {worker : Nat} {purpose : ApiCallPurpose} {began : Nat}
      (waiting : state.phase worker = .waiting purpose began) (free : state.lockedBy = none) :
      Moves minInterval state (.lock worker)
        { state.setPhase worker (.locked purpose began) with lockedBy := some worker }
  | read {worker : Nat} {purpose : ApiCallPurpose} {began : Nat}
      (locked : state.phase worker = .locked purpose began) :
      Moves minInterval state (.read worker)
        (state.setPhase worker (.timed purpose began state.lastCalledAt state.clock))
  | refuse {worker : Nat} {purpose : ApiCallPurpose} {began now : Nat} {last : Option Nat}
      (timed : state.phase worker = .timed purpose began last now)
      (early : now < readyAt minInterval purpose last state.nextLivePollAt now) :
      Moves minInterval state (.decide worker) (state.close worker)
  | grant {worker : Nat} {purpose : ApiCallPurpose} {began now : Nat} {last : Option Nat}
      (timed : state.phase worker = .timed purpose began last now)
      (ready : readyAt minInterval purpose last state.nextLivePollAt now ≤ now) :
      Moves minInterval state (.decide worker) (state.setPhase worker (.granted began now))
  | update {worker began now : Nat} (granted : state.phase worker = .granted began now) :
      Moves minInterval state (.update worker) (state.setPhase worker (.updated began now))
  | commit {worker began now : Nat} (updated : state.phase worker = .updated began now) :
      Moves minInterval state (.commit worker)
        { state.close worker with
          lastCalledAt := some began
          grants := { began, time := now } :: state.grants }
  | abort {worker : Nat} (busy : state.phase worker ≠ .idle) :
      Moves minInterval state (.abort worker) (state.close worker)

variable {minInterval : Nat} {state after : State} {event : Event}

theorem moves_of_next (step : next minInterval state event = some after) :
    Moves minInterval state event after := by
  cases event with
  | tick ms =>
      cases step
      exact .tick ms
  | setNextLivePollAt value =>
      cases step
      exact .setNextLivePollAt value
  | begin worker purpose =>
      simp only [next] at step
      split at step
      · cases step
        exact .begin ‹_›
      · cases step
  | lock worker =>
      simp only [next] at step
      split at step
      · cases step
        exact .lock ‹_› ‹_›
      · cases step
  | read worker =>
      simp only [next] at step
      split at step
      · cases step
        exact .read ‹_›
      · cases step
  | decide worker =>
      simp only [next] at step
      split at step
      · split at step
        · cases step
          exact .refuse ‹_› ‹_›
        · cases step
          exact .grant ‹_› (by omega)
      · cases step
  | update worker =>
      simp only [next] at step
      split at step
      · cases step
        exact .update ‹_›
      · cases step
  | commit worker =>
      simp only [next] at step
      split at step
      · cases step
        exact .commit ‹_›
      · cases step
  | abort worker =>
      simp only [next] at step
      split at step
      · cases step
      · cases step
        exact .abort (by assumption)

/-! ## The lock -/

/-- The phases which hold the lock of the row. -/
def Phase.holdsLock : Phase → Bool
  | .idle | .waiting _ _ => false
  | .locked _ _ | .timed _ _ _ _ | .granted _ _ | .updated _ _ => true

/-- A worker which holds the lock is the one the row names. -/
def Exclusive (state : State) : Prop :=
  ∀ worker, (state.phase worker).holdsLock = true → state.lockedBy = some worker

theorem phase_setPhase (state : State) (worker : Nat) (phase : Phase) (other : Nat) :
    (state.setPhase worker phase).phase other =
      if other = worker then phase else state.phase other :=
  Function.update_apply ..

theorem phase_close (state : State) (worker other : Nat) :
    (state.close worker).phase other = if other = worker then .idle else state.phase other :=
  phase_setPhase state worker .idle other

/-- Moving on inside a transaction keeps the lock. -/
theorem Exclusive.setPhase (exclusive : Exclusive state) {worker : Nat} {phase : Phase}
    (held : phase.holdsLock = true → state.lockedBy = some worker) :
    Exclusive (state.setPhase worker phase) := by
  intro other holds
  rw [phase_setPhase] at holds
  split_ifs at holds with same
  · subst same
    exact held holds
  · exact exclusive other holds

theorem Exclusive.close (exclusive : Exclusive state) (worker : Nat) :
    Exclusive (state.close worker) := by
  intro other holds
  rw [phase_close] at holds
  split_ifs at holds with same
  · cases holds
  · have held := exclusive other holds
    have ne : state.lockedBy ≠ some worker := by
      rw [held]
      simpa using same
    change (if state.lockedBy = some worker then none else state.lockedBy) = some other
    rw [if_neg ne, held]

theorem Exclusive.next (exclusive : Exclusive state)
    (step : RateLimit.next minInterval state event = some after) : Exclusive after := by
  cases moves_of_next step with
  | tick | setNextLivePollAt => exact exclusive
  | begin idle => exact exclusive.setPhase (by simp [Phase.holdsLock])
  | lock waiting free =>
      intro other holds
      rename_i worker purpose began
      change ((state.setPhase worker (.locked purpose began)).phase other).holdsLock = true at holds
      rw [phase_setPhase] at holds
      split_ifs at holds with same
      · rw [same]
      · have held := exclusive other holds
        rw [free] at held
        cases held
  | read locked => exact exclusive.setPhase fun _ => exclusive _ (by rw [locked]; rfl)
  | grant timed ready => exact exclusive.setPhase fun _ => exclusive _ (by rw [timed]; rfl)
  | update granted => exact exclusive.setPhase fun _ => exclusive _ (by rw [granted]; rfl)
  | refuse | abort => exact exclusive.close _
  | commit updated => exact exclusive.close _

theorem Exclusive.eq (exclusive : Exclusive state) {worker other : Nat}
    (holds : (state.phase worker).holdsLock = true)
    (others : (state.phase other).holdsLock = true) : other = worker :=
  Option.some.inj ((exclusive other others).symm.trans (exclusive worker holds))

/-! ## What the row says of the last grant -/

/-- The stored time is the beginning of the last transaction which granted, and whoever holds the
lock has read it and calls an interval after it. -/
structure Recorded (minInterval : Nat) (state : State) : Prop where
  exclusive : Exclusive state
  stored : ∀ grant ∈ state.grants.head?, state.lastCalledAt = some grant.began
  current : ∀ worker purpose began last now,
    state.phase worker = .timed purpose began last now → last = state.lastCalledAt
  due : ∀ worker began now,
    state.phase worker = .granted began now ∨ state.phase worker = .updated began now →
      ∀ last ∈ state.lastCalledAt, last + minInterval ≤ now

theorem le_readyAt (minInterval : Nat) (purpose : ApiCallPurpose) {last : Option Nat}
    (nextLive : Option Nat) (now : Nat) {called : Nat} (known : last = some called) :
    called + minInterval ≤ readyAt minInterval purpose last nextLive now := by
  subst known
  have ready : called + minInterval ≤ max now (called + minInterval) := Nat.le_max_right _ _
  cases purpose with
  | live => exact ready
  | historical =>
      cases nextLive with
      | none => exact ready
      | some nextLive =>
          simp only [readyAt]
          split_ifs
          · omega
          · exact ready

/-- A phase which another worker's step leaves alone, or the one it enters. -/
theorem phase_eq_of_setPhase {worker other : Nat} {phase found : Phase}
    (stands : (state.setPhase worker phase).phase other = found) :
    other = worker ∧ phase = found ∨ state.phase other = found := by
  rw [phase_setPhase] at stands
  split_ifs at stands with same
  · exact .inl ⟨same, stands⟩
  · exact .inr stands

theorem Recorded.setPhase (recorded : Recorded minInterval state) {worker : Nat} {phase : Phase}
    (held : phase.holdsLock = true → state.lockedBy = some worker)
    (current : ∀ purpose began last now, phase = .timed purpose began last now →
      last = state.lastCalledAt)
    (due : ∀ began now, phase = .granted began now ∨ phase = .updated began now →
      ∀ last ∈ state.lastCalledAt, last + minInterval ≤ now) :
    Recorded minInterval (state.setPhase worker phase) where
  exclusive := recorded.exclusive.setPhase held
  stored := recorded.stored
  current other purpose began last now stands := by
    rcases phase_eq_of_setPhase stands with ⟨-, entered⟩ | before
    · exact current purpose began last now entered
    · exact recorded.current other purpose began last now before
  due other began now stands := by
    rcases stands with stands | stands
    · rcases phase_eq_of_setPhase stands with ⟨-, entered⟩ | before
      · exact due began now (.inl entered)
      · exact recorded.due other began now (.inl before)
    · rcases phase_eq_of_setPhase stands with ⟨-, entered⟩ | before
      · exact due began now (.inr entered)
      · exact recorded.due other began now (.inr before)

theorem Recorded.close (recorded : Recorded minInterval state) (worker : Nat) :
    Recorded minInterval (state.close worker) where
  exclusive := recorded.exclusive.close worker
  stored := recorded.stored
  current other purpose began last now stands := by
    rcases phase_eq_of_setPhase stands with ⟨-, ⟨⟩⟩ | before
    exact recorded.current other purpose began last now before
  due other began now stands := by
    rcases stands with stands | stands
    · rcases phase_eq_of_setPhase stands with ⟨-, ⟨⟩⟩ | before
      exact recorded.due other began now (.inl before)
    · rcases phase_eq_of_setPhase stands with ⟨-, ⟨⟩⟩ | before
      exact recorded.due other began now (.inr before)

/-- Nobody else is between its lock and its commit when a grant is committed. -/
theorem Recorded.commit (recorded : Recorded minInterval state) {worker began now : Nat}
    (updated : state.phase worker = .updated began now) :
    Recorded minInterval
      { state.close worker with
        lastCalledAt := some began
        grants := { began, time := now } :: state.grants } := by
  have closed := recorded.close worker
  have alone {other : Nat} {phase : Phase} (stands : (state.close worker).phase other = phase)
      (holds : phase.holdsLock = true) : False := by
    rcases phase_eq_of_setPhase stands with ⟨-, rfl⟩ | before
    · cases holds
    · have same : other = worker :=
        recorded.exclusive.eq (by rw [updated]; rfl) (by rw [before]; exact holds)
      subst same
      have entered := phase_close state other other
      rw [if_pos rfl, stands] at entered
      rw [entered] at holds
      cases holds
  exact
    { exclusive := closed.exclusive
      stored := by
        rintro grant ⟨⟩
        rfl
      current := fun other purpose began last now stands => (alone stands rfl).elim
      due := by
        rintro other began now (stands | stands)
        · exact (alone stands rfl).elim
        · exact (alone stands rfl).elim }

theorem Recorded.next (recorded : Recorded minInterval state)
    (step : RateLimit.next minInterval state event = some after) : Recorded minInterval after := by
  have exclusive := recorded.exclusive.next step
  cases moves_of_next step with
  | tick | setNextLivePollAt =>
      exact ⟨exclusive, recorded.stored, recorded.current, recorded.due⟩
  | begin idle => exact recorded.setPhase (by simp [Phase.holdsLock]) (by simp) (by simp)
  | @lock worker purpose began waiting free =>
      have entered : Recorded minInterval
          { state.setPhase worker (.locked purpose began) with lockedBy := some worker } :=
        { exclusive
          stored := recorded.stored
          current := fun other purpose began last now stands => by
            rcases phase_eq_of_setPhase stands with ⟨-, ⟨⟩⟩ | before
            exact recorded.current other purpose began last now before
          due := fun other began now stands => by
            rcases stands with stands | stands
            · rcases phase_eq_of_setPhase stands with ⟨-, ⟨⟩⟩ | before
              exact recorded.due other began now (.inl before)
            · rcases phase_eq_of_setPhase stands with ⟨-, ⟨⟩⟩ | before
              exact recorded.due other began now (.inr before) }
      exact entered
  | read locked =>
      refine recorded.setPhase (fun _ => recorded.exclusive _ (by rw [locked]; rfl)) ?_ (by simp)
      rintro purpose began last now ⟨⟩
      rfl
  | refuse | abort => exact recorded.close _
  | @grant worker purpose began now last timed ready =>
      refine recorded.setPhase (fun _ => recorded.exclusive _ (by rw [timed]; rfl)) (by simp) ?_
      rintro _ _ (⟨⟨⟩⟩ | ⟨⟨⟩⟩) called known
      have read := recorded.current worker purpose began last now timed
      have due := le_readyAt minInterval purpose state.nextLivePollAt now (read.trans known)
      omega
  | @update worker began now granted =>
      refine recorded.setPhase (fun _ => recorded.exclusive _ (by rw [granted]; rfl)) (by simp) ?_
      rintro _ _ (⟨⟨⟩⟩ | ⟨⟨⟩⟩)
      exact recorded.due worker began now (.inl granted)
  | commit updated => exact recorded.commit updated

/-! ## The spacing of the grants -/

/-- Any two grants are an interval apart. -/
def Spaced (minInterval : Nat) (grants : List Grant) : Prop :=
  grants.Pairwise fun later earlier => earlier.time + minInterval ≤ later.time

instance (minInterval : Nat) (grants : List Grant) : Decidable (Spaced minInterval grants) :=
  inferInstanceAs (Decidable (grants.Pairwise _))

/-- A transaction which grants has read the clock in the instant in which it began: it did not
wait for the lock of the row. -/
def prompt (minInterval : Nat) (state : State) : Event → Bool
  | .decide worker =>
      match state.phase worker with
      | .timed purpose began last now =>
          now < readyAt minInterval purpose last state.nextLivePollAt now || began = now
      | _ => true
  | _ => true

/-- As long as every grant is prompt, the stored time is the one of the last grant. -/
structure Punctual (minInterval : Nat) (state : State) : Prop where
  recorded : Recorded minInterval state
  pending : ∀ worker began now,
    state.phase worker = .granted began now ∨ state.phase worker = .updated began now →
      began = now
  punctual : ∀ grant ∈ state.grants, grant.began = grant.time
  spaced : Spaced minInterval state.grants

theorem Spaced.cons {grants : List Grant} {began time : Nat} (spaced : Spaced minInterval grants)
    (last : ∀ grant ∈ grants.head?, grant.time + minInterval ≤ time) :
    Spaced minInterval ({ began, time } :: grants) := by
  refine List.pairwise_cons.mpr ⟨?_, spaced⟩
  cases grants with
  | nil => simp
  | cons first older =>
      have newest := last first rfl
      intro grant member
      rcases List.mem_cons.mp member with rfl | old
      · exact newest
      · have before := (List.pairwise_cons.mp spaced).1 grant old
        change grant.time + minInterval ≤ time
        omega

theorem Punctual.next (punctual : Punctual minInterval state)
    (instant : prompt minInterval state event = true)
    (step : RateLimit.next minInterval state event = some after) :
    Punctual minInterval after := by
  have recorded := punctual.recorded.next step
  have moved {worker : Nat} {phase : Phase}
      (entered : ∀ began now, phase = .granted began now ∨ phase = .updated began now →
        began = now) (other began now : Nat)
      (stands : (state.setPhase worker phase).phase other = .granted began now ∨
        (state.setPhase worker phase).phase other = .updated began now) : began = now := by
    rcases stands with stands | stands
    · rcases phase_eq_of_setPhase stands with ⟨-, same⟩ | before
      · exact entered began now (.inl same)
      · exact punctual.pending other began now (.inl before)
    · rcases phase_eq_of_setPhase stands with ⟨-, same⟩ | before
      · exact entered began now (.inr same)
      · exact punctual.pending other began now (.inr before)
  cases moves_of_next step with
  | tick | setNextLivePollAt =>
      exact ⟨recorded, punctual.pending, punctual.punctual, punctual.spaced⟩
  | begin | lock | read | refuse | abort =>
      exact ⟨recorded, moved (by simp), punctual.punctual, punctual.spaced⟩
  | @grant worker purpose began now last timed ready =>
      have same : began = now := by
        simp only [prompt, timed, Bool.or_eq_true, decide_eq_true_eq] at instant
        omega
      refine ⟨recorded, moved ?_, punctual.punctual, punctual.spaced⟩
      rintro _ _ (⟨⟨⟩⟩ | ⟨⟨⟩⟩)
      exact same
  | @update worker began now granted =>
      refine ⟨recorded, moved ?_, punctual.punctual, punctual.spaced⟩
      rintro _ _ (⟨⟨⟩⟩ | ⟨⟨⟩⟩)
      exact punctual.pending worker began now (.inl granted)
  | @commit worker began now updated =>
      have instant := punctual.pending worker began now (.inr updated)
      refine ⟨recorded, moved (by simp), ?_, ?_⟩
      · intro grant member
        rcases List.mem_cons.mp member with rfl | old
        · exact instant
        · exact punctual.punctual grant old
      · refine punctual.spaced.cons fun grant newest => ?_
        have stored := punctual.recorded.stored grant newest
        have due := punctual.recorded.due worker began now (.inr updated) grant.began stored
        have exact := punctual.punctual grant (List.mem_of_mem_head? newest)
        omega

/-- No worker is in a transaction and nothing has been granted yet. -/
def initial (clock : Nat) (lastCalledAt nextLivePollAt : Option Nat) : State :=
  { clock, lastCalledAt, nextLivePollAt }

theorem recorded_initial (minInterval clock : Nat) (lastCalledAt nextLivePollAt : Option Nat) :
    Recorded minInterval (initial clock lastCalledAt nextLivePollAt) where
  exclusive worker holds := by cases holds
  stored grant newest := by cases newest
  current worker purpose began last now stands := by cases stands
  due worker began now stands := by rcases stands with ⟨⟨⟩⟩ | ⟨⟨⟩⟩

theorem punctual_initial (minInterval clock : Nat) (lastCalledAt nextLivePollAt : Option Nat) :
    Punctual minInterval (initial clock lastCalledAt nextLivePollAt) where
  recorded := recorded_initial minInterval clock lastCalledAt nextLivePollAt
  pending worker began now stands := by rcases stands with ⟨⟨⟩⟩ | ⟨⟨⟩⟩
  punctual grant member := by cases member
  spaced := List.Pairwise.nil

/-- What the limiter ensures in every run: a grant comes an interval after the transaction of the
grant before it began. -/
theorem commit_due {minInterval clock : Nat} {lastCalledAt nextLivePollAt : Option Nat}
    {events : List Event} {worker began now : Nat} {grant : Grant}
    (execution : Schedule.run (next minInterval) (initial clock lastCalledAt nextLivePollAt)
      events = some state)
    (updated : state.phase worker = .updated began now) (newest : grant ∈ state.grants.head?) :
    grant.began + minInterval ≤ now := by
  have recorded : Recorded minInterval state :=
    Schedule.run_invariant (fun held step => held.next step)
      (recorded_initial minInterval clock lastCalledAt nextLivePollAt) execution
  exact recorded.due worker began now (.inr updated) grant.began (recorded.stored grant newest)

/-- In a run in which no granting transaction waits, the grants are spaced. -/
theorem grants_spaced_of_prompt (minInterval clock : Nat) (lastCalledAt nextLivePollAt : Option Nat)
    (events : List Event) (final : State)
    (instant : Schedule.Throughout (next minInterval)
      (fun state event => prompt minInterval state event = true)
      (initial clock lastCalledAt nextLivePollAt) events)
    (execution : Schedule.run (next minInterval) (initial clock lastCalledAt nextLivePollAt)
      events = some final) : Spaced minInterval final.grants := by
  have punctual : Punctual minInterval final :=
    instant.run_invariant (fun held guard step => held.next guard step)
      (punctual_initial minInterval clock lastCalledAt nextLivePollAt) execution
  exact punctual.spaced

/-- A worker's transaction from its beginning to its commit. -/
def transaction (worker : Nat) (purpose : ApiCallPurpose) : List Event :=
  [.begin worker purpose, .lock worker, .read worker, .decide worker, .update worker,
    .commit worker]

/-- Two workers which do not meet. -/
theorem grants_spaced_of_prompt_pair : ∃ final,
    Schedule.run (next 1000) (initial 0 none none)
      (transaction 1 .live ++ .tick 1000 :: transaction 2 .historical) = some final ∧
    final.grants = [⟨1000, 1000⟩, ⟨0, 0⟩] ∧ Spaced 1000 final.grants := by
  refine ⟨_, rfl, rfl, ?_⟩
  exact grants_spaced_of_prompt 1000 0 none none
    (transaction 1 .live ++ .tick 1000 :: transaction 2 .historical) _ (by decide) rfl

/-- Three workers begin together; the second and the third wait for the row and write the time at
which they began, so the third calls one millisecond after the second. -/
theorem waiting_workers_call_together : ∃ final,
    Schedule.run (next 1000) (initial 0 none none)
      [.begin 1 .live, .begin 2 .live, .begin 3 .live,
        .lock 1, .read 1, .decide 1, .update 1, .tick 1000, .commit 1,
        .lock 2, .read 2, .decide 2, .update 2, .commit 2, .tick 1,
        .lock 3, .read 3, .decide 3, .update 3, .commit 3] = some final ∧
    final.grants = [⟨0, 1001⟩, ⟨0, 1000⟩, ⟨0, 0⟩] ∧ ¬ Spaced 1000 final.grants := by
  refine ⟨_, rfl, rfl, ?_⟩
  decide

end RateLimit
end DotaCollector
