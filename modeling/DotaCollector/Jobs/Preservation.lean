import DotaCollector.Jobs.Tracking

/-!
# A step keeps the track of a job

While nothing of a job is lost on the way from one row to the next, every step of the system keeps
the job carried by one row, until it has come to its end.
-/

namespace DotaCollector
namespace Jobs

open JobQueue

variable {env : Environment} {job : QueuedJob} {owner id : Nat} {state after : State} {row : Row}

/-- Nothing of the job is lost at this step: nobody else enqueues under its keys, its waiter does
not throw, its next try can be parked, and a worker of its rows crashes only behind the task and
whatever that adds, or in the last execution. -/
def Sheltered (job : QueuedJob) (owner : Nat) (state : State) : Event → Prop
  | .enqueue other input => other ≠ owner ∧ job.Apart (enqueueJob state.clock input).key
  | .throw id _ => ∀ row ∈ state.table.jobs id, row.payload.owner = owner →
      row.identifier ≠ scheduledJob
  | .add id => ∀ row ∈ state.table.jobs id, row.payload.owner ≠ owner →
      ∀ spec ∈ row.holder.bind Progress.adding, job.Apart spec.key
  | .parkThrows id => ∀ row ∈ state.table.jobs id, row.payload.owner ≠ owner
  | .crash id => ∀ row ∈ state.table.jobs id, row.payload.owner = owner →
      (∀ progress ∈ row.holder, progress.past = true) ∨
        job.maxAttempts ≤ (state.executions owner).length
  | _ => True

instance (job : QueuedJob) (owner : Nat) (state : State) (event : Event) :
    Decidable (Sheltered job owner state event) := by
  unfold Sheltered
  split
  all_goals infer_instance

/-! ## Keys -/

/-- The row asked for is one of the job that is added. -/
theorem owner_of_asked {other : Nat} {spec : JobSpec Json} {jobs : JobQueue.Jobs Cargo Progress}
    (payload : row.payload = (spec.map (Cargo.mk other)).payload ∨ ∃ old : Row,
      jobs id = some old ∧
        row.payload = Cargo.merge old.payload (spec.map (Cargo.mk other)).payload) :
    row.payload.owner = other := by
  rcases payload with asked | ⟨old, -, merged⟩
  · rw [asked]
    rfl
  · rw [merged]
    rfl

namespace QueuedJob

theorem Keys.change {table changed : Table Cargo Progress} {value : Option Row}
    (keys : job.Keys owner table) (found : table.jobs id = some row)
    (jobs : changed.jobs = Function.update table.jobs id value)
    (keeps : ∀ new, value = some new →
      new.payload.owner = row.payload.owner ∧ new.key = row.key) : job.Keys owner changed := by
  have old : ∀ other another, changed.jobs other = some another →
      ∃ before, table.jobs other = some before ∧
        another.payload.owner = before.payload.owner ∧ another.key = before.key := by
    intro other another present
    rw [jobs] at present
    rcases eq_or_ne other id with rfl | ne
    · rw [Function.update_self] at present
      exact ⟨row, found, keeps another present⟩
    · rw [Function.update_of_ne ne] at present
      exact ⟨another, present, rfl, rfl⟩
  constructor
  · intro other another present own
    obtain ⟨before, here, same, key⟩ := old other another present
    rw [key]
    exact keys.keyed other before here (same ▸ own)
  · intro other another present foreign
    obtain ⟨before, here, same, key⟩ := old other another present
    rw [key]
    exact keys.foreign other before here (same ▸ foreign)

theorem Keys.add {table changed : Table Cargo Progress} {other : Nat} {spec : JobSpec Json}
    (keys : job.Keys owner table)
    (added : table.addJob Cargo.merge (spec.map (Cargo.mk other)) = some changed)
    (keyed : other = owner → job.Keyed spec.key) (apart : other ≠ owner → job.Apart spec.key) :
    job.Keys owner changed := by
  constructor
  · intro id row present own
    rcases Table.of_addJob added present with ⟨asked, payload⟩ | same | ⟨before, -, -, -, rfl⟩
    · rw [asked]
      exact keyed ((owner_of_asked payload).symm.trans own)
    · exact keys.keyed id row same own
    · exact .inl rfl
  · intro id row present foreign
    rcases Table.of_addJob added present with ⟨asked, payload⟩ | same | ⟨before, -, -, -, rfl⟩
    · rw [asked]
      exact apart fun own => foreign ((owner_of_asked payload).trans own)
    · exact keys.foreign id row same foreign
    · exact .inl rfl

theorem Apart.eq_none {key : Option String} (apart : job.Apart key) (keyed : job.Keyed key) :
    key = none := by
  rcases apart with none | ⟨other, later⟩
  · exact none
  · rcases keyed with none | plain | parked
    · exact none
    · exact (other plain).elim
    · exact (later parked).elim

/-- Whoever bears a key of the job is one of its rows. -/
theorem Keys.owner_of_bears {table : Table Cargo Progress} {key : Option String}
    (keys : job.Keys owner table) (found : table.jobs id = some row) (keyed : job.Keyed key)
    (bears : row.Bears key) : row.payload.owner = owner := by
  by_contra foreign
  have apart := keys.foreign id row found foreign
  rw [bears.2] at apart
  exact bears.1 (apart.eq_none keyed)

/-- No row of the job bears a key which is apart from it. -/
theorem Keys.not_bears {table : Table Cargo Progress} {key : Option String}
    (keys : job.Keys owner table) (found : table.jobs id = some row)
    (own : row.payload.owner = owner) (apart : job.Apart key) : ¬ row.Bears key := by
  intro bears
  have keyed := keys.keyed id row found own
  rw [bears.2] at keyed
  exact bears.1 (apart.eq_none keyed)

end QueuedJob

/-! ## Steps beside the row which carries the job -/

/-- A step of a row which does not carry the job. -/
theorem Tracked.aside (value : Option Row) (tracked : Tracked job owner state)
    (found : state.table.jobs id = some row) (idle : row.payload.owner = owner → Spent row)
    (jobs : after.table.jobs = Function.update state.table.jobs id value)
    (keeps : ∀ new, value = some new → new.payload.owner = row.payload.owner ∧
      new.key = row.key ∧ (row.payload.owner = owner → Spent new))
    (executions : after.executions owner = state.executions owner)
    (settled : after.settled owner = state.settled owner) (clock : after.clock = state.clock) :
    Tracked job owner after := by
  refine tracked.transport executions (fun done => settled.trans done) (Nat.le_of_eq clock.symm)
    ?_ ?_ (tracked.keys.change found jobs fun new here =>
      ⟨(keeps new here).1, (keeps new here).2.1⟩)
  · intro other another present own unspent
    rcases eq_or_ne other id with rfl | ne
    · rw [found, Option.some_inj] at present
      subst present
      exact (unspent (idle own)).elim
    · rw [jobs, Function.update_of_ne ne]
      exact present
  · intro other another present own
    rw [jobs] at present
    rcases eq_or_ne other id with rfl | ne
    · rw [Function.update_self] at present
      obtain ⟨same, -, spent⟩ := keeps another present
      have owned : row.payload.owner = owner := same ▸ own
      exact .inr ⟨spent owned, row, found, owned, idle owned⟩
    · rw [Function.update_of_ne ne] at present
      exact .inl present

/-- A step of a row of another job. -/
theorem Tracked.aside_foreign {value : Row} (tracked : Tracked job owner state)
    (found : state.table.jobs id = some row) (foreign : row.payload.owner ≠ owner)
    (jobs : after.table.jobs = Function.update state.table.jobs id (some value))
    (keeps : value.payload.owner = row.payload.owner ∧ value.key = row.key)
    (executions : after.executions owner = state.executions owner)
    (settled : after.settled owner = state.settled owner) (clock : after.clock = state.clock) :
    Tracked job owner after := by
  refine tracked.aside (some value) found (fun same => (foreign same).elim) jobs ?_ executions
    settled clock
  intro new here
  obtain rfl := Option.some_inj.mp here
  exact ⟨keeps.1, keeps.2, fun same => (foreign same).elim⟩

/-- Somebody else adds a job. -/
theorem Tracked.add_foreign {other : Nat} {spec : JobSpec Json} (tracked : Tracked job owner state)
    (foreign : other ≠ owner) (apart : job.Apart spec.key)
    (added : state.add other spec = some after) : Tracked job owner after := by
  obtain ⟨table, inserted, rfl⟩ := State.add_eq_some.mp added
  refine tracked.transport rfl id (Nat.le_refl _) ?_ ?_
    (tracked.keys.add inserted (fun own => (foreign own).elim) fun _ => apart)
  · intro id row found own _
    exact Table.addJob_keeps inserted found (tracked.keys.not_bears found own apart)
  · intro id row present own
    rcases Table.of_addJob inserted present with ⟨-, payload⟩ | same | ⟨before, here, -, bears, rfl⟩
    · exact (foreign ((owner_of_asked payload).symm.trans own)).elim
    · exact .inl same
    · exact (tracked.keys.not_bears here own apart bears).elim

/-! ## Steps of the row which carries the job -/

theorem Carries.owner_eq (carries : Carries job owner state id row) : row.payload.owner = owner :=
  carries.stage.owner_eq

/-- A change of the row which keeps its owner and its key. -/
theorem Carries.keys {changed : Row} (carries : Carries job owner state id row)
    (tracked : Tracked job owner state)
    (jobs : after.table.jobs = Function.update state.table.jobs id (some changed))
    (payload : changed.payload = row.payload) (key : changed.key = row.key) :
    job.Keys owner after.table := by
  refine tracked.keys.change carries.found jobs fun new here => ?_
  obtain rfl := Option.some_inj.mp here
  exact ⟨congrArg Cargo.owner payload, key⟩

/-- A locked row of the job is spent when its worker is past everything. -/
theorem Carries.spent {holder : Progress} {progress : Progress}
    (carries : Carries job owner state id row) (locked : row.holder = some progress)
    (past : holder.past = true) : Spent { row with holder := some holder } where
  tried := by simp [carries.stage.maxAttempts_eq]
  used := by simp [carries.stage.maxAttempts_eq, carries.stage.attempts_of_locked locked]
  past := by
    intro other here
    cases here
    exact past

theorem Carries.begin (carries : Carries job owner state id row) (tracked : Tracked job owner state)
    (plain : job.Plain) (free : row.holder = none) (due : row.runAt ≤ state.clock) :
    Tracked job owner (state.begin id row) := by
  have jobs := state.begin_jobs carries.found
  have keys := carries.keys tracked jobs rfl rfl
  have logged := tracked.logged
  generalize listed : state.executions owner = executions at logged
  have stage := carries.stage
  rw [listed] at stage
  cases stage with
  | queued task holder attempts left ready =>
      have named : row.identifier ≠ scheduledJob := task.identifier ▸ plain.task
      let execution : Execution :=
        { began := state.clock, queueName := row.queueName, key := row.key, priority := row.priority
          payload := row.payload.body }
      have recorded : (state.begin id row).executions owner = execution :: executions := by
        simp only [State.begin, if_neg named, State.log, task.owner, Function.update_self, listed]
        rfl
      refine carries.advance jobs rfl keys (fun _ => by rw [recorded]; simp) ?_ ?_
      · rw [recorded]
        exact .executing ⟨task.owner, task.identifier, task.stamped, task.queueName,
          task.maxAttempts, task.key, task.priority⟩ (by simp [Job.lock, task.key, attempts])
          (by simp [Job.lock, attempts])
      · rw [recorded]
        refine ⟨left, ?_, ready.mono due, logged.spaced⟩
        intro other member
        rcases List.mem_cons.mp member with rfl | old
        · exact ⟨task.queueName, task.key, task.priority, task.stamped.fits.own⟩
        · exact logged.alike other old
  | waiting waiter holder attempts left ready =>
      have recorded : (state.begin id row).executions owner = executions := by
        simp only [State.begin, if_pos waiter.identifier, listed]
      have clock : (state.begin id row).clock = state.clock := by
        simp only [State.begin, if_pos waiter.identifier]
      refine carries.advance jobs rfl keys (fun _ => by rw [recorded]; rwa [listed] at *) ?_ ?_
      · rw [recorded, clock]
        exact .awake ⟨waiter.owner, waiter.identifier, waiter.waits, waiter.maxAttempts,
          waiter.key⟩ rfl (by simp [Job.lock, attempts]) left (ready.mono due)
      · rw [recorded]
        exact logged
  | executing _ holder | parking _ holder | awake _ holder | returning _ holder =>
      rw [free] at holder
      cases holder

theorem Carries.succeed {key : Option String} {attempts : Nat}
    (carries : Carries job owner state id row) (tracked : Tracked job owner state)
    (holder : row.holder = some (.running key attempts)) :
    Tracked job owner ((state.settle row.payload.owner).hold id (some .closing)) := by
  have jobs : ((state.settle row.payload.owner).hold id (some .closing)).table.jobs =
      Function.update state.table.jobs id (some { row with holder := some .closing }) :=
    State.hold_jobs _ carries.found
  refine carries.finish jobs (carries.spent holder rfl) (carries.keys tracked jobs rfl rfl)
    (.inl ?_)
    tracked.logged
  simp [State.hold, State.settle, carries.owner_eq]

/-! ### Failures -/

theorem State.fail_executions (retryAt : Option Nat) (task : row.identifier ≠ scheduledJob)
    (own : row.payload.owner = owner) :
    (state.fail row retryAt).executions owner =
      State.failed state.clock retryAt (state.executions owner) := by
  simp only [State.fail, if_neg task, State.log, own, Function.update_self]

/-- The catch of the task of the job. -/
theorem IsTask.caught {failures : Nat} {error : JobError} (task : IsTask job owner failures row) :
    state.caught env id row job.input.jobKey 1 error =
      if skips job.input.identifier error then
        (state.settle row.payload.owner).hold id (some .closing)
      else if job.maxAttempts ≤ failures + 1 then (state.fail row none).hold id (some .closing)
      else
        (state.fail row (some (job.parked state.clock failures row.payload.body).runAt)).hold id
          (some (.parking (job.parked state.clock failures row.payload.body))) := by
  unfold State.caught
  rw [task.identifier, task.queueName, task.priority, task.stamped.recover]
  split_ifs
  all_goals rfl

theorem IsTask.parked_waiter {failures now : Nat} (task : IsTask job owner failures row) :
    IsWaiter job owner (failures + 1)
      (labelled owner (job.parked now failures row.payload.body)) where
  owner := rfl
  identifier := rfl
  waits := ⟨_, rfl, task.stamped.waits⟩
  maxAttempts := rfl
  key := rfl

theorem Logged.failed {executions : List Execution} (logged : Logged job executions) (clock : Nat)
    (retryAt : Option Nat) : Logged job (State.failed clock retryAt executions) := by
  cases executions with
  | nil => exact logged
  | cons last earlier =>
      refine ⟨logged.length_le, ?_, logged.spaced⟩
      intro other member
      rcases List.mem_cons.mp member with rfl | old
      · obtain ⟨queueName, key, priority, payload⟩ := logged.alike last List.mem_cons_self
        exact ⟨queueName, key, priority, payload⟩
      · exact logged.alike other (List.mem_cons_of_mem last old)

theorem length_failed (clock : Nat) (retryAt : Option Nat) (executions : List Execution) :
    (State.failed clock retryAt executions).length = executions.length := by
  cases executions with
  | nil => rfl
  | cons last earlier => rfl

theorem Carries.throw {progress : Progress} {key : Option String} {attempts : Nat}
    {error : JobError} (carries : Carries job owner state id row)
    (tracked : Tracked job owner state) (holder : row.holder = some progress)
    (atWork : progress.atWork = some (key, attempts)) (named : row.identifier ≠ scheduledJob) :
    Tracked job owner (state.caught env id row key attempts error) := by
  have own := carries.owner_eq
  have logged := tracked.logged
  have stage := carries.stage
  generalize listed : state.executions owner = executions at stage
  cases stage with
  | executing task running locked =>
      rename_i last earlier
      rw [holder, Option.some_inj] at running
      subst running
      cases atWork
      rw [task.caught]
      have found (retryAt : Option Nat) : (state.fail row retryAt).table.jobs id = some row := by
        rw [State.fail_table, carries.found]
      have failed (retryAt : Option Nat) : (state.fail row retryAt).executions owner =
          State.failed state.clock retryAt (last :: earlier) := by
        rw [State.fail_executions retryAt named own, listed]
      rw [listed] at logged
      split_ifs with skipped exhausted
      · exact carries.succeed tracked holder
      · have jobs := State.hold_jobs (some .closing) (found none)
        rw [State.fail_table] at jobs
        refine carries.finish jobs (carries.spent holder rfl)
          (carries.keys tracked jobs rfl rfl) (.inr ?_) ?_
        · change _ ≤ ((state.fail row none).executions owner).length
          rw [failed, length_failed]
          exact exhausted
        · change Logged job ((state.fail row none).executions owner)
          rw [failed]
          exact logged.failed _ _
      · generalize parked : job.parked state.clock earlier.length row.payload.body = spec
        have runAt : spec.runAt = state.clock + jobRetryDelayMs (earlier.length + 1 : Nat) := by
          rw [← parked]
          rfl
        have jobs := State.hold_jobs (some (.parking spec)) (found (some spec.runAt))
        rw [State.fail_table] at jobs
        refine carries.advance jobs rfl (carries.keys tracked jobs rfl rfl) ?_ ?_ ?_
        · intro _
          change (state.fail row (some spec.runAt)).executions owner ≠ []
          rw [failed]
          exact List.cons_ne_nil _ _
        · change Stage job owner _ ((state.fail row (some spec.runAt)).executions owner) _
          rw [failed]
          refine .parking ?_ rfl locked (List.cons_ne_nil _ _) (not_le.mp exhausted) ?_ ?_ ?_ ?_
          · exact ⟨task.owner, task.identifier, task.stamped, task.queueName, task.maxAttempts,
              task.key, task.priority⟩
          · rw [← parked]
            exact task.parked_waiter
          · rw [← parked]
            rfl
          · exact ⟨state.clock, rfl, congrArg some runAt, runAt.ge⟩
          · rw [← parked]
            exact fun storable => storable.parked _ _ _
        · change Logged job ((state.fail row (some spec.runAt)).executions owner)
          rw [failed]
          exact logged.failed _ _
  | queued task free | waiting waiter free =>
      rw [holder] at free
      cases free
  | parking task held =>
      rw [holder, Option.some_inj] at held
      subst held
      cases atWork
  | awake waiter | returning waiter => exact (named waiter.identifier).elim

/-! ### The way back -/

theorem Carries.hop {key : Option String} {attempts : Nat} {spec : JobSpec Json}
    (carries : Carries job owner state id row) (tracked : Tracked job owner state)
    (plain : job.Plain) (holder : row.holder = some (.running key attempts))
    (waiter : row.identifier = scheduledJob)
    (parsed : runScheduledJob state.clock row.payload.body = some spec) :
    Tracked job owner (state.hold id (some (.hopping key attempts spec))) := by
  have jobs := State.hold_jobs (some (.hopping key attempts spec)) carries.found
  refine carries.advance jobs rfl (carries.keys tracked jobs rfl rfl) (fun tried => tried) ?_
    tracked.logged
  have stage := carries.stage
  change Stage job owner state.clock (state.executions owner) _
  generalize state.executions owner = executions at stage
  cases stage with
  | awake isWaiter running locked left due =>
      obtain ⟨scheduled, body, waits⟩ := isWaiter.waits
      rw [body, waits.runScheduledJob plain.jobKey] at parsed
      split at parsed
      · cases parsed
      rw [Option.some_inj] at parsed
      subst parsed
      refine .returning ⟨isWaiter.owner, isWaiter.identifier, isWaiter.waits,
        isWaiter.maxAttempts, isWaiter.key⟩ rfl locked left ?_ ?_ due fun storable => ?_
      · exact ⟨rfl, rfl, waits.payload.stamp, rfl, rfl, rfl, rfl⟩
      · intro dedupe
        obtain ⟨untried, parts⟩ := waits.jobKeyMode dedupe
        exact ⟨List.length_eq_zero_iff.mp untried, parts⟩
      · exact storable.returned _ _
  | executing task | parking task => exact (plain.task (task.identifier.symm.trans waiter)).elim
  | queued _ free | waiting _ free =>
      rw [holder] at free
      cases free
  | returning _ held =>
      rw [holder] at held
      cases held

/-- A job which is added while all rows of the job are spent carries it from then on. -/
theorem Tracked.of_added {spec : JobSpec Json}
    (added : state.add owner spec = some after)
    (heard : spec.mode ≠ .unsafeDedupe ∨ state.table.Lacks spec.key)
    (object : ∃ fields, spec.payload = .object fields) (keys : job.Keys owner state.table)
    (keyed : job.Keyed spec.key)
    (others : ∀ id row, state.table.jobs id = some row → row.payload.owner = owner →
      Spent row ∧ (spec.identifier = scheduledJob → state.executions owner ≠ []))
    (stage : Stage job owner state.clock (state.executions owner) (labelled owner spec))
    (logged : Logged job (state.executions owner)) : Tracked job owner after := by
  obtain ⟨table, inserted, rfl⟩ := State.add_eq_some.mp added
  obtain ⟨placedId, new, placed⟩ := Table.exists_placed inserted heard
  refine ⟨?_, keys.add inserted (fun _ => keyed) fun ne => (ne rfl).elim, logged⟩
  have runAt : new.runAt = spec.runAt := by
    refine placed.runAt (.inr fun old here => ?_)
    have own := keys.owner_of_bears here keyed (placed.replaces old here).2
    have spent := (others placedId old here own).1
    have tried := spent.tried
    have used := spent.used
    omega
  have payload : new.payload = (spec.map (Cargo.mk owner)).payload := by
    rcases placed.payload with asked | ⟨old, -, merged⟩
    · exact asked
    · obtain ⟨fields, body⟩ := object
      rw [merged]
      simp [Cargo.merge, JobSpec.map, body, mergePayload]
  have same : new = labelled owner spec := by
    rw [placed.asked, runAt, payload]
    rfl
  refine .inl ⟨placedId, new, placed.found, same ▸ stage, ?_⟩
  rw [same]
  intro other another ne present own
  rcases placed.others other ne with kept | ⟨old, here, running, -, detached⟩
  · rw [kept] at present
    exact others other another present own
  · rw [detached, Option.some_inj] at present
    subst present
    obtain ⟨spent, tried⟩ := others other old here own
    exact ⟨⟨spent.tried, Nat.le_refl _, spent.past⟩, tried⟩

/-- When the row which carries the job hands it on, all rows of the job are spent. -/
theorem Carries.spent_of_closed {holder : Progress} {progress : Progress}
    (carries : Carries job owner state id row) (locked : row.holder = some progress)
    (past : holder.past = true) {other : Nat} {another : Row}
    (present : (state.hold id (some holder)).table.jobs other = some another)
    (owned : another.payload.owner = owner) : Spent another := by
  rw [State.hold_jobs _ carries.found] at present
  rcases eq_or_ne other id with rfl | ne
  · rw [Function.update_self, Option.some_inj] at present
    exact present ▸ carries.spent locked past
  · rw [Function.update_of_ne ne] at present
    exact (carries.others other another ne present owned).1

/-- At the first hop of a job no row bears its key: there is no other row of it, and its own has the
key of the waiter. -/
theorem Carries.lacks_of_untried {holder : Option Progress} {key : Option String}
    (carries : Carries job owner state id row) (keys : job.Keys owner (state.hold id holder).table)
    (waiter : IsWaiter job owner 0 row) (asked : key = job.input.jobKey) (parts : job.Parts)
    (untried : state.executions owner = []) : (state.hold id holder).table.Lacks key := by
  intro other another present bears
  have owned := keys.owner_of_bears present (.inr (.inl asked)) bears
  rw [State.hold_jobs _ carries.found] at present
  rcases eq_or_ne other id with rfl | ne
  · rw [Function.update_self, Option.some_inj] at present
    subst present
    have same : job.input.jobKey.map scheduledJobKey = job.input.jobKey :=
      waiter.key.symm.trans (bears.2.trans asked)
    cases named : job.input.jobKey with
    | none => exact bears.1 (asked.trans named)
    | some key =>
        rw [named, Option.map_some, Option.some_inj] at same
        exact parts key named same
  · rw [Function.update_of_ne ne] at present
    exact (carries.others other another ne present owned).2 waiter.identifier untried

/-- The row which carries the job hands it to another one. -/
theorem Carries.add {progress : Progress} {spec : JobSpec Json}
    (carries : Carries job owner state id row) (tracked : Tracked job owner state)
    (plain : job.Plain) (holder : row.holder = some progress)
    (adding : progress.adding = some spec)
    (added : (state.hold id (some .closing)).add row.payload.owner spec = some after) :
    Tracked job owner after := by
  have own := carries.owner_eq
  have keys := carries.keys tracked (State.hold_jobs (some .closing) carries.found) rfl rfl
  have others (only : spec.identifier = scheduledJob → state.executions owner ≠ []) :
      ∀ other another, (state.hold id (some .closing)).table.jobs other = some another →
        another.payload.owner = owner →
        Spent another ∧ (spec.identifier = scheduledJob → state.executions owner ≠ []) :=
    fun _ _ present owned => ⟨carries.spent_of_closed holder rfl present owned, only⟩
  have logged := tracked.logged
  have stage := carries.stage
  generalize listed : state.executions owner = executions at stage
  rw [own] at added
  cases stage with
  | parking task held locked tried left waiter mode due =>
      rw [holder, Option.some_inj] at held
      subst held
      cases adding
      have keyed : job.Keyed spec.key := .inr (.inr waiter.key)
      have object : ∃ fields, spec.payload = .object fields := by
        obtain ⟨scheduled, body, -⟩ := waiter.waits
        exact ⟨_, body⟩
      refine Tracked.of_added added (.inl (by simp [mode])) object keys keyed
        (others fun _ => listed ▸ tried) ?_ logged
      change Stage job owner state.clock (state.executions owner) _
      rw [listed]
      exact .waiting waiter rfl rfl left due
  | returning waiter held locked left task mode due =>
      rw [holder, Option.some_inj] at held
      subst held
      cases adding
      have named : spec.identifier ≠ scheduledJob := fun same =>
        plain.task (task.identifier.symm.trans same)
      have keyed : job.Keyed spec.key := .inr (.inl task.key)
      have heard : spec.mode ≠ .unsafeDedupe ∨
          (state.hold id (some .closing)).table.Lacks spec.key := by
        by_cases dedupe : spec.mode = .unsafeDedupe
        · obtain ⟨untried, parts⟩ := mode dedupe
          subst untried
          exact .inr (carries.lacks_of_untried keys waiter task.key parts listed)
        · exact .inl dedupe
      refine Tracked.of_added added heard task.stamped.object keys keyed
        (others fun waiter => (named waiter).elim) ?_ logged
      change Stage job owner state.clock (state.executions owner) _
      rw [listed]
      exact .queued task rfl rfl left due
  | queued _ free | waiting _ free =>
      rw [holder] at free
      cases free
  | executing _ held | awake _ held =>
      rw [holder, Option.some_inj] at held
      subst held
      cases adding

/-! ## Every step -/

/-- A row whose worker is past everything does not carry the job. -/
theorem Tracked.spent_of_past {progress : Progress} (tracked : Tracked job owner state)
    (found : state.table.jobs id = some row) (holder : row.holder = some progress)
    (past : progress.past = true) (own : row.payload.owner = owner) : Spent row := by
  by_contra unspent
  exact (tracked.carries found own unspent).stage.not_past holder past

/-- A step in which a locked row gets another holder, when it is none of the job or already
spent. -/
theorem Tracked.hold_aside {holder : Option Progress} (tracked : Tracked job owner state)
    (found : state.table.jobs id = some row) (idle : row.payload.owner = owner → Spent row)
    (past : row.payload.owner = owner → ∀ progress, holder = some progress →
      progress.past = true) : Tracked job owner (state.hold id holder) := by
  refine tracked.aside _ found idle (State.hold_jobs holder found) ?_ rfl rfl rfl
  intro new here
  obtain rfl := Option.some_inj.mp here
  refine ⟨rfl, rfl, fun own => ?_⟩
  have spent := idle own
  exact ⟨spent.tried, spent.used, past own⟩

theorem Tracked.next (tracked : Tracked job owner state) (plain : job.Plain) {event : Event}
    (sheltered : Sheltered job owner state event) (step : next env state event = some after) :
    Tracked job owner after := by
  cases moves_of_next step with
  | tick ms =>
      exact tracked.transport rfl id (Nat.le_add_right _ _) (fun _ _ found _ _ => found)
        (fun _ _ found _ => .inl found) tracked.keys
  | enqueue added => exact tracked.add_foreign sheltered.1 sheltered.2 added
  | @begin id row found waiting left due =>
      by_cases own : row.payload.owner = owner
      · have unspent : ¬ Spent row := by
          intro spent
          have used := spent.used
          omega
        exact (tracked.carries found own unspent).begin tracked plain waiting due
      · refine tracked.aside_foreign found own (State.begin_jobs found) ⟨rfl, rfl⟩ ?_ ?_ ?_
        all_goals
          unfold State.begin
          split
        all_goals first | rfl | exact Function.update_of_ne (Ne.symm own) ..
  | @succeed id row key attempts found holder task =>
      by_cases own : row.payload.owner = owner
      · have unspent : ¬ Spent row := not_spent_of_busy holder rfl
        exact (tracked.carries found own unspent).succeed tracked holder
      · exact tracked.aside_foreign found own (State.hold_jobs _ found) ⟨rfl, rfl⟩ rfl
          (Function.update_of_ne (Ne.symm own) ..) rfl
  | @throw id row progress key attempts error found holder atWork =>
      by_cases own : row.payload.owner = owner
      · have unspent : ¬ Spent row := not_spent_of_busy holder (Progress.past_of_atWork atWork)
        exact (tracked.carries found own unspent).throw tracked holder atWork
          (sheltered row found own)
      · obtain ⟨held, jobs, -⟩ := State.caught_jobs found
        obtain ⟨executions, settled, clock⟩ := State.caught_foreign own
        exact tracked.aside_foreign found own jobs ⟨rfl, rfl⟩ executions settled clock
  | @hop id row key attempts spec found holder waiter parsed =>
      by_cases own : row.payload.owner = owner
      · have unspent : ¬ Spent row := not_spent_of_busy holder rfl
        exact (tracked.carries found own unspent).hop tracked plain holder waiter parsed
      · exact tracked.hold_aside found (fun same => (own same).elim) fun same => (own same).elim
  | @add id row progress spec after found holder adding added =>
      by_cases own : row.payload.owner = owner
      · have unspent : ¬ Spent row := not_spent_of_busy holder (Progress.past_of_adding adding)
        exact (tracked.carries found own unspent).add tracked plain holder adding added
      · have held : Tracked job owner (state.hold id (some .closing)) :=
          tracked.hold_aside found (fun same => (own same).elim) fun same => (own same).elim
        refine held.add_foreign own (sheltered row found own spec ?_) added
        rw [holder]
        exact adding
  | @parkThrows id row spec found holder =>
      have own := sheltered row found
      exact tracked.hold_aside found (fun same => (own same).elim) fun same => (own same).elim
  | @complete id row found holder =>
      refine tracked.aside none found (tracked.spent_of_past found holder rfl) rfl ?_ rfl rfl rfl
      intro new here
      cases here
  | @fail id row delay found holder =>
      have idle : row.payload.owner = owner → Spent row := tracked.spent_of_past found holder rfl
      refine tracked.aside (some { row with holder := none, runAt := state.clock + delay }) found
        idle ?_ ?_ rfl rfl rfl
      · dsimp only
        rw [Table.modify_jobs found]
      intro new here
      obtain rfl := Option.some_inj.mp here
      refine ⟨rfl, rfl, fun own => ?_⟩
      have spent := idle own
      refine ⟨spent.tried, spent.used, fun progress held => ?_⟩
      cases held
  | @crash id row progress found holder =>
      by_cases idle : row.payload.owner = owner → Spent row
      · refine tracked.hold_aside found idle fun _ other same => ?_
        cases same
        rfl
      · push Not at idle
        obtain ⟨own, unspent⟩ := idle
        have carries := tracked.carries found own unspent
        rcases sheltered row found own with past | exhausted
        · exact (carries.stage.not_past holder (past progress holder)).elim
        · have jobs := State.hold_jobs (some .abandoned) found
          exact carries.finish jobs (carries.spent holder rfl) (carries.keys tracked jobs rfl rfl)
            (.inr exhausted) tracked.logged
  | @release id row found holder =>
      refine tracked.hold_aside found (tracked.spent_of_past found holder rfl) ?_
      intro own progress held
      cases held

/-! ## The first enqueue -/

/-- The job has not been heard of. -/
structure Unused (job : QueuedJob) (owner : Nat) (state : State) : Prop where
  rows : ∀ id row, state.table.jobs id = some row → row.payload.owner ≠ owner
  keys : ∀ id row, state.table.jobs id = some row → job.Apart row.key
  executions : state.executions owner = []
  settled : state.settled owner = false

/-- A job that is to wait first will not be taken for its own waiter. -/
def QueuedJob.Heard (job : QueuedJob) (now : Nat) : Prop :=
  now < job.input.runAt.getD now → job.input.jobKeyMode = some .unsafeDedupe → job.Parts

theorem Unused.enqueue (unused : Unused job owner state) (plain : job.Plain)
    (heard : job.Heard state.clock)
    (enqueued : state.add owner (enqueueJob state.clock job.input) = some after) :
    Tracked job owner after := by
  have keys : job.Keys owner state.table :=
    ⟨fun id row found own => (unused.rows id row found own).elim,
      fun id row found _ => unused.keys id row found⟩
  have logged : Logged job (state.executions owner) := by
    rw [unused.executions]
    refine ⟨Nat.zero_le _, fun execution member => ?_, trivial⟩
    cases member
  have placed {spec : JobSpec Json} (added : state.add owner spec = some after)
      (keyed : job.Keyed spec.key) (object : ∃ fields, spec.payload = .object fields)
      (stage : Stage job owner state.clock (state.executions owner) (labelled owner spec)) :
      Tracked job owner after := by
    have lacks : state.table.Lacks spec.key := fun id row found bears =>
      unused.rows id row found (keys.owner_of_bears found keyed bears)
    refine Tracked.of_added added (.inr lacks) object keys keyed ?_ stage logged
    intro id row found own
    exact (unused.rows id row found own).elim
  rw [unused.executions] at placed
  have fits : job.Fits 0 (some (orEmpty job.input.payload)) :=
    plain.payload.congr (asRecord_orEmpty _)
  by_cases due : job.input.runAt.getD state.clock ≤ state.clock
  · rw [enqueueJob_due job.queued job.named due] at enqueued
    have stamped : job.Stamped 0
        (stampRetryBudget job.input.payload (job.input.maxAttempts.getD 25) job.queueName) := by
      rw [job.budget]
      exact plain.payload.stamp
    refine placed enqueued (.inr (.inl rfl)) stamped.object
      (.queued ?_ rfl rfl job.positive trivial)
    exact ⟨rfl, rfl, stamped, rfl, rfl, rfl, rfl⟩
  · rw [enqueueJob_later job.queued job.named (not_le.mp due)] at enqueued
    refine placed enqueued (.inr (.inr rfl)) ⟨_, rfl⟩ (.waiting ?_ rfl rfl job.positive trivial)
    refine ⟨rfl, rfl, ⟨_, rfl, ?_⟩, rfl, rfl⟩
    refine ⟨rfl, fits, Option.some_ne_none _, rfl, rfl, ?_, rfl, job.budget⟩
    intro dedupe
    refine ⟨rfl, heard (not_le.mp due) ?_⟩
    cases mode : job.input.jobKeyMode with
    | none =>
        rw [mode] at dedupe
        cases dedupe
    | some present =>
        rw [mode] at dedupe
        exact congrArg some dedupe

end Jobs
end DotaCollector
