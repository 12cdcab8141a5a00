import Mathlib.Algebra.Order.Field.Rat
import Mathlib.Logic.Function.Basic

/-!
# A job queue with keys

A queue holds jobs under serial ids. A worker locks a job, counts the attempt and runs it; a job
is picked only while it has attempts left. A job may carry a key, and at most one job carries a
given key. Adding a job under a key that is taken overwrites the job which bears it if a worker
could take it; it takes the key from one that runs or has no attempt left, and adds a new job; or it
does nothing, as the mode says. What is asked for must pass the checks of the tables.
-/

namespace JobQueue

inductive KeyMode where
  | replace
  | preserveRunAt
  | unsafeDedupe
  deriving DecidableEq, Repr

/-- What a caller asks for; the tables hold integers where it may send any number. -/
structure JobSpec (Payload : Type*) where
  identifier : String
  payload : Payload
  queueName : Option String
  runAt : Nat
  maxAttempts : ℚ
  key : Option String
  mode : KeyMode
  priority : ℚ
  deriving DecidableEq

/-- A job of the queue. The holder is what the worker that has locked it is at. -/
structure Job (Payload Progress : Type*) where
  identifier : String
  payload : Payload
  queueName : Option String
  runAt : Nat
  maxAttempts : Nat
  key : Option String
  priority : ℚ
  attempts : Nat
  holder : Option Progress
  deriving DecidableEq

abbrev Jobs (Payload Progress : Type*) := Nat → Option (Job Payload Progress)

variable {Payload Progress : Type*}

/-- The job of a specification, as it is inserted. -/
def JobSpec.job (spec : JobSpec Payload) : Job Payload Progress where
  identifier := spec.identifier
  payload := spec.payload
  queueName := spec.queueName
  runAt := spec.runAt
  maxAttempts := spec.maxAttempts.num.toNat
  key := spec.key
  priority := spec.priority
  attempts := 0
  holder := none

/-- The same request with another payload. -/
def JobSpec.map {Other : Type*} (change : Payload → Other) (spec : JobSpec Payload) :
    JobSpec Other where
  identifier := spec.identifier
  payload := change spec.payload
  queueName := spec.queueName
  runAt := spec.runAt
  maxAttempts := spec.maxAttempts
  key := spec.key
  mode := spec.mode
  priority := spec.priority

/-- The checks of the tables: texts of bounded length, no empty key, and small integers. -/
structure JobSpec.Accepted (spec : JobSpec Payload) : Prop where
  identifier : spec.identifier.length ≤ 128
  queueName : ∀ name ∈ spec.queueName, name.length ≤ 128
  key : ∀ key ∈ spec.key, 0 < key.length ∧ key.length ≤ 512
  maxAttempts : spec.maxAttempts.den = 1 ∧ 1 ≤ spec.maxAttempts ∧ spec.maxAttempts ≤ 32767
  priority : spec.priority.den = 1 ∧ -32768 ≤ spec.priority ∧ spec.priority ≤ 32767

instance (spec : JobSpec Payload) : Decidable spec.Accepted :=
  decidable_of_iff
    (spec.identifier.length ≤ 128 ∧ (∀ name ∈ spec.queueName, name.length ≤ 128) ∧
      (∀ key ∈ spec.key, 0 < key.length ∧ key.length ≤ 512) ∧
      (spec.maxAttempts.den = 1 ∧ 1 ≤ spec.maxAttempts ∧ spec.maxAttempts ≤ 32767) ∧
      spec.priority.den = 1 ∧ -32768 ≤ spec.priority ∧ spec.priority ≤ 32767)
    ⟨fun ⟨identifier, queueName, key, maxAttempts, priority⟩ =>
      ⟨identifier, queueName, key, maxAttempts, priority⟩,
    fun ⟨identifier, queueName, key, maxAttempts, priority⟩ =>
      ⟨identifier, queueName, key, maxAttempts, priority⟩⟩

/-- No worker has the job, and it has an attempt left. -/
def Job.available (job : Job Payload Progress) : Bool :=
  job.holder.isNone && decide (job.attempts < job.maxAttempts)

/-- A job is overwritten as a whole; `merge` says what becomes of the two payloads, and one mode
keeps the time of a job not yet tried. -/
def JobSpec.overwrite (merge : Payload → Payload → Payload) (spec : JobSpec Payload)
    (job : Job Payload Progress) : Job Payload Progress :=
  { spec.job with
    payload := merge job.payload spec.payload
    runAt := if spec.mode = .preserveRunAt ∧ job.attempts = 0 then job.runAt else spec.runAt }

/-- A job which loses its key to a newer one will not be tried again. -/
def Job.detach (job : Job Payload Progress) : Job Payload Progress :=
  { job with key := none, attempts := job.maxAttempts }

/-- Locking a job counts the attempt. -/
def Job.lock (job : Job Payload Progress) (progress : Progress) : Job Payload Progress :=
  { job with attempts := job.attempts + 1, holder := some progress }

/-- The job is locked, or has an attempt left. -/
def Job.alive (job : Job Payload Progress) : Bool :=
  job.holder.isSome || decide (job.attempts < job.maxAttempts)

/-- The job carries the key which a specification asks for. -/
def Job.Bears (job : Job Payload Progress) (key : Option String) : Prop :=
  key ≠ none ∧ job.key = key

instance (job : Job Payload Progress) (key : Option String) : Decidable (job.Bears key) :=
  inferInstanceAs (Decidable (_ ∧ _))

/-- No key is carried twice. -/
def KeysUnique (jobs : Jobs Payload Progress) : Prop :=
  ∀ id other job another, jobs id = some job → jobs other = some another → job.key ≠ none →
    another.key = job.key → other = id

/-- The ids from here on are free. -/
def FreeFrom (jobs : Jobs Payload Progress) (fresh : Nat) : Prop :=
  ∀ id, fresh ≤ id → jobs id = none

/-! ## Changing the jobs -/

section Changes

variable {jobs : Jobs Payload Progress} {fresh id : Nat} {spec : JobSpec Payload}
  {job old : Job Payload Progress}

/-- Changing a job without giving it another key. -/
theorem KeysUnique.update (unique : KeysUnique jobs) (found : jobs id = some old)
    (keeps : job.key = none ∨ job.key = old.key) :
    KeysUnique (Function.update jobs id (some job)) := by
  intro one other first second here there keyed same
  rcases eq_or_ne one id with rfl | oneNe
  · rw [Function.update_self, Option.some_inj] at here
    subst here
    rcases eq_or_ne other one with rfl | otherNe
    · rfl
    · rw [Function.update_of_ne otherNe] at there
      rcases keeps with none | kept
      · exact (keyed none).elim
      · exact unique one other old second found there (kept ▸ keyed) (same.trans kept)
  · rw [Function.update_of_ne oneNe] at here
    rcases eq_or_ne other id with rfl | otherNe
    · rw [Function.update_self, Option.some_inj] at there
      subst there
      rcases keeps with none | kept
      · exact (keyed (same.symm.trans none)).elim
      · exact unique one other first old here found keyed (kept.symm.trans same)
    · rw [Function.update_of_ne otherNe] at there
      exact unique one other first second here there keyed same

theorem KeysUnique.erase (unique : KeysUnique jobs) (id : Nat) :
    KeysUnique (Function.update jobs id none) := by
  intro one other first second here there keyed same
  rcases eq_or_ne one id with rfl | oneNe
  · rw [Function.update_self] at here
    cases here
  · rcases eq_or_ne other id with rfl | otherNe
    · rw [Function.update_self] at there
      cases there
    · rw [Function.update_of_ne oneNe] at here
      rw [Function.update_of_ne otherNe] at there
      exact unique one other first second here there keyed same

/-- A new id for a key which nobody bears. -/
theorem KeysUnique.insert (unique : KeysUnique jobs)
    (absent : ∀ id job, jobs id = some job → ¬ job.Bears spec.key) :
    KeysUnique (Function.update jobs fresh (some spec.job)) := by
  intro one other first second here there keyed same
  rcases eq_or_ne one fresh with rfl | oneNe
  · rw [Function.update_self, Option.some_inj] at here
    subst here
    rcases eq_or_ne other one with rfl | otherNe
    · rfl
    · rw [Function.update_of_ne otherNe] at there
      exact (absent other second there ⟨keyed, same⟩).elim
  · rw [Function.update_of_ne oneNe] at here
    rcases eq_or_ne other fresh with rfl | otherNe
    · rw [Function.update_self, Option.some_inj] at there
      subst there
      exact (absent one first here ⟨fun none => keyed (same.symm.trans none), same.symm⟩).elim
    · rw [Function.update_of_ne otherNe] at there
      exact unique one other first second here there keyed same

theorem FreeFrom.lt (free : FreeFrom jobs fresh) (found : jobs id = some job) : id < fresh := by
  by_contra beyond
  rw [free id (by omega)] at found
  cases found

theorem FreeFrom.update (free : FreeFrom jobs fresh) (found : jobs id = some job)
    (value : Option (Job Payload Progress)) : FreeFrom (Function.update jobs id value) fresh := by
  have below := free.lt found
  intro other beyond
  rw [Function.update_of_ne (by omega)]
  exact free other beyond

theorem FreeFrom.erase (free : FreeFrom jobs fresh) (id : Nat) :
    FreeFrom (Function.update jobs id none) fresh := by
  intro other beyond
  rcases eq_or_ne other id with rfl | ne
  · exact Function.update_self ..
  · rw [Function.update_of_ne ne]
    exact free other beyond

theorem FreeFrom.insert (free : FreeFrom jobs fresh) (value : Option (Job Payload Progress)) :
    FreeFrom (Function.update jobs fresh value) (fresh + 1) := by
  intro other beyond
  rw [Function.update_of_ne (by omega)]
  exact free other (by omega)

end Changes

/-! ## The table -/

/-- The jobs, and the serial id which the next one takes. -/
structure Table (Payload Progress : Type*) where
  jobs : Jobs Payload Progress
  fresh : Nat
  unique : KeysUnique jobs
  free : FreeFrom jobs fresh

namespace Table

def empty : Table Payload Progress where
  jobs _ := none
  fresh := 0
  unique _ _ _ _ here := nomatch here
  free _ _ := rfl

/-- Change a job, which keeps its key or loses it. -/
def modify (table : Table Payload Progress) (id : Nat)
    (change : Job Payload Progress → Job Payload Progress)
    (keeps : ∀ job, table.jobs id = some job →
      (change job).key = none ∨ (change job).key = job.key) :
    Table Payload Progress :=
  match found : table.jobs id with
  | none => table
  | some job =>
      { jobs := Function.update table.jobs id (some (change job))
        fresh := table.fresh
        unique := table.unique.update found (keeps job found)
        free := table.free.update found _ }

def erase (table : Table Payload Progress) (id : Nat) : Table Payload Progress where
  jobs := Function.update table.jobs id none
  fresh := table.fresh
  unique := table.unique.erase id
  free := table.free.erase id

/-- Nobody bears the key. -/
def Lacks (table : Table Payload Progress) (key : Option String) : Prop :=
  ∀ id job, table.jobs id = some job → ¬ job.Bears key

def insert (table : Table Payload Progress) (spec : JobSpec Payload)
    (absent : table.Lacks spec.key) : Table Payload Progress where
  jobs := Function.update table.jobs table.fresh (some spec.job)
  fresh := table.fresh + 1
  unique := table.unique.insert absent
  free := table.free.insert _

variable {table : Table Payload Progress} {id other : Nat} {job : Job Payload Progress}
  {change : Job Payload Progress → Job Payload Progress}
  {keeps : ∀ job, table.jobs id = some job →
    (change job).key = none ∨ (change job).key = job.key}

theorem modify_jobs (found : table.jobs id = some job) :
    (table.modify id change keeps).jobs = Function.update table.jobs id (some (change job)) := by
  unfold modify
  split
  · simp_all
  · simp_all

theorem modify_self (found : table.jobs id = some job) :
    (table.modify id change keeps).jobs id = some (change job) := by
  rw [modify_jobs found, Function.update_self]

theorem modify_of_ne (ne : other ≠ id) :
    (table.modify id change keeps).jobs other = table.jobs other := by
  cases found : table.jobs id with
  | none =>
      unfold modify
      split
      · rfl
      · simp_all
  | some job => rw [modify_jobs found, Function.update_of_ne ne]

theorem modify_fresh : (table.modify id change keeps).fresh = table.fresh := by
  unfold modify
  split
  · rfl
  · rfl

/-- Two jobs with one key are the same. -/
theorem eq_of_bears {another : Job Payload Progress} {key : Option String}
    (found : table.jobs id = some job) (bears : job.Bears key)
    (also : table.jobs other = some another) (borne : another.Bears key) : other = id :=
  table.unique id other job another found also (by rw [bears.2]; exact bears.1)
    (by rw [bears.2, borne.2])

end Table

/-! ## The bearer of a key -/

/-- The job that bears a key, if it is the one with this id. -/
def bearer (table : Table Payload Progress) (key : Option String) (id : Nat) :
    Option (Nat × Job Payload Progress) :=
  match table.jobs id with
  | some job => if job.Bears key then some (id, job) else none
  | none => none

theorem bearer_eq_some {table : Table Payload Progress} {key : Option String} {id other : Nat}
    {job : Job Payload Progress} :
    bearer table key id = some (other, job) ↔
      other = id ∧ table.jobs id = some job ∧ job.Bears key := by
  unfold bearer
  cases found : table.jobs id with
  | none => simp
  | some present =>
      by_cases bears : present.Bears key
      · simp only [if_pos bears, Option.some_inj, Prod.mk.injEq]
        constructor
        · rintro ⟨rfl, rfl⟩
          exact ⟨rfl, rfl, bears⟩
        · rintro ⟨rfl, rfl, -⟩
          exact ⟨rfl, rfl⟩
      · simp only [if_neg bears, reduceCtorEq, Option.some_inj, false_iff]
        rintro ⟨-, rfl, borne⟩
        exact bears borne

def Table.search (table : Table Payload Progress) (key : Option String) :
    Option (Nat × Job Payload Progress) :=
  (List.range table.fresh).findSome? (bearer table key)

theorem Table.search_eq_some {table : Table Payload Progress} {key : Option String} {id : Nat}
    {job : Job Payload Progress} :
    table.search key = some (id, job) ↔ table.jobs id = some job ∧ job.Bears key := by
  constructor
  · intro search
    obtain ⟨at_, -, borne⟩ := List.exists_of_findSome?_eq_some search
    obtain ⟨rfl, found, bears⟩ := bearer_eq_some.mp borne
    exact ⟨found, bears⟩
  · rintro ⟨found, bears⟩
    cases search : table.search key with
    | none =>
        have missed := List.findSome?_eq_none_iff.mp search id
          (List.mem_range.mpr (table.free.lt found))
        rw [bearer_eq_some.mpr ⟨rfl, found, bears⟩] at missed
        cases missed
    | some hit =>
        obtain ⟨other, another⟩ := hit
        obtain ⟨at_, -, borne⟩ := List.exists_of_findSome?_eq_some search
        obtain ⟨rfl, present, carried⟩ := bearer_eq_some.mp borne
        have same : other = id := table.eq_of_bears found bears present carried
        subst same
        rw [found] at present
        cases present
        rfl

theorem Table.bears_of_search {table : Table Payload Progress} {key : Option String} {id : Nat}
    {job another : Job Payload Progress} (borne : table.search key = some (id, job))
    (found : table.jobs id = some another) : another.Bears key := by
  obtain ⟨present, bears⟩ := Table.search_eq_some.mp borne
  rw [found, Option.some_inj] at present
  exact present ▸ bears

theorem Table.search_eq_none {table : Table Payload Progress} {key : Option String} :
    table.search key = none ↔ table.Lacks key := by
  constructor
  · intro missed id job found bears
    rw [Table.search_eq_some.mpr ⟨found, bears⟩] at missed
    cases missed
  · intro lacks
    cases search : table.search key with
    | none => rfl
    | some hit =>
        obtain ⟨found, bears⟩ := Table.search_eq_some.mp search
        exact (lacks _ _ found bears).elim

/-- Without the key of the one who bears it, nobody does. -/
theorem Table.lacks_detached {table : Table Payload Progress} {key : Option String} {id : Nat}
    {job : Job Payload Progress} (borne : table.search key = some (id, job)) :
    (table.modify id Job.detach fun _ _ => .inl rfl).Lacks key := by
  obtain ⟨found, bears⟩ := Table.search_eq_some.mp borne
  intro other another present carried
  rcases eq_or_ne other id with rfl | ne
  · rw [Table.modify_self found, Option.some_inj] at present
    subst present
    exact carried.1 carried.2.symm
  · rw [Table.modify_of_ne ne] at present
    exact ne (table.eq_of_bears found bears present carried)

/-! ## Adding a job -/

namespace Table

variable {table : Table Payload Progress} {key : Option String} {id : Nat}
  {job : Job Payload Progress}

/-- The bearer of the key loses it, unless a worker could take it. -/
def detachUnavailable (table : Table Payload Progress) (key : Option String) :
    Table Payload Progress :=
  match table.search key with
  | some (id, job) =>
      if job.available then table else table.modify id Job.detach fun _ _ => .inl rfl
  | none => table

/-- `INSERT … ON CONFLICT (key) DO UPDATE … WHERE locked_at IS NULL` -/
def insertOrOverwrite (merge : Payload → Payload → Payload) (spec : JobSpec Payload)
    (table : Table Payload Progress) : Table Payload Progress :=
  match borne : table.search spec.key with
  | none => table.insert spec (search_eq_none.mp borne)
  | some (id, job) =>
      if job.holder.isNone then
        table.modify id (spec.overwrite merge) fun _ found =>
          .inr (bears_of_search borne found).2.symm
      else table

/-- A job whose key is borne is not inserted, whatever its bearer is at. -/
def insertUnlessBorne (spec : JobSpec Payload) (table : Table Payload Progress) :
    Table Payload Progress :=
  match borne : table.search spec.key with
  | none => table.insert spec (search_eq_none.mp borne)
  | some _ => table

def addJobs (merge : Payload → Payload → Payload) (spec : JobSpec Payload)
    (table : Table Payload Progress) : Table Payload Progress :=
  (table.detachUnavailable spec.key).insertOrOverwrite merge spec

/-- A job is added, or refused. -/
def addJob (merge : Payload → Payload → Payload) (spec : JobSpec Payload)
    (table : Table Payload Progress) : Option (Table Payload Progress) :=
  if spec.Accepted then
    if spec.key = none ∨ spec.mode ≠ .unsafeDedupe then some (table.addJobs merge spec)
    else some (table.insertUnlessBorne spec)
  else none

/-! ### The three outcomes -/

theorem available_iff :
    job.available = true ↔ job.holder = none ∧ job.attempts < job.maxAttempts := by
  simp [Job.available]

theorem detachUnavailable_of_lacks (lacks : table.Lacks key) :
    table.detachUnavailable key = table := by
  unfold detachUnavailable
  rw [search_eq_none.mpr lacks]

theorem detachUnavailable_of_available (found : table.jobs id = some job)
    (bears : job.Bears key) (available : job.available = true) :
    table.detachUnavailable key = table := by
  unfold detachUnavailable
  rw [search_eq_some.mpr ⟨found, bears⟩]
  exact if_pos available

theorem detachUnavailable_of_not_available (found : table.jobs id = some job)
    (bears : job.Bears key) (spent : job.available = false) :
    table.detachUnavailable key = table.modify id Job.detach fun _ _ => .inl rfl := by
  unfold detachUnavailable
  rw [search_eq_some.mpr ⟨found, bears⟩]
  exact if_neg (Bool.eq_false_iff.mp spent)

variable {merge : Payload → Payload → Payload} {spec : JobSpec Payload}

theorem insertOrOverwrite_new (lacks : table.Lacks spec.key) :
    (table.insertOrOverwrite merge spec).jobs =
      Function.update table.jobs table.fresh (some spec.job) := by
  unfold insertOrOverwrite
  split
  · rfl
  · rename_i borne
    rw [search_eq_none.mpr lacks] at borne
    cases borne

theorem insertOrOverwrite_free (found : table.jobs id = some job) (bears : job.Bears spec.key)
    (free : job.holder = none) :
    (table.insertOrOverwrite merge spec).jobs =
      Function.update table.jobs id (some (spec.overwrite merge job)) := by
  have search := search_eq_some.mpr ⟨found, bears⟩
  unfold insertOrOverwrite
  split
  · rename_i missed
    rw [search] at missed
    cases missed
  · rename_i borne
    rw [search, Option.some_inj, Prod.mk.injEq] at borne
    obtain ⟨rfl, rfl⟩ := borne
    rw [if_pos (Option.isNone_iff_eq_none.mpr free), modify_jobs found]

theorem addJobs_new (lacks : table.Lacks spec.key) :
    (table.addJobs merge spec).jobs = Function.update table.jobs table.fresh (some spec.job) := by
  rw [addJobs, detachUnavailable_of_lacks lacks, insertOrOverwrite_new lacks]

theorem addJobs_available (found : table.jobs id = some job) (bears : job.Bears spec.key)
    (available : job.available = true) :
    (table.addJobs merge spec).jobs =
      Function.update table.jobs id (some (spec.overwrite merge job)) := by
  rw [addJobs, detachUnavailable_of_available found bears available,
    insertOrOverwrite_free found bears (available_iff.mp available).1]

theorem addJobs_unavailable (found : table.jobs id = some job) (bears : job.Bears spec.key)
    (spent : job.available = false) :
    (table.addJobs merge spec).jobs =
      Function.update (Function.update table.jobs id (some job.detach)) table.fresh
        (some spec.job) := by
  rw [addJobs, detachUnavailable_of_not_available found bears spent,
    insertOrOverwrite_new (lacks_detached (search_eq_some.mpr ⟨found, bears⟩)), modify_jobs found,
    modify_fresh]

end Table

/-- The job asked for waits under an id that was free, or was the one of a job with the key that a
worker could take; all other jobs are as they were, but for one out of reach of the workers which
has lost the key. -/
structure Placed (merge : Payload → Payload → Payload) (spec : JobSpec Payload)
    (jobs after : Jobs Payload Progress) (id : Nat) (job : Job Payload Progress) : Prop where
  found : after id = some job
  asked : job = { spec.job with runAt := job.runAt, payload := job.payload }
  payload : job.payload = spec.payload ∨
    ∃ old, jobs id = some old ∧ job.payload = merge old.payload spec.payload
  runAt : spec.mode ≠ .preserveRunAt ∨ (∀ old, jobs id = some old → old.attempts ≠ 0) →
    job.runAt = spec.runAt
  replaces : ∀ old, jobs id = some old → old.available = true ∧ old.Bears spec.key
  others : ∀ other, other ≠ id → after other = jobs other ∨
    ∃ old, jobs other = some old ∧ old.available = false ∧ old.Bears spec.key ∧
      after other = some old.detach

namespace Table

variable {table after : Table Payload Progress} {id : Nat} {job : Job Payload Progress}
  {merge : Payload → Payload → Payload} {spec : JobSpec Payload}

/-- A new job under the next id. -/
theorem placed_fresh {after : Jobs Payload Progress}
    (found : after table.fresh = some spec.job)
    (others : ∀ other, other ≠ table.fresh → after other = table.jobs other ∨
      ∃ old, table.jobs other = some old ∧ old.available = false ∧ old.Bears spec.key ∧
        after other = some old.detach) :
    Placed merge spec table.jobs after table.fresh spec.job where
  found := found
  asked := rfl
  payload := .inl rfl
  runAt _ := rfl
  replaces old present := by
    rw [table.free table.fresh (Nat.le_refl _)] at present
    cases present
  others := others

theorem exists_placed_addJobs (merge : Payload → Payload → Payload) (spec : JobSpec Payload)
    (table : Table Payload Progress) :
    ∃ id job, Placed merge spec table.jobs (table.addJobs merge spec).jobs id job := by
  by_cases lacks : table.Lacks spec.key
  · rw [addJobs_new lacks]
    exact ⟨table.fresh, spec.job, placed_fresh (Function.update_self ..)
      fun other ne => .inl (Function.update_of_ne ne ..)⟩
  · unfold Lacks at lacks
    push Not at lacks
    obtain ⟨id, old, found, bears⟩ := lacks
    cases available : old.available with
    | true =>
        rw [addJobs_available found bears available]
        refine ⟨id, spec.overwrite merge old, ?_⟩
        exact
          { found := Function.update_self ..
            asked := rfl
            payload := .inr ⟨old, found, rfl⟩
            runAt := by
              rintro (fresh | tried)
              · simp [JobSpec.overwrite, fresh]
              · simp [JobSpec.overwrite, tried old found]
            replaces := fun present here => by
              rw [found, Option.some_inj] at here
              subst here
              exact ⟨available, bears⟩
            others := fun other ne => .inl (Function.update_of_ne ne ..) }
    | false =>
        rw [addJobs_unavailable found bears available]
        refine ⟨table.fresh, spec.job, placed_fresh (Function.update_self ..) fun other ne => ?_⟩
        rw [Function.update_of_ne ne]
        rcases eq_or_ne other id with rfl | otherNe
        · exact .inr ⟨old, found, available, bears, Function.update_self ..⟩
        · exact .inl (Function.update_of_ne otherNe ..)

/-- Unless it is swallowed by a job with the same key, a job which is added is placed. -/
theorem exists_placed (added : table.addJob merge spec = some after)
    (heard : spec.mode ≠ .unsafeDedupe ∨ table.Lacks spec.key) :
    ∃ id job, Placed merge spec table.jobs after.jobs id job := by
  unfold addJob at added
  split at added
  · split at added
    · cases added
      exact exists_placed_addJobs merge spec table
    · rename_i deduped
      push Not at deduped
      have lacks : table.Lacks spec.key := heard.resolve_left fun mode => mode deduped.2
      have inserted : (table.insertUnlessBorne spec).jobs =
          Function.update table.jobs table.fresh (some spec.job) := by
        unfold insertUnlessBorne
        split
        · rfl
        · rename_i borne
          rw [search_eq_none.mpr lacks] at borne
          cases borne
      cases added
      rw [inserted]
      exact ⟨table.fresh, spec.job, placed_fresh (Function.update_self ..)
        fun other ne => .inl (Function.update_of_ne ne ..)⟩
  · cases added

/-- A job which is added is placed, or swallowed without a trace. -/
theorem placed_or_same (added : table.addJob merge spec = some after) :
    (∃ id job, Placed merge spec table.jobs after.jobs id job) ∨ after.jobs = table.jobs := by
  by_cases heard : spec.mode ≠ .unsafeDedupe ∨ table.Lacks spec.key
  · exact .inl (exists_placed added heard)
  · push Not at heard
    obtain ⟨dedupe, borne⟩ := heard
    have key : spec.key ≠ none := by
      unfold Lacks at borne
      push Not at borne
      obtain ⟨id, job, found, bears⟩ := borne
      exact bears.1
    unfold addJob at added
    split at added
    · rw [if_neg (by simp [key, dedupe])] at added
      cases added
      right
      unfold insertUnlessBorne
      split
      · rename_i missed
        exact (borne (search_eq_none.mp missed)).elim
      · rfl
    · cases added

/-- A job which does not bear the key asked for stays as it is. -/
theorem addJob_keeps (added : table.addJob merge spec = some after)
    (found : table.jobs id = some job) (other : ¬ job.Bears spec.key) :
    after.jobs id = some job := by
  rcases placed_or_same added with ⟨placedId, new, placed⟩ | same
  · have ne : id ≠ placedId := by
      rintro rfl
      exact other (placed.replaces job found).2
    rcases placed.others id ne with kept | ⟨old, present, -, bears, -⟩
    · rw [kept, found]
    · rw [found, Option.some_inj] at present
      subst present
      exact (other bears).elim
  · rw [same, found]

/-- Every job there behind an addition is the one asked for, or was there, perhaps with a key. -/
theorem of_addJob (added : table.addJob merge spec = some after)
    (found : after.jobs id = some job) :
    (job = { spec.job with runAt := job.runAt, payload := job.payload } ∧
      (job.payload = spec.payload ∨
        ∃ old, table.jobs id = some old ∧ job.payload = merge old.payload spec.payload)) ∨
      table.jobs id = some job ∨
      ∃ old, table.jobs id = some old ∧ old.available = false ∧ old.Bears spec.key ∧
        job = old.detach := by
  rcases placed_or_same added with ⟨placedId, new, placed⟩ | same
  · rcases eq_or_ne id placedId with rfl | ne
    · rw [placed.found, Option.some_inj] at found
      subst found
      exact .inl ⟨placed.asked, placed.payload⟩
    · rcases placed.others id ne with kept | ⟨old, present, spent, bears, detached⟩
      · exact .inr (.inl (kept.symm.trans found))
      · rw [detached, Option.some_inj] at found
        exact .inr (.inr ⟨old, present, spent, bears, found.symm⟩)
  · exact .inr (.inl (same ▸ found))

/-- A spec which passes the checks is added. -/
theorem addJob_isSome (merge : Payload → Payload → Payload) (table : Table Payload Progress)
    (accepted : spec.Accepted) : (table.addJob merge spec).isSome := by
  rw [addJob, if_pos accepted]
  split
  · rfl
  · rfl

end Table

end JobQueue
