import DotaCollector.Library.Schedule

/-!
# The semaphore of the parser

The loop of the parser reads the parallelism at every tick and, when it has changed, makes a new
semaphore. A parse gives its slot back to the semaphore it was admitted by, so the parses which
are running at a change hold no slot of the new one, which is empty and admits as many again.
-/

namespace DotaCollector
namespace Parser
namespace Concurrency

/-- Where the loop is: at the ticker, in `fill`, or in `fill` with a slot and its claim open. -/
inductive Phase where
  | waiting
  | filling
  | claiming
  deriving DecidableEq, Repr

/-- The setting in force and the settings before it, oldest first. Each of them has made one
semaphore, which is named by the number of settings before it; `jobs` are the semaphores of the
running parses, in the order of their admission. -/
structure State where
  n : Nat := 10
  earlier : List Nat := []
  phase : Phase := .waiting
  jobs : List Nat := []
  deriving DecidableEq

inductive Event where
  /-- A turn of the loop: `Parallelism` answers with a setting, or with an error. -/
  | parallelism (answer : Option Nat)
  /-- `sem <- struct{}{}`. -/
  | acquire
  /-- The semaphore has no slot left. -/
  | full
  /-- `Claim` returns a job. -/
  | claimed
  /-- `Claim` returns nothing, or an error, and the slot is given back. -/
  | unclaimed
  /-- The parse which is in this place of the admissions ends. -/
  | finish (place : Nat)
  deriving DecidableEq

namespace State

/-- The semaphore in use. -/
def sem (state : State) : Nat := state.earlier.length

/-- The slots taken of the semaphore in use. -/
def taken (state : State) : Nat :=
  state.jobs.count state.sem + if state.phase = .claiming then 1 else 0

/-- `n = p` and `sem = make(chan struct{}, n)`. -/
def replaceSem (state : State) (p : Nat) : State :=
  { state with n := p, earlier := state.earlier ++ [state.n] }

end State

def next (state : State) : Event → Option State
  | .parallelism answer =>
      match state.phase, answer with
      | .waiting, some p =>
          if 0 < p ∧ p ≠ state.n then some { state.replaceSem p with phase := .filling }
          else some { state with phase := .filling }
      | .waiting, none => some { state with phase := .filling }
      | _, _ => none
  | .acquire =>
      if state.phase = .filling ∧ state.taken < state.n then
        some { state with phase := .claiming }
      else none
  | .full =>
      if state.phase = .filling ∧ state.n ≤ state.taken then some { state with phase := .waiting }
      else none
  | .claimed =>
      if state.phase = .claiming then
        some { state with phase := .filling, jobs := state.jobs ++ [state.sem] }
      else none
  | .unclaimed =>
      if state.phase = .claiming then some { state with phase := .waiting } else none
  | .finish place =>
      if place < state.jobs.length then some { state with jobs := state.jobs.eraseIdx place }
      else none

/-! ## Properties -/

/-- The largest setting since a semaphore was made. -/
def State.largest (state : State) (sem : Nat) : Nat := (state.earlier.drop sem).foldr max state.n

/-- There are no more parses in flight than the largest setting since the oldest of them was
admitted. -/
def Within (state : State) : Prop :=
  ∀ oldest ∈ state.jobs.head?, state.jobs.length ≤ state.largest oldest

/-- A setting is changed only where, for each running parse, the parses admitted since its
semaphore was made leave room for the new setting within the largest one since then. -/
def Room (state : State) : Event → Prop
  | .parallelism (some p) =>
      0 < p → p ≠ state.n → ∀ sem ∈ state.jobs,
        state.jobs.countP (sem ≤ ·) + p ≤ state.largest sem
  | _ => True

instance (state : State) : (event : Event) → Decidable (Room state event)
  | .parallelism (some p) =>
      inferInstanceAs (Decidable (0 < p → p ≠ state.n → ∀ sem ∈ state.jobs,
        state.jobs.countP (sem ≤ ·) + p ≤ state.largest sem))
  | .parallelism none | .acquire | .full | .claimed | .unclaimed | .finish _ => .isTrue trivial

/-- The event is no turn of the loop. -/
def Event.keepsSetting : Event → Prop
  | .parallelism _ => False
  | _ => True

/-! ## The semaphores -/

/-- Every parse holds a slot of a semaphore made so far, the oldest of the oldest, and the one in
use has given away no more slots than it has. -/
structure Slots (state : State) : Prop where
  sorted : state.jobs.Pairwise (· ≤ ·)
  made : ∀ sem ∈ state.jobs, sem ≤ state.sem
  taken : state.taken ≤ state.n

/-- The parses which an older semaphore admitted leave room for the one in use. -/
def Fits (state : State) : Prop :=
  ∀ sem ∈ state.jobs, sem < state.sem →
    state.jobs.countP (fun job => sem ≤ job ∧ job < state.sem) + state.n ≤ state.largest sem

variable {state after : State} {event : Event}

theorem n_le_largest (state : State) (sem : Nat) : state.n ≤ state.largest sem := by
  rw [State.largest]
  induction state.earlier.drop sem with
  | nil => exact Nat.le_refl _
  | cons setting settings ih => exact ih.trans (Nat.le_max_right _ _)

@[simp] theorem sem_replaceSem (state : State) (p : Nat) :
    (state.replaceSem p).sem = state.sem + 1 := List.length_append

/-- No parse holds a slot of the semaphore just made. -/
theorem Slots.count_replaceSem (slots : Slots state) (p : Nat) :
    state.jobs.count (state.replaceSem p).sem = 0 := by
  refine List.count_eq_zero.mpr fun member => ?_
  have bound := slots.made _ member
  rw [sem_replaceSem] at bound
  exact Nat.not_succ_le_self _ bound

/-- What a step does to the setting, the semaphores and the parses. -/
inductive Moves (state : State) : Event → State → Prop where
  | change {p : Nat} (waiting : state.phase = .waiting) (positive : 0 < p) (other : p ≠ state.n) :
      Moves state (.parallelism (some p))
        { state.replaceSem p with phase := .filling }
  | keep {answer : Option Nat} (waiting : state.phase = .waiting)
      (same : ∀ p, answer = some p → 0 < p → p = state.n) :
      Moves state (.parallelism answer) { state with phase := .filling }
  | acquire (filling : state.phase = .filling) (free : state.taken < state.n) :
      Moves state .acquire { state with phase := .claiming }
  | full (filling : state.phase = .filling) : Moves state .full { state with phase := .waiting }
  | claimed (claiming : state.phase = .claiming) :
      Moves state .claimed { state with phase := .filling, jobs := state.jobs ++ [state.sem] }
  | unclaimed (claiming : state.phase = .claiming) :
      Moves state .unclaimed { state with phase := .waiting }
  | finish {place : Nat} (running : place < state.jobs.length) :
      Moves state (.finish place) { state with jobs := state.jobs.eraseIdx place }

theorem moves_of_next (step : next state event = some after) : Moves state event after := by
  cases event with
  | parallelism answer =>
      simp only [next] at step
      split at step
      · split at step <;> cases step
        · rename_i _ _ waiting changed
          exact .change waiting changed.1 changed.2
        · rename_i _ p waiting unchanged
          refine .keep waiting fun _ same positive => ?_
          cases same
          by_contra other
          exact unchanged ⟨positive, other⟩
      · rename_i waiting
        cases step
        exact .keep waiting fun _ same => by cases same
      · cases step
  | acquire =>
      simp only [next] at step
      split at step <;> cases step
      rename_i free
      exact .acquire free.1 free.2
  | full =>
      simp only [next] at step
      split at step <;> cases step
      rename_i full
      exact .full full.1
  | claimed =>
      simp only [next] at step
      split at step <;> cases step
      exact .claimed ‹_›
  | unclaimed =>
      simp only [next] at step
      split at step <;> cases step
      exact .unclaimed ‹_›
  | finish place =>
      simp only [next] at step
      split at step <;> cases step
      exact .finish ‹_›

theorem Slots.next (slots : Slots state) (step : next state event = some after) :
    Slots after := by
  have fresh := slots.count_replaceSem
  obtain ⟨sorted, made, taken⟩ := slots
  simp only [State.taken, State.sem] at made taken
  cases moves_of_next step with
  | @change p waiting positive other =>
      refine ⟨sorted, fun sem member => ?_, ?_⟩
      · change sem ≤ (state.replaceSem p).sem
        rw [sem_replaceSem]
        exact Nat.le_succ_of_le (made sem member)
      · change state.jobs.count (state.replaceSem p).sem + 0 ≤ p
        rw [fresh p]
        exact Nat.zero_le p
  | keep waiting =>
      refine ⟨sorted, made, ?_⟩
      simp only [State.taken, State.sem, waiting] at taken ⊢
      simpa using taken
  | acquire filling free =>
      refine ⟨sorted, made, ?_⟩
      simp only [State.taken, State.sem, filling] at free ⊢
      simpa using Nat.succ_le_of_lt free
  | full filling =>
      refine ⟨sorted, made, ?_⟩
      simp only [State.taken, State.sem, filling] at taken ⊢
      simpa using taken
  | claimed claiming =>
      refine ⟨?_, ?_, ?_⟩
      · refine List.pairwise_append.mpr ⟨sorted, List.pairwise_singleton _ _, ?_⟩
        intro sem member last same
        rw [List.mem_singleton.mp same]
        exact made sem member
      · intro sem member
        rcases List.mem_append.mp member with earlier | last
        · exact made sem earlier
        · rw [List.mem_singleton.mp last]
          exact Nat.le_refl _
      · simp only [State.taken, State.sem, claiming] at taken ⊢
        simpa using taken
  | unclaimed claiming =>
      refine ⟨sorted, made, ?_⟩
      simp only [State.taken, State.sem, claiming] at taken ⊢
      simp only [if_true] at taken
      simp
      omega
  | @finish place running =>
      have fewer := List.eraseIdx_sublist state.jobs place
      refine ⟨sorted.sublist fewer, fun sem member => made sem (fewer.subset member), ?_⟩
      have count := fewer.count_le state.sem
      simp only [State.taken, State.sem] at count taken ⊢
      omega

/-- The parses are those of the older semaphores and those of the one in use. -/
theorem Slots.length_eq (slots : Slots state) {oldest : Nat} (first : oldest ∈ state.jobs.head?) :
    state.jobs.length =
      state.jobs.countP (fun job => oldest ≤ job ∧ job < state.sem) +
        state.jobs.count state.sem := by
  have least : ∀ job ∈ state.jobs, oldest ≤ job := by
    obtain ⟨rest, jobs⟩ : ∃ rest, state.jobs = oldest :: rest :=
      ⟨_, List.eq_cons_of_mem_head? first⟩
    have sorted := slots.sorted
    rw [jobs] at sorted ⊢
    intro job member
    rcases List.mem_cons.mp member with rfl | later
    · exact Nat.le_refl _
    · exact List.rel_of_pairwise_cons sorted later
  rw [List.length_eq_countP_add_countP fun job => decide (oldest ≤ job ∧ job < state.sem)]
  refine congrArg _ (List.countP_congr fun job member => ?_)
  have lower := least job member
  have upper := slots.made job member
  simp only [beq_iff_eq, decide_eq_true_eq]
  omega

theorem Slots.within (slots : Slots state) (fits : Fits state) : Within state := by
  intro oldest first
  have member : oldest ∈ state.jobs := List.mem_of_head? first
  have split := slots.length_eq first
  have bound := n_le_largest state oldest
  have taken := slots.taken
  rw [State.taken] at taken
  rcases (slots.made oldest member).lt_or_eq with older | rfl
  · have room := fits oldest member older
    omega
  · have none : state.jobs.countP (fun job => state.sem ≤ job ∧ job < state.sem) = 0 := by
      rw [List.countP_eq_zero]
      intro job _
      simp
    omega

theorem foldr_max_max (settings : List Nat) (n p : Nat) :
    settings.foldr max (max n p) = max (settings.foldr max n) p := by
  induction settings with
  | nil => rfl
  | cons setting settings ih => rw [List.foldr_cons, List.foldr_cons, ih, Nat.max_assoc]

/-- A change of the setting adds it to the settings since a semaphore was made. -/
theorem largest_replaceSem (p : Nat) {sem : Nat} (made : sem ≤ state.sem) :
    (state.replaceSem p).largest sem = max (state.largest sem) p := by
  rw [State.largest, State.replaceSem, List.drop_append_of_le_length made, List.foldr_append]
  exact foldr_max_max _ _ _

theorem Fits.next (fits : Fits state) (slots : Slots state) (room : Room state event)
    (step : next state event = some after) : Fits after := by
  cases moves_of_next step with
  | @change p waiting positive other =>
      intro sem member _
      have admitted := room positive other sem member
      have fewer : state.jobs.countP (fun job => sem ≤ job ∧ job < (state.replaceSem p).sem) ≤
          state.jobs.countP (sem ≤ ·) :=
        List.countP_mono_left fun job _ within => by
          simp only [decide_eq_true_eq] at within ⊢
          exact within.1
      change state.jobs.countP (fun job => sem ≤ job ∧ job < (state.replaceSem p).sem) + p ≤
        (state.replaceSem p).largest sem
      rw [largest_replaceSem p (slots.made sem member)]
      omega
  | keep | acquire | full | unclaimed => exact fits
  | claimed claiming =>
      intro sem member older
      have before : sem ∈ state.jobs := by
        rcases List.mem_append.mp member with before | last
        · exact before
        · exact absurd (List.mem_singleton.mp last) (Nat.ne_of_lt older)
      have same : (state.jobs ++ [state.sem]).countP
            (fun job => sem ≤ job ∧ job < state.sem) =
          state.jobs.countP (fun job => sem ≤ job ∧ job < state.sem) := by
        rw [List.countP_append, List.countP_singleton]
        simp
      exact same ▸ fits sem before older
  | @finish place running =>
      have fewer := List.eraseIdx_sublist state.jobs place
      intro sem member older
      have room := fits sem (fewer.subset member) older
      exact (Nat.add_le_add_right fewer.countP_le _).trans room

/-! ## What a change without room leads to -/

/-- As long as the semaphore in use has slots, `fill` admits parses. -/
theorem exists_fill (state : State) (jobs : List Nat) (m : Nat)
    (free : jobs.count state.sem + m ≤ state.n) :
    ∃ events, (∀ event ∈ events, event.keepsSetting) ∧
      Schedule.run next { state with phase := .filling, jobs } events =
        some { state with phase := .filling, jobs := jobs ++ List.replicate m state.sem } := by
  induction m generalizing jobs with
  | zero => exact ⟨[], by simp, by simp⟩
  | succ m ih =>
      obtain ⟨events, keeps, filled⟩ := ih (jobs ++ [state.sem]) (by
        rw [List.count_append, List.count_singleton_self]
        omega)
      have acquire : next { state with phase := .filling, jobs } .acquire =
          some { state with phase := .claiming, jobs } := by
        have slot : jobs.count state.sem < state.n := by omega
        simp only [State.sem] at slot
        simp [next, State.taken, State.sem, slot]
      refine ⟨.acquire :: .claimed :: events, ?_, ?_⟩
      · simpa [Event.keepsSetting] using keeps
      · refine Schedule.run_cons_eq_some.mpr ⟨_, acquire, Schedule.run_cons_eq_some.mpr
          ⟨{ state with phase := .filling, jobs := jobs ++ [state.sem] }, rfl, ?_⟩⟩
        rw [filled, List.append_assoc, List.singleton_append, ← List.replicate_succ]

/-- The oldest parses may all end. -/
theorem exists_finish (state : State) (jobs : List Nat) (m : Nat) (running : m ≤ jobs.length) :
    ∃ events, (∀ event ∈ events, event.keepsSetting) ∧
      Schedule.run next { state with jobs } events = some { state with jobs := jobs.drop m } := by
  induction m generalizing jobs with
  | zero => exact ⟨[], by simp, rfl⟩
  | succ m ih =>
      cases jobs with
      | nil => simp at running
      | cons oldest jobs =>
          obtain ⟨events, keeps, drained⟩ := ih jobs (by simpa using running)
          refine ⟨.finish 0 :: events, ?_, ?_⟩
          · simpa [Event.keepsSetting] using keeps
          · exact Schedule.run_cons_eq_some.mpr ⟨{ state with jobs }, by simp [next], drained⟩

/-- In the order of their admission, the parses of older semaphores stand before the others. -/
theorem drop_countP_lt {jobs : List Nat} (sorted : jobs.Pairwise (· ≤ ·)) (sem : Nat) :
    jobs.drop (jobs.countP (· < sem)) = jobs.filter (sem ≤ ·) := by
  induction jobs with
  | nil => rfl
  | cons oldest jobs ih =>
      obtain ⟨least, sorted⟩ := List.pairwise_cons.mp sorted
      by_cases older : oldest < sem
      · have drop : ¬ sem ≤ oldest := by omega
        simp [older, drop, ih sorted]
      · have kept : jobs.countP (· < sem) = 0 := by
          rw [List.countP_eq_zero]
          intro job member
          have bound := least job member
          simp
          omega
        have all : ∀ job ∈ oldest :: jobs, sem ≤ job := by
          intro job member
          rcases List.mem_cons.mp member with rfl | later
          · omega
          · have bound := least job later
            omega
        rw [List.countP_cons_of_neg (by simpa using older), kept,
          List.filter_eq_self.mpr (by simpa using all)]
        rfl

/-- The parses of a semaphore and of the later ones begin with one of its own. -/
theorem head?_filter_le {jobs : List Nat} (sorted : jobs.Pairwise (· ≤ ·)) {sem : Nat}
    (member : sem ∈ jobs) : (jobs.filter (sem ≤ ·)).head? = some sem := by
  induction jobs with
  | nil => cases member
  | cons oldest jobs ih =>
      obtain ⟨least, sorted⟩ := List.pairwise_cons.mp sorted
      rcases List.mem_cons.mp member with rfl | later
      · rw [List.filter_cons_of_pos (by simp)]
        rfl
      · rcases (least sem later).lt_or_eq with older | rfl
        · rw [List.filter_cons_of_neg (by simpa using older)]
          exact ih sorted later
        · rw [List.filter_cons_of_pos (by simp)]
          rfl

/-- A change without room leads to more parses than any setting since the oldest one. -/
theorem exists_overflow (slots : Slots state) {p sem : Nat} (member : sem ∈ state.jobs)
    (crowded : state.largest sem < state.jobs.countP (sem ≤ ·) + p) :
    ∃ events reached, (∀ event ∈ events, event.keepsSetting) ∧
      Schedule.run next { state.replaceSem p with phase := .filling } events = some reached ∧
      ¬ Within reached := by
  let changed := state.replaceSem p
  obtain ⟨fill, fillKeeps, filled⟩ := exists_fill changed state.jobs p (by
    rw [slots.count_replaceSem p, Nat.zero_add]
    exact Nat.le_refl p)
  let older := state.jobs.countP (· < sem)
  have inside : older ≤ state.jobs.length := List.countP_le_length
  obtain ⟨finish, finishKeeps, finished⟩ := exists_finish
    { changed with phase := .filling } (state.jobs ++ List.replicate p changed.sem) older
    (by rw [List.length_append]; omega)
  refine ⟨fill ++ finish, _, ?_, Schedule.run_append_eq_some.mpr ⟨_, filled, finished⟩, ?_⟩
  · intro event among
    rcases List.mem_append.mp among with among | among
    · exact fillKeeps event among
    · exact finishKeeps event among
  · have jobs : (state.jobs ++ List.replicate p changed.sem).drop older =
        state.jobs.filter (sem ≤ ·) ++ List.replicate p changed.sem := by
      rw [List.drop_append_of_le_length inside, drop_countP_lt slots.sorted]
    intro within
    have bound := within sem (by
      change ((state.jobs ++ List.replicate p changed.sem).drop older).head? = some sem
      rw [jobs, List.head?_append, head?_filter_le slots.sorted member]
      rfl)
    change ((state.jobs ++ List.replicate p changed.sem).drop older).length ≤
      changed.largest sem at bound
    rw [jobs, List.length_append, List.length_replicate, ← List.countP_eq_length_filter,
      largest_replaceSem p (slots.made sem member)] at bound
    have running : 0 < state.jobs.countP (sem ≤ ·) :=
      List.countP_pos_iff.mpr ⟨sem, member, by simp⟩
    omega

/-! ## Every run -/

theorem run_slots {start : State} {events : List Event} (slots : Slots start)
    (execution : Schedule.run next start events = some state) : Slots state :=
  Schedule.run_invariant (fun held step => held.next step) slots execution

/-- Where each change finds room, the older parses leave room for the semaphore in use. -/
theorem run_within {start : State} {events : List Event}
    (room : Schedule.Throughout next Room start events) (slots : Slots start) (fits : Fits start)
    (execution : Schedule.run next start events = some state) : Slots state ∧ Fits state := by
  have kept : ∀ {state event after}, Slots state ∧ Fits state → Room state event →
      next state event = some after → Slots after ∧ Fits after := by
    rintro state event after ⟨slots, fits⟩ room step
    exact ⟨slots.next step, fits.next slots room step⟩
  exact room.run_invariant kept ⟨slots, fits⟩ execution

theorem slots_initial : Slots {} where
  sorted := List.Pairwise.nil
  made _ member := by cases member
  taken := Nat.zero_le _

/-- No turn of the loop comes in these events, so none changes the setting. -/
theorem throughout_room {start : State} {events : List Event}
    (keeps : ∀ event ∈ events, event.keepsSetting) :
    Schedule.Throughout next Room start events := by
  refine Schedule.throughout_iff.mpr fun front event back state split _ => ?_
  have kept := keeps event (by simp [split])
  cases event with
  | parallelism answer => exact kept.elim
  | acquire | full | claimed | unclaimed | finish => trivial

/-- In every run, the parses in flight stay within the largest setting since the oldest of them
was admitted, in every state reached and in all that claims and the ends of parses lead to from
there, exactly when each change of the setting finds room for the new one. -/
theorem within_iff_room (events : List Event) (final : State)
    (execution : Schedule.run next {} events = some final) :
    (∀ visited state later reached, visited <+: events →
      Schedule.run next {} visited = some state → (∀ event ∈ later, event.keepsSetting) →
      Schedule.run next state later = some reached → Within reached) ↔
      Schedule.Throughout next Room {} events := by
  constructor
  · intro within
    refine Schedule.throughout_iff.mpr fun front event back state split reached => ?_
    rw [split] at execution within
    obtain ⟨after, step, -⟩ := Schedule.run_cons_eq_some.mp (Schedule.run_back reached execution)
    cases event with
    | acquire | full | claimed | unclaimed | finish => trivial
    | parallelism answer =>
        cases answer with
        | none => trivial
        | some p =>
            intro positive other sem member
            by_contra crowded
            cases moves_of_next step with
            | keep waiting same => exact other (same p rfl positive)
            | change waiting =>
                obtain ⟨later, overflow, keeps, toOverflow, exceeds⟩ := exists_overflow
                  (run_slots slots_initial reached) member (Nat.lt_of_not_le crowded)
                exact exceeds (within (front ++ [.parallelism (some p)]) _ later overflow
                  ⟨back, by simp⟩ (Schedule.run_snoc reached step) keeps toOverflow)
  · rintro room visited state later reached ⟨back, rfl⟩ toState keeps toReached
    have none : Fits {} := fun _ member => by cases member
    obtain ⟨slots, fits⟩ := run_within room.front slots_initial none toState
    obtain ⟨slots, fits⟩ := run_within (throughout_room keeps) slots fits toReached
    exact slots.within fits

/-- Three parses are admitted under a setting of three. Two of them have ended when the setting is
lowered to two, and two more are admitted beside the one which still runs. -/
def settled : List Event :=
  [.parallelism (some 3), .acquire, .claimed, .acquire, .claimed, .acquire, .claimed, .full,
    .finish 0, .finish 1, .parallelism (some 2), .acquire, .claimed, .acquire, .claimed, .full]

theorem within_settled : ∃ final, Schedule.run next {} settled = some final ∧
    final.jobs = [1, 2, 2] ∧ final.largest 1 = 3 ∧ Within final := by
  refine ⟨_, rfl, rfl, rfl, ?_⟩
  exact (within_iff_room settled _ rfl).mpr (by decide) settled _ [] _ (List.prefix_refl _) rfl
    (fun _ among => by cases among) rfl

/-- One parse is running when the setting is raised from one to two. -/
theorem raised_setting_overflows : ∃ final,
    Schedule.run next {} [.parallelism (some 1), .acquire, .claimed, .full,
      .parallelism (some 2), .acquire, .claimed, .acquire, .claimed] = some final ∧
    final.jobs = [1, 2, 2] ∧ final.largest 1 = 2 ∧ ¬ Within final := by
  refine ⟨_, rfl, rfl, rfl, fun within => ?_⟩
  have bound := within 1 rfl
  revert bound
  decide

end Concurrency
end Parser
end DotaCollector
