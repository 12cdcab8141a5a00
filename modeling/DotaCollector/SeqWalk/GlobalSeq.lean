import Mathlib.Order.Lattice
import Mathlib.Order.MinMax
import DotaCollector.Library.Processes
import DotaCollector.Library.Schedule

/-!
# The global maximum of the sequence numbers

`bumpGlobalMatchSeq` reads the cursor, takes the maximum in the process, and writes it back: two
statements with no transaction around them. The cursor of the walk has one statement with
`GREATEST` in its place. A step is the call of the function by one of its callers, or one of the
two statements.
-/

namespace DotaCollector
namespace SeqWalk
namespace GlobalSeq

/-- The text of an ingest cursor, as `Number` reads it. -/
inductive CursorText where
  | numeral (value : Int)
  /-- Any text which `Number` makes `NaN` of. -/
  | other
  deriving DecidableEq, Repr

/-- `current == null ? 0 : Number(current) || 0`. -/
def cursorNumber : Option CursorText → Int
  | some (.numeral value) => value
  | some .other | none => 0

/-- Where a caller is within `bumpGlobalMatchSeq`. -/
inductive Phase where
  | idle
  | reading (seq : Int)
  | writing (seq : Int) (current : Option CursorText)
  deriving DecidableEq, Repr

variable {Caller : Type*} [DecidableEq Caller]

/-- The row `global_max_match_seq_num`, the callers, and every number passed so far. -/
structure State (Caller : Type*) where
  value : Option CursorText := none
  phase : Caller → Phase := fun _ => .idle
  passed : List Int := []

inductive Event (Caller : Type*) where
  | bumpGlobalMatchSeq (caller : Caller) (seq : Int)
  | getCursor (caller : Caller)
  | setCursor (caller : Caller)

namespace State

def setPhase (state : State Caller) (caller : Caller) (phase : Phase) : State Caller :=
  { state with phase := Function.update state.phase caller phase }

theorem phase_setPhase_self (state : State Caller) (caller : Caller) (phase : Phase) :
    (state.setPhase caller phase).phase caller = phase :=
  Function.update_self ..

theorem phase_setPhase_of_ne (state : State Caller) {caller other : Caller} (phase : Phase)
    (ne : other ≠ caller) : (state.setPhase caller phase).phase other = state.phase other :=
  Function.update_of_ne ne ..

/-- `global_max_match_seq_num`. -/
def maximum (state : State Caller) : Int := cursorNumber state.value

/-- Every call has returned. -/
def Returned (state : State Caller) : Prop := ∀ caller, state.phase caller = .idle

end State

/-- One call, or one statement of a call under way. -/
def next (state : State Caller) : Event Caller → Option (State Caller)
  | .bumpGlobalMatchSeq caller seq =>
      match state.phase caller with
      | .idle =>
          let phase := if seq ≤ 0 then .idle else .reading seq
          some { state.setPhase caller phase with passed := seq :: state.passed }
      | _ => none
  | .getCursor caller =>
      match state.phase caller with
      | .reading seq => some (state.setPhase caller (.writing seq state.value))
      | _ => none
  | .setCursor caller =>
      match state.phase caller with
      | .writing seq current =>
          let max := max seq (cursorNumber current)
          some { state.setPhase caller .idle with value := some (.numeral max) }
      | _ => none

/-- A caller about to write finds the maximum no higher than its own number, or than what it has
read. -/
def Fresh (state : State Caller) : Event Caller → Prop
  | .setCursor caller =>
      match state.phase caller with
      | .writing seq current => state.maximum ≤ seq ∨ state.maximum ≤ cursorNumber current
      | _ => True
  | _ => True

/-- A caller reads while nobody else is between its read and its write. -/
def Alone (state : State Caller) : Event Caller → Prop
  | .getCursor _ => ∀ other seq current, state.phase other ≠ .writing seq current
  | _ => True

/-- From one moment of the run to any later one the maximum does not decrease. -/
def NeverDecreases (start : State Caller) (events : List (Event Caller)) : Prop :=
  ∀ front back first last, front ++ back <+: events → Schedule.run next start front = some first →
    Schedule.run next first back = some last → first.maximum ≤ last.maximum

/-- When all calls have returned, no number passed is above the maximum. -/
def Covered (state : State Caller) : Prop :=
  state.Returned → ∀ seq ∈ state.passed, seq ≤ state.maximum

/-! ## One step -/

/-- The number which a call under way was passed. -/
def Phase.seq? : Phase → Option Int
  | .idle => none
  | .reading seq | .writing seq _ => some seq

variable {state after : State Caller} {event : Event Caller}

/-- The steps of the system, each with its guard and its successor. -/
theorem next_cases (step : next state event = some after) :
    (∃ caller seq, event = .bumpGlobalMatchSeq caller seq ∧ state.phase caller = .idle ∧
      after = { state.setPhase caller (if seq ≤ 0 then .idle else .reading seq) with
        passed := seq :: state.passed }) ∨
    (∃ caller seq, event = .getCursor caller ∧ state.phase caller = .reading seq ∧
      after = state.setPhase caller (.writing seq state.value)) ∨
    (∃ caller seq current, event = .setCursor caller ∧
      state.phase caller = .writing seq current ∧
      after = { state.setPhase caller .idle with
        value := some (.numeral (max seq (cursorNumber current))) }) := by
  cases event with
  | bumpGlobalMatchSeq caller seq =>
      simp only [next] at step
      split at step
      · cases step
        exact .inl ⟨caller, seq, rfl, ‹_›, rfl⟩
      · cases step
  | getCursor caller =>
      simp only [next] at step
      split at step
      · cases step
        exact .inr (.inl ⟨caller, _, rfl, ‹_›, rfl⟩)
      · cases step
  | setCursor caller =>
      simp only [next] at step
      split at step
      · cases step
        exact .inr (.inr ⟨caller, _, _, rfl, ‹_›, rfl⟩)
      · cases step

/-- A step keeps the maximum from decreasing exactly when the guard holds before it. -/
theorem fresh_iff (step : next state event = some after) :
    Fresh state event ↔ state.maximum ≤ after.maximum := by
  rcases next_cases step with ⟨caller, seq, rfl, -, rfl⟩ | ⟨caller, seq, rfl, -, rfl⟩ |
    ⟨caller, seq, current, rfl, phase, rfl⟩
  · exact iff_of_true trivial le_rfl
  · exact iff_of_true trivial le_rfl
  · simp only [Fresh, phase]
    exact le_max_iff.symm

/-- Every number passed is below the maximum, or its call is still under way. -/
def Accounted (state : State Caller) : Prop :=
  0 ≤ state.maximum ∧
    ∀ seq ∈ state.passed, seq ≤ state.maximum ∨ ∃ caller, (state.phase caller).seq? = some seq

omit [DecidableEq Caller] in
theorem Accounted.covered (accounted : Accounted state) : Covered state := by
  intro returned seq member
  rcases accounted.2 seq member with below | ⟨caller, held⟩
  · exact below
  · rw [returned caller] at held
    cases held

/-- A number whose call stays under way is still held after the step. -/
theorem held_setPhase {caller : Caller} {phase : Phase} {seq : Int}
    (kept : (state.phase caller).seq? = some seq → phase.seq? = some seq)
    (held : ∃ caller, (state.phase caller).seq? = some seq) :
    ∃ other, ((state.setPhase caller phase).phase other).seq? = some seq := by
  obtain ⟨holder, held⟩ := held
  by_cases same : holder = caller
  · subst same
    refine ⟨holder, ?_⟩
    rw [State.phase_setPhase_self]
    exact kept held
  · refine ⟨holder, ?_⟩
    rwa [State.phase_setPhase_of_ne state phase same]

theorem Accounted.next (accounted : Accounted state) (fresh : Fresh state event)
    (step : next state event = some after) : Accounted after := by
  have raised := (fresh_iff step).mp fresh
  refine ⟨accounted.1.trans raised, fun seq member => ?_⟩
  rcases next_cases step with ⟨caller, passed, rfl, idle, rfl⟩ | ⟨caller, passed, rfl, phase, rfl⟩ |
    ⟨caller, passed, current, rfl, phase, rfl⟩
  · rcases List.mem_cons.mp member with rfl | earlier
    · by_cases small : seq ≤ 0
      · exact .inl (small.trans accounted.1)
      · refine .inr ⟨caller, ?_⟩
        rw [if_neg small]
        exact congrArg Phase.seq? (State.phase_setPhase_self ..)
    · refine (accounted.2 seq earlier).imp_right (held_setPhase fun held => ?_)
      rw [idle] at held
      cases held
  · refine (accounted.2 seq member).imp_right (held_setPhase fun held => ?_)
    rwa [phase] at held
  · rcases accounted.2 seq member with below | held
    · exact .inl (below.trans raised)
    · by_cases same : seq = passed
      · exact .inl (same ▸ le_max_left _ _)
      · refine .inr (held_setPhase (fun held => ?_) held)
        rw [phase] at held
        exact (same (Option.some.inj held).symm).elim

/-! ## Every interleaving -/

variable {start final : State Caller} {events : List (Event Caller)}

/-- The guard holds throughout a run exactly when no step of it lowers the maximum. -/
theorem throughout_fresh_iff (execution : Schedule.run next start events = some final) :
    Schedule.Throughout next Fresh start events ↔ NeverDecreases start events := by
  constructor
  · rintro fresh front back first last ⟨rest, rfl⟩ reached onward
    let inv : State Caller → Prop := fun later => first.maximum ≤ later.maximum
    have kept : ∀ {state event after}, inv state → Fresh state event →
        next state event = some after → inv after :=
      fun below fresh step => below.trans ((fresh_iff step).mp fresh)
    exact (fresh.front.back reached).run_invariant kept le_rfl onward
  · intro monotone
    refine Schedule.throughout_iff.mpr fun front event back state split reached => ?_
    rw [split] at execution monotone
    obtain ⟨after, step, -⟩ := Schedule.run_cons_eq_some.mp (Schedule.run_back reached execution)
    refine (fresh_iff step).mpr (monotone front [event] state after ?_ reached ?_)
    · exact ⟨back, by simp⟩
    · exact Schedule.run_cons_eq_some.mpr ⟨after, step, rfl⟩

/-- In every interleaving of any callers, the maximum never decreases and covers every number
passed whenever all calls have returned exactly when each caller finds, at its write, the maximum
no higher than its own number or than what it has read. -/
theorem maximum_monotone_iff (start final : State Caller) (events : List (Event Caller))
    (unpassed : start.passed = []) (nonnegative : 0 ≤ start.maximum)
    (execution : Schedule.run next start events = some final) :
    (NeverDecreases start events ∧
      ∀ visited state, visited <+: events → Schedule.run next start visited = some state →
        Covered state) ↔
      Schedule.Throughout next Fresh start events := by
  rw [throughout_fresh_iff execution, and_iff_left_iff_imp]
  rintro monotone visited state ⟨rest, rfl⟩ reached
  have fresh := ((throughout_fresh_iff execution).mpr monotone).front
  have accounted : Accounted start := ⟨nonnegative, by simp [unpassed]⟩
  exact (fresh.run_invariant (fun held fresh step => held.next fresh step) accounted
    reached).covered

/-- Both callers have read before either writes; the higher number is written last. -/
theorem maximum_monotone_overlapping : ∃ final,
    Schedule.run next ({ value := some (.numeral 100) } : State Bool)
      [.bumpGlobalMatchSeq false 300, .bumpGlobalMatchSeq true 400, .getCursor false,
        .getCursor true, .setCursor false, .setCursor true] = some final ∧
    Covered final ∧ final.maximum = 400 := by
  refine ⟨_, rfl, ?_, by decide⟩
  have fresh := (maximum_monotone_iff ({ value := some (.numeral 100) } : State Bool) _
    [.bumpGlobalMatchSeq false 300, .bumpGlobalMatchSeq true 400, .getCursor false,
      .getCursor true, .setCursor false, .setCursor true]
    rfl (by decide) rfl).mpr
    ⟨trivial, fun _ step => by
      cases step
      refine ⟨trivial, fun _ step => ?_⟩
      cases step
      refine ⟨trivial, fun _ step => ?_⟩
      cases step
      refine ⟨trivial, fun _ step => ?_⟩
      cases step
      refine ⟨.inl (by decide), fun _ step => ?_⟩
      cases step
      exact ⟨.inl (by decide), fun _ _ => trivial⟩⟩
  exact fresh.2 _ _ (List.prefix_refl _) rfl

/-- Both callers have read before either writes; the lower number is written last. -/
theorem maximum_lost : ∃ higher final,
    Schedule.run next ({ value := some (.numeral 100) } : State Bool)
      [.bumpGlobalMatchSeq false 300, .bumpGlobalMatchSeq true 200, .getCursor false,
        .getCursor true, .setCursor false] = some higher ∧
    next higher (.setCursor true) = some final ∧ final.maximum < higher.maximum ∧
    final.Returned ∧ ¬ Covered final := by
  refine ⟨_, _, rfl, rfl, by decide, ?_, fun covered => ?_⟩
  · intro caller
    cases caller <;> rfl
  · have below := covered (fun caller => by cases caller <;> rfl) 300 (by decide)
    revert below
    decide

/-! ## Calls which do not overlap -/

/-- A caller about to write has read the row as it is, and is the only one. -/
def UpToDate (state : State Caller) : Prop :=
  ∀ caller seq current, state.phase caller = .writing seq current →
    current = state.value ∧
      ∀ other otherSeq otherCurrent, state.phase other = .writing otherSeq otherCurrent →
        other = caller

/-- Who is about to write after a step of one caller. -/
theorem writing_cases {caller other : Caller} {phase : Phase} {seq : Int}
    {current : Option CursorText}
    (about : (state.setPhase caller phase).phase other = .writing seq current) :
    other = caller ∧ phase = .writing seq current ∨
      other ≠ caller ∧ state.phase other = .writing seq current :=
  Processes.of_update (fun entered => entered = Phase.writing seq current) about

theorem UpToDate.next (upToDate : UpToDate state) (alone : Alone state event)
    (step : next state event = some after) : UpToDate after := by
  -- a caller which enters no write leaves every writer where it was
  have quiet : ∀ caller phase, (∀ seq current, phase ≠ .writing seq current) →
      UpToDate (state.setPhase caller phase) := by
    intro caller phase outside writer seq current about
    rcases writing_cases about with ⟨-, entered⟩ | ⟨-, before⟩
    · exact (outside seq current entered).elim
    · refine ⟨(upToDate writer seq current before).1, ?_⟩
      intro other otherSeq otherCurrent otherAbout
      rcases writing_cases otherAbout with ⟨-, entered⟩ | ⟨-, otherBefore⟩
      · exact (outside otherSeq otherCurrent entered).elim
      · exact (upToDate writer seq current before).2 other otherSeq otherCurrent otherBefore
  rcases next_cases step with ⟨caller, seq, rfl, -, rfl⟩ | ⟨caller, seq, rfl, -, rfl⟩ |
    ⟨caller, seq, current, rfl, phase, rfl⟩
  · refine quiet caller _ fun _ _ => ?_
    split <;> simp
  · intro writer writerSeq current about
    rcases writing_cases about with ⟨rfl, entered⟩ | ⟨-, before⟩
    · cases entered
      refine ⟨rfl, fun other otherSeq otherCurrent otherAbout => ?_⟩
      rcases writing_cases otherAbout with ⟨same, -⟩ | ⟨-, otherBefore⟩
      · exact same
      · exact (alone other otherSeq otherCurrent otherBefore).elim
    · exact (alone writer writerSeq current before).elim
  · intro writer writerSeq writerCurrent about
    rcases writing_cases about with ⟨-, entered⟩ | ⟨ne, before⟩
    · cases entered
    · exact (ne ((upToDate caller seq current phase).2 writer _ _ before)).elim

/-- Where no caller reads while another one is about to write, no write lowers the maximum. -/
theorem throughout_fresh_of_alone (idle : start.Returned)
    (alone : Schedule.Throughout next Alone start events) :
    Schedule.Throughout next Fresh start events := by
  have upToDate : UpToDate start := by
    intro caller seq current about
    rw [idle caller] at about
    cases about
  refine Schedule.throughout_iff.mpr fun front event back state split reached => ?_
  rw [split] at alone
  have here : UpToDate state :=
    alone.front.run_invariant (fun held alone step => held.next alone step) upToDate reached
  cases event with
  | bumpGlobalMatchSeq | getCursor => trivial
  | setCursor caller =>
      cases phase : state.phase caller with
      | idle | reading => simp [Fresh, phase]
      | writing seq current =>
          have same := (here caller seq current phase).1
          simp [Fresh, phase, State.maximum, same]

end GlobalSeq
end SeqWalk
end DotaCollector
